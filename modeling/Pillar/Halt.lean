/-
How a call ends. A Rust function returns a value, returns `Err`, panics, or
never returns; `Exec` keeps the four apart, so that "it returns" is part of
what a theorem about a modelled function says.

A loop whose bound is not its own recursion is given one (`fuel`), and running
out of it is an ending of its own, never a value.
-/
import Mathlib

namespace Pillar

/-- Why a call has no value: it returned `Err e`, it panicked (an index, an
`expect` or an arithmetic check failed), or it outran the bound the model
gives its loop. -/
inductive Halt (ε : Type) where
  | err (e : ε)
  | panic
  | fuel
  deriving Repr, DecidableEq

/-- A call returning `α`, or `Err` of `ε`. -/
abbrev Exec (ε α : Type) := Except (Halt ε) α

variable {ε α β : Type}

/-- `Err(e)`. -/
def Exec.err (e : ε) : Exec ε α := .error (.err e)

/-- `slice[i]`, `map[key]`, `expect`: a panic when there is nothing. -/
def Exec.get : Option α → Exec ε α
  | .some a => .ok a
  | .none => .error .panic

@[simp] theorem Exec.get_some (a : α) : (Exec.get (.some a) : Exec ε α) = .ok a := rfl
@[simp] theorem Exec.get_none : (Exec.get .none : Exec ε α) = .error .panic := rfl

theorem Exec.get_eq_ok {o : Option α} {a : α} : (Exec.get o : Exec ε α) = .ok a ↔ o = .some a := by
  cases o <;> simp [Exec.get]

/-- `a - b` on `usize`: a panic when it would go below zero. -/
def Exec.sub (a b : Nat) : Exec ε Nat := if b ≤ a then .ok (a - b) else .error .panic

theorem Exec.sub_of_le {a b : Nat} (h : b ≤ a) : (Exec.sub a b : Exec ε Nat) = .ok (a - b) := if_pos h

/-- `&slice[from..to]`: a panic when it reaches past the end. -/
def Exec.slice (l : List α) (start stop : Nat) : Exec ε (List α) :=
  if start ≤ stop ∧ stop ≤ l.length then .ok ((l.drop start).take (stop - start)) else .error .panic

/-- `Result::or_else`. -/
def Exec.orElse (x y : Exec ε α) : Exec ε α :=
  match x with
  | .error (.err _) => y
  | x => x

/-- A sequence returns when both its parts do. -/
theorem bindOk_iff {x : Except ε α} {f : α → Except ε β} {b : β} :
    (x >>= f) = .ok b ↔ ∃ a, x = .ok a ∧ f a = .ok b := by
  rcases x with h | a
  · exact ⟨fun e => (by cases e), fun ⟨_, e, _⟩ => (by cases e)⟩
  · exact ⟨fun e => ⟨a, rfl, e⟩, fun ⟨_, e, h⟩ => by cases e; exact h⟩

theorem Exec.bind_ok_iff {x : Exec ε α} {f : α → Exec ε β} {b : β} :
    (x >>= f) = .ok b ↔ ∃ a, x = .ok a ∧ f a = .ok b := bindOk_iff

@[simp] theorem Exec.ok_bind (a : α) (f : α → Exec ε β) : ((Except.ok a : Exec ε α) >>= f) = f a := rfl

@[simp] theorem Exec.error_bind (e : Halt ε) (f : α → Exec ε β) :
    ((Except.error e : Exec ε α) >>= f) = .error e := rfl

@[simp] theorem Exec.pure_eq_ok (a : α) : (pure a : Exec ε α) = .ok a := rfl

/-- The call returns: a value or an `Err`. -/
def Exec.Returns (x : Exec ε α) : Prop := x ≠ .error .panic ∧ x ≠ .error .fuel

theorem Exec.returns_ok (a : α) : Returns (.ok a : Exec ε α) := ⟨by simp, by simp⟩

theorem Exec.returns_err (e : ε) : Returns (Exec.err e : Exec ε α) := ⟨by simp [Exec.err], by simp [Exec.err]⟩

theorem Exec.Returns.bind {x : Exec ε α} {f : α → Exec ε β} (h : x.Returns) (hf : ∀ a, x = .ok a → (f a).Returns) :
    (x >>= f).Returns := by
  cases x with
  | ok a => exact hf a rfl
  | error e =>
    rw [Exec.error_bind]
    exact ⟨fun he => h.1 (by cases he; rfl), fun he => h.2 (by cases he; rfl)⟩

/-- The call returns, and a value it returns has `Q`. -/
def Exec.Yields (x : Exec ε α) (Q : α → Prop) : Prop := x.Returns ∧ ∀ a, x = .ok a → Q a

theorem Exec.yields_ok {a : α} {Q : α → Prop} (h : Q a) : Yields (.ok a : Exec ε α) Q :=
  ⟨returns_ok a, fun _ he => by cases he; exact h⟩

theorem Exec.yields_err (e : ε) (Q : α → Prop) : Yields (Exec.err e : Exec ε α) Q :=
  ⟨returns_err e, fun _ he => by cases he⟩

theorem Exec.Returns.yields_bind {x : Exec ε α} {f : α → Exec ε β} {Q : β → Prop} (h : x.Returns)
    (hf : ∀ a, x = .ok a → (f a).Yields Q) : (x >>= f).Yields Q := by
  refine ⟨h.bind fun a ha => (hf a ha).1, fun b hb => ?_⟩
  obtain ⟨a, ha, hfa⟩ := bind_ok_iff.mp hb
  exact (hf a ha).2 b hfa

theorem Exec.Yields.bind {x : Exec ε α} {f : α → Exec ε β} {P : α → Prop} {Q : β → Prop} (h : x.Yields P)
    (hf : ∀ a, P a → (f a).Yields Q) : (x >>= f).Yields Q :=
  h.1.yields_bind fun a ha => hf a (h.2 a ha)

theorem Exec.Yields.mono {x : Exec ε α} {P Q : α → Prop} (h : x.Yields P) (hPQ : ∀ a, P a → Q a) : x.Yields Q :=
  ⟨h.1, fun a ha => hPQ a (h.2 a ha)⟩

/-- A loop over `l`: what holds after the items done so far. -/
theorem Exec.yields_foldlM {f : β → α → Exec ε β} {P : List α → β → Prop} : ∀ (l done : List α) (b : β),
    (∀ done, ∀ a ∈ l, ∀ b, P done b → (f b a).Yields (P (done ++ [a]))) → P done b →
    (l.foldlM f b).Yields (P (done ++ l))
  | [], done, b, _, h => by
    rw [List.append_nil]
    exact yields_ok h
  | a :: l, done, b, hstep, h => by
    rw [List.foldlM_cons]
    refine (hstep done a List.mem_cons_self b h).bind fun b' hb' => ?_
    have happend : done ++ a :: l = done ++ [a] ++ l := by simp
    rw [happend]
    exact yields_foldlM l (done ++ [a]) b' (fun done c hc => hstep done c (List.mem_cons_of_mem _ hc)) hb'

/-! ## Values -/

/-- The call returns a value that has `Q`. -/
def Exec.Gives (x : Exec ε α) (Q : α → Prop) : Prop := ∃ a, x = .ok a ∧ Q a

theorem Exec.gives_ok {a : α} {Q : α → Prop} (h : Q a) : Gives (.ok a : Exec ε α) Q := ⟨a, rfl, h⟩

theorem Exec.Gives.bind {x : Exec ε α} {f : α → Exec ε β} {P : α → Prop} {Q : β → Prop} (h : x.Gives P)
    (hf : ∀ a, P a → (f a).Gives Q) : (x >>= f).Gives Q := by
  obtain ⟨a, rfl, ha⟩ := h
  exact hf a ha

/-- A loop over `l`: what holds after the items done so far. -/
theorem Exec.gives_foldlM {f : β → α → Exec ε β} {P : List α → β → Prop} (l : List α) {b : β} (h : P [] b)
    (hstep : ∀ done a rest b, l = done ++ a :: rest → P done b → (f b a).Gives (P (done ++ [a]))) :
    (l.foldlM f b).Gives (P l) := by
  suffices key : ∀ (rest done : List α) (b : β), l = done ++ rest → P done b → (rest.foldlM f b).Gives (P l) from
    key l [] b rfl h
  intro rest
  induction rest with
  | nil =>
    intro done b hl hb
    rw [List.append_nil] at hl
    exact hl ▸ gives_ok hb
  | cons a rest ih =>
    intro done b hl hb
    rw [List.foldlM_cons]
    exact (hstep done a rest b hl hb).bind fun b' hb' => ih (done ++ [a]) b' (by simp [hl]) hb'

/-- A loop that returned: what holds after the items done so far. -/
theorem foldlM_induct {f : β → α → Except ε β} {P : List α → β → Prop} {l : List α} {b r : β}
    (h : l.foldlM f b = .ok r) (hstart : P [] b)
    (hstep : ∀ done a b b', a ∈ l → P done b → f b a = .ok b' → P (done ++ [a]) b') : P l r := by
  suffices key : ∀ (rest done : List α) (b : β), (∀ a ∈ rest, a ∈ l) → rest.foldlM f b = .ok r → P done b →
      P (done ++ rest) r from key l [] b (fun _ ha => ha) h hstart
  intro rest
  induction rest with
  | nil =>
    intro done b _ hr hdone
    cases hr
    rwa [List.append_nil]
  | cons a rest ih =>
    intro done b hl hr hdone
    rw [List.foldlM_cons] at hr
    obtain ⟨b', hb', hrest⟩ := bindOk_iff.mp hr
    have happend : done ++ a :: rest = done ++ [a] ++ rest := by simp
    rw [happend]
    exact ih (done ++ [a]) b' (fun c hc => hl c (List.mem_cons_of_mem _ hc)) hrest
      (hstep done a b b' (hl a List.mem_cons_self) hdone hb')

theorem Exec.gives_mapM {f : α → Exec ε β} {R : α → β → Prop} :
    ∀ (l : List α), (∀ a ∈ l, (f a).Gives (R a)) → (l.mapM f).Gives (List.Forall₂ R l)
  | [], _ => by
    rw [List.mapM_nil]
    exact gives_ok .nil
  | a :: l, h => by
    rw [List.mapM_cons]
    refine (h a List.mem_cons_self).bind fun b hb => ?_
    refine (gives_mapM l fun c hc => h c (List.mem_cons_of_mem _ hc)).bind fun bs hbs => ?_
    exact gives_ok (.cons hb hbs)

theorem Exec.mapM_eq_map {f : α → Exec ε β} {g : α → β} :
    ∀ (l : List α), (∀ a ∈ l, f a = .ok (g a)) → l.mapM f = .ok (l.map g)
  | [], _ => rfl
  | a :: l, h => by
    rw [List.mapM_cons, h a List.mem_cons_self, Exec.ok_bind,
      mapM_eq_map l fun c hc => h c (List.mem_cons_of_mem _ hc)]
    rfl

/-- A map that may fail succeeds when it does on every item. -/
theorem mapM_eq_ok_iff {f : α → Except ε β} {l : List α} {l' : List β} :
    l.mapM f = .ok l' ↔ List.Forall₂ (fun a b => f a = .ok b) l l' := by
  induction l generalizing l' with
  | nil =>
    rw [List.mapM_nil, List.forall₂_nil_left_iff]
    exact ⟨fun h => (by cases h; rfl), fun h => (by rw [h]; rfl)⟩
  | cons a l ih =>
    rw [List.mapM_cons, List.forall₂_cons_left_iff]
    constructor
    · intro h
      cases hfa : f a with
      | error e =>
        rw [hfa] at h
        cases h
      | ok b =>
        rw [hfa] at h
        cases hl : l.mapM f with
        | error e =>
          simp only [hl] at h
          cases h
        | ok bs =>
          simp only [hl] at h
          cases h
          exact ⟨b, bs, rfl, ih.mp hl, rfl⟩
    · intro h
      obtain ⟨b, bs, hfa, hbs, rfl⟩ := h
      rw [hfa, ih.mpr hbs]
      rfl

/-! ## Answers -/

/-- The call returns, and its answer is whether `p`. -/
def Exec.Decides (x : Exec ε Bool) (p : Prop) : Prop := ∃ b, x = .ok b ∧ (b = true ↔ p)

theorem Exec.decides_true {p : Prop} (h : p) : Decides (.ok true : Exec ε Bool) p := ⟨true, rfl, by simpa⟩

theorem Exec.decides_false {p : Prop} (h : ¬ p) : Decides (.ok false : Exec ε Bool) p := ⟨false, rfl, by simpa⟩

theorem Exec.Decides.congr {x : Exec ε Bool} {p q : Prop} (h : x.Decides p) (hpq : p ↔ q) : x.Decides q := by
  obtain ⟨b, hb, hiff⟩ := h
  exact ⟨b, hb, hiff.trans hpq⟩

/-- `iter().any(..)`, of a test that always answers. -/
theorem Exec.decides_anyM {f : α → Exec ε Bool} {p : α → Prop} :
    ∀ (l : List α), (∀ a ∈ l, (f a).Decides (p a)) → (l.anyM f).Decides (∃ a ∈ l, p a)
  | [], _ => decides_false (by simp)
  | a :: l, h => by
    obtain ⟨b, hb, hiff⟩ := h a List.mem_cons_self
    have ih := decides_anyM l fun c hc => h c (List.mem_cons_of_mem _ hc)
    rw [List.anyM, hb, Exec.ok_bind]
    cases b with
    | true => exact decides_true ⟨a, List.mem_cons_self, hiff.mp rfl⟩
    | false =>
      have hno : ¬ p a := fun hp => Bool.noConfusion (hiff.mpr hp)
      exact ih.congr (by simp [hno])

/-- `iter().filter(..).collect()`, of a test that always answers. -/
theorem Exec.decides_filterM {f : α → Exec ε Bool} {p : α → Prop} (l : List α)
    (h : ∀ a ∈ l, (f a).Decides (p a)) :
    ∃ l', l.filterM f = .ok l' ∧ l'.Sublist l ∧ ∀ a, a ∈ l' ↔ a ∈ l ∧ p a := by
  -- `filterM` collects in reverse, in front of what it already has.
  suffices key : ∀ (l acc : List α), (∀ a ∈ l, (f a).Decides (p a)) → ∃ l' : List α,
      l.filterAuxM f acc = .ok (l'.reverse ++ acc) ∧ l'.Sublist l ∧ ∀ a, a ∈ l' ↔ a ∈ l ∧ p a by
    obtain ⟨l', hl', hs, hm⟩ := key l [] h
    exact ⟨l', by simp [List.filterM, hl'], hs, hm⟩
  intro l
  induction l with
  | nil => exact fun acc _ => ⟨[], rfl, .slnil, by simp⟩
  | cons a l ih =>
    intro acc h
    obtain ⟨b, hb, hiff⟩ := h a List.mem_cons_self
    obtain ⟨l', hl', hs, hm⟩ := ih (bif b then a :: acc else acc) fun c hc => h c (List.mem_cons_of_mem _ hc)
    rw [List.filterAuxM, hb, Exec.ok_bind, hl']
    cases b with
    | true =>
      have hp : p a := hiff.mp rfl
      refine ⟨a :: l', by simp, hs.cons_cons a, fun c => ?_⟩
      rw [List.mem_cons, List.mem_cons, hm]
      exact ⟨fun hc => hc.elim (fun e => ⟨.inl e, e ▸ hp⟩) fun hc => ⟨.inr hc.1, hc.2⟩,
        fun ⟨hc, hpc⟩ => hc.imp_right fun hc => ⟨hc, hpc⟩⟩
    | false =>
      have hno : ¬ p a := fun hp => Bool.noConfusion (hiff.mpr hp)
      refine ⟨l', rfl, hs.cons a, fun c => ?_⟩
      rw [List.mem_cons, hm]
      exact ⟨fun hc => ⟨.inr hc.1, hc.2⟩, fun ⟨hc, hpc⟩ => ⟨hc.resolve_left fun e => hno (e ▸ hpc), hpc⟩⟩

/-! ## Machine integers -/

/-- `usize::MAX` on the 64-bit targets the service is built for. -/
def usizeMax : Nat := 2 ^ 64 - 1

def checkedAdd (a b : Nat) : Option Nat := if a + b ≤ usizeMax then .some (a + b) else .none
def checkedMul (a b : Nat) : Option Nat := if a * b ≤ usizeMax then .some (a * b) else .none
def saturatingAdd (a b : Nat) : Nat := min (a + b) usizeMax

theorem checkedAdd_of_le {a b : Nat} (h : a + b ≤ usizeMax) : checkedAdd a b = .some (a + b) := if_pos h

theorem checkedMul_of_le {a b : Nat} (h : a * b ≤ usizeMax) : checkedMul a b = .some (a * b) := if_pos h

theorem checkedAdd_eq_some {a b c : Nat} (h : checkedAdd a b = .some c) : c = a + b := by
  unfold checkedAdd at h
  split at h
  · exact (Option.some.inj h).symm
  · cases h

theorem checkedMul_eq_some {a b c : Nat} (h : checkedMul a b = .some c) : c = a * b := by
  unfold checkedMul at h
  split at h
  · exact (Option.some.inj h).symm
  · cases h

end Pillar
