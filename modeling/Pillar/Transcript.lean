/-
Programs that ask. Each answer may depend on everything asked before, so the
answers are anybody's; the transcript keeps every question with its answer, in
order, also of a run that fails.

A run that returns a value is taken apart bind by bind (`bind_ok` and its like);
what any run adds to the transcript, returned or failed, is `Emits`.
-/
import Mathlib

namespace Pillar

variable {Q : Type} {A : Q → Type} {ε α β γ : Type}

/-- A question and its answer. -/
structure Asked (Q : Type) (A : Q → Type) where
  question : Q
  answer : A question

abbrev Oracle (Q : Type) (A : Q → Type) := List (Asked Q A) → (q : Q) → A q

/-- A program that asks, and returns a value or an error. -/
def Asking (Q : Type) (A : Q → Type) (ε α : Type) := List (Asked Q A) → Except ε α × List (Asked Q A)

namespace Asking

instance : Monad (Asking Q A ε) where
  pure a := fun t => (.ok a, t)
  bind m f := fun t =>
    match m t with
    | (.ok a, t) => f a t
    | (.error e, t) => (.error e, t)

def throw (e : ε) : Asking Q A ε α := fun t => (.error e, t)

/-- A result that is there already. -/
def lift (r : Except ε α) : Asking Q A ε α := fun t => (r, t)

/-- Asks, and has the answer. -/
def ask (oracle : Oracle Q A) (q : Q) : Asking Q A ε (A q) := fun t => (.ok (oracle t q), t ++ [⟨q, oracle t q⟩])

variable {m : Asking Q A ε α} {f : α → Asking Q A ε β} {t t' : List (Asked Q A)}

/-! ## A run that returns -/

theorem bind_ok {b : β} (h : (m >>= f) t = (.ok b, t')) : ∃ a s, m t = (.ok a, s) ∧ f a s = (.ok b, t') := by
  simp only [Bind.bind] at h
  split at h
  next a s hm => exact ⟨a, s, hm, h⟩
  next e s hm => cases h

theorem bind_of_ok {a : α} {s : List (Asked Q A)} (h : m t = (.ok a, s)) : (m >>= f) t = f a s := by
  simp only [Bind.bind, h]

theorem pure_ok {a b : α} (h : (pure a : Asking Q A ε α) t = (.ok b, t')) : b = a ∧ t = t' := by
  cases h
  exact ⟨rfl, rfl⟩

theorem lift_ok {r : Except ε α} {a : α} (h : lift r t = (.ok a, t')) : r = .ok a ∧ t = t' := by
  cases h
  exact ⟨rfl, rfl⟩

theorem ask_ok {oracle : Oracle Q A} {q : Q} {a : A q} (h : (ask oracle q : Asking Q A ε (A q)) t = (.ok a, t')) :
    oracle t q = a ∧ t' = t ++ [⟨q, a⟩] := by
  cases h
  exact ⟨rfl, rfl⟩

theorem throw_ok {e : ε} {a : α} (h : (throw e : Asking Q A ε α) t = (.ok a, t')) : False := by
  cases h

/-! ## What any run adds -/

/-- Of what `g` notes of the entries, a run adds `l`; a run that fails, a first
part of `l`. -/
def Emits (g : Asked Q A → Option γ) (m : Asking Q A ε α) (l : List γ) : Prop :=
  ∀ t, ∃ added, (m t).2 = t ++ added ∧ added.filterMap g <+: l ∧ ∀ a, (m t).1 = .ok a → added.filterMap g = l

variable {g : Asked Q A → Option γ} {l l' : List γ}

theorem emits_result (r : Except ε α) : Emits g (fun t => (r, t)) [] := by
  intro t
  exact ⟨[], (List.append_nil t).symm, List.nil_prefix, fun a ha => rfl⟩

theorem emits_pure (a : α) : Emits g (pure a : Asking Q A ε α) [] := emits_result (.ok a)

theorem emits_throw (e : ε) : Emits g (throw e : Asking Q A ε α) [] := emits_result (.error e)

theorem emits_lift (r : Except ε α) : Emits g (lift r : Asking Q A ε α) [] := emits_result r

theorem emits_ask {oracle : Oracle Q A} {q : Q} (h : ∀ a, ([⟨q, a⟩] : List (Asked Q A)).filterMap g = l) :
    Emits g (ask oracle q : Asking Q A ε (A q)) l := by
  intro t
  exact ⟨[⟨q, oracle t q⟩], rfl, h _ ▸ List.prefix_refl _, fun a ha => h _⟩

theorem Emits.bind (hm : Emits g m l) (hf : ∀ a, Emits g (f a) l') : Emits g (m >>= f) (l ++ l') := by
  intro t
  obtain ⟨before, ht, hpre, hok⟩ := hm t
  cases hrun : m t with
  | mk result s =>
    rw [hrun] at ht hok
    simp only at ht hok
    cases result with
    | error e =>
      refine ⟨before, ?_, hpre.trans (List.prefix_append l l'), fun b hb => ?_⟩
      · simp only [Bind.bind, hrun]
        exact ht
      · simp only [Bind.bind, hrun] at hb
        cases hb
    | ok a =>
      obtain ⟨after, ht', hpre', hok'⟩ := hf a s
      refine ⟨before ++ after, ?_, ?_, fun b hb => ?_⟩
      · simp only [Bind.bind, hrun]
        rw [ht', ht, List.append_assoc]
      · rw [List.filterMap_append, hok a rfl]
        exact (List.prefix_append_right_inj l).mpr hpre'
      · simp only [Bind.bind, hrun] at hb
        rw [List.filterMap_append, hok a rfl, hok' b hb]

/-- Nothing noted in the first part. -/
theorem Emits.after (hm : Emits g m []) (hf : ∀ a, Emits g (f a) l) : Emits g (m >>= f) l := hm.bind hf

end Asking

/-- An entry that is not in the first part comes after all of it. -/
theorem split_of_notMem {e : γ} {before after first second : List γ}
    (h : before ++ e :: after = first ++ second) (he : e ∉ first) :
    ∃ mid, before = first ++ mid ∧ second = mid ++ e :: after := by
  rcases List.append_eq_append_iff.mp h with ⟨mid, hfirst, hafter⟩ | ⟨mid, hbefore, hsecond⟩
  · cases mid with
    | nil => exact ⟨[], by simpa using hfirst.symm, by simpa using hafter.symm⟩
    | cons x mid =>
      rw [List.cons_append, List.cons.injEq] at hafter
      rw [hfirst, hafter.1] at he
      exact absurd (List.mem_append_right before List.mem_cons_self) he
  · exact ⟨mid, hbefore, hsecond⟩

end Pillar
