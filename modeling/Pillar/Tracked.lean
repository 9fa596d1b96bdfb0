/-
Calls on a state that stays as it is left when they fail, as what is behind a
`&mut` does, and the rules of what they keep.
-/
import Pillar.Halt

namespace Pillar

/-- A call on a state of `σ`: how it ends, and what it leaves the state as. -/
def Tracked (σ ε α : Type) : Type := σ → Exec ε α × σ

variable {σ ε α β : Type}

namespace Tracked

instance : Monad (Tracked σ ε) where
  pure a := fun s => (.ok a, s)
  bind x f := fun s =>
    match x s with
    | (.ok a, s') => f a s'
    | (.error halt, s') => (.error halt, s')

/-- The state as it is. -/
def state : Tracked σ ε σ := fun s => (.ok s, s)

def update (f : σ → σ) : Tracked σ ε Unit := fun s => (.ok (), f s)

/-- `return Err(e)`. -/
def fail (e : ε) : Tracked σ ε α := fun s => (Exec.err e, s)

/-- A call that does not touch the state. -/
def call (x : Exec ε α) : Tracked σ ε α := fun s => (x, s)

/-- `?` on an `Option`, in a function that returns one. -/
def get? (o : Option α) : Tracked σ Unit α :=
  match o with
  | .some a => pure a
  | .none => fail ()

variable {x : Tracked σ ε α} {f : α → Tracked σ ε β} {s s' : σ} {a : α}

theorem pure_apply (a : α) (s : σ) : (pure a : Tracked σ ε α) s = (.ok a, s) := rfl

theorem bind_apply (x : Tracked σ ε α) (f : α → Tracked σ ε β) (s : σ) : (x >>= f) s =
    match x s with
    | (.ok a, s') => f a s'
    | (.error halt, s') => (.error halt, s') := rfl

/-- The rest of a call that has come so far. -/
theorem bind_of_ok (h : x s = (.ok a, s')) : (x >>= f) s = f a s' := by
  rw [bind_apply, h]

@[simp] theorem state_bind (f : σ → Tracked σ ε β) : (state >>= f) s = f s s := rfl

@[simp] theorem update_bind (g : σ → σ) (f : Unit → Tracked σ ε β) : (update g >>= f) s = f () (g s) := rfl

@[simp] theorem call_ok_bind (a : α) (f : α → Tracked σ ε β) : (call (.ok a) >>= f) s = f a s := rfl

@[simp] theorem get?_some_bind (a : α) (f : α → Tracked σ Unit β) : (get? (.some a) >>= f) s = f a s := rfl

/-! ## Rules -/

/-- **From a state with `P` the call returns**: a value, in a state with `Q`, or
an error, in a state with `E`. -/
def Spec (P : σ → Prop) (x : Tracked σ ε α) (Q : α → σ → Prop) (E : σ → Prop) : Prop :=
  ∀ s, P s → (x s).1.Returns ∧ (∀ a, (x s).1 = .ok a → Q a (x s).2) ∧ ∀ e, (x s).1 = Exec.err e → E (x s).2

variable {P P' : σ → Prop} {Q Q' : α → σ → Prop} {R : β → σ → Prop} {E : σ → Prop}

theorem Spec.pure (h : ∀ s, P s → Q a s) : Spec P (pure a : Tracked σ ε α) Q E := by
  intro s hs
  refine ⟨Exec.returns_ok a, fun b hb => ?_, fun e he => (by cases he)⟩
  obtain rfl := Except.ok.inj hb
  exact h s hs

theorem Spec.fail (e : ε) (h : ∀ s, P s → E s) : Spec P (fail e : Tracked σ ε α) Q E :=
  fun s hs => ⟨Exec.returns_err e, fun a ha => (by cases ha), fun _ _ => h s hs⟩

theorem Spec.bind (hx : Spec P x Q E) (hf : ∀ a, Spec (Q a) (f a) R E) : Spec P (x >>= f) R E := by
  intro s hs
  obtain ⟨hreturns, hok, herr⟩ := hx s hs
  rw [bind_apply]
  cases hrun : x s with
  | mk result s' =>
    rw [hrun] at hreturns hok herr
    cases result with
    | ok a => exact hf a s' (hok a rfl)
    | error halt =>
      refine ⟨⟨fun h => hreturns.1 ?_, fun h => hreturns.2 ?_⟩, fun b hb => (by cases hb), fun e he => herr e ?_⟩
      · cases h
        rfl
      · cases h
        rfl
      · cases he
        rfl

theorem Spec.mono (h : Spec P x Q E) (hP : ∀ s, P' s → P s) (hQ : ∀ a s, Q a s → Q' a s) : Spec P' x Q' E :=
  fun s hs =>
    have hx := h s (hP s hs)
    ⟨hx.1, fun a ha => hQ a _ (hx.2.1 a ha), hx.2.2⟩

/-- A fact that holds of no state in particular. -/
theorem Spec.of_and {p : Prop} (h : p → Spec P x Q E) : Spec (fun s => p ∧ P s) x Q E := fun s hs => h hs.1 s hs.2

theorem Spec.state : Spec P (state : Tracked σ ε σ) (fun a s => a = s ∧ P s) E := by
  intro s hs
  refine ⟨Exec.returns_ok s, fun a ha => ?_, fun e he => (by cases he)⟩
  obtain rfl := Except.ok.inj ha
  exact ⟨rfl, hs⟩

theorem Spec.update {g : σ → σ} {Q : Unit → σ → Prop} (h : ∀ s, P s → Q () (g s)) :
    Spec P (update g : Tracked σ ε Unit) Q E :=
  fun s hs => ⟨Exec.returns_ok (), fun _ _ => h s hs, fun e he => (by cases he)⟩

theorem Spec.call {y : Exec ε α} (hy : y.Returns) (h : ∀ s, P s → E s) :
    Spec P (call y : Tracked σ ε α) (fun a s => y = .ok a ∧ P s) E :=
  fun s hs => ⟨hy, fun _ ha => ⟨ha, hs⟩, fun _ _ => h s hs⟩

theorem Spec.get? {o : Option α} (h : ∀ s, P s → E s) :
    Spec P (get? o : Tracked σ Unit α) (fun a s => o = .some a ∧ P s) E := by
  cases o with
  | none => exact Spec.fail () h
  | some a => exact Spec.pure fun s hs => ⟨rfl, hs⟩

/-! ## Calls that leave the state alone -/

/-- However the call ends, the state is what it was. -/
def Still (x : Tracked σ ε α) : Prop := ∀ s, (x s).2 = s

theorem Still.pure (a : α) : Still (pure a : Tracked σ ε α) := fun _ => rfl

theorem Still.fail (e : ε) : Still (fail e : Tracked σ ε α) := fun _ => rfl

theorem Still.call (y : Exec ε α) : Still (call y : Tracked σ ε α) := fun _ => rfl

/-- What comes after leaves the state as the call before left it. -/
theorem snd_bind_still (x : Tracked σ ε α) {f : α → Tracked σ ε β} (hf : ∀ a, Still (f a)) (s : σ) :
    ((x >>= f) s).2 = (x s).2 := by
  rw [bind_apply]
  cases hrun : x s with
  | mk result s' =>
    cases result with
    | ok a => exact hf a s'
    | error halt => rfl

/-- What comes before leaves the state to the calls behind it. -/
theorem Still.bind_or {R : σ → Prop} (hx : Still x) (hs : R s) (hf : ∀ a, (x s).1 = .ok a → R (f a s).2) :
    R ((x >>= f) s).2 := by
  have hstate := hx s
  rw [bind_apply]
  cases hrun : x s with
  | mk result s' =>
    rw [hrun] at hstate hf
    obtain rfl := hstate
    cases result with
    | ok a => exact hf a rfl
    | error halt => exact hs

end Tracked

end Pillar
