/-
Calls that read the part of a list that stands at a place in the state, and
leave the place behind that part.
-/
import Pillar.Tracked

namespace Pillar

variable {σ ε α β γ : Type}

namespace Tracked

/-- `n` times in a row; the first failure ends it. -/
def times (x : Tracked σ ε α) : Nat → Tracked σ ε (List α)
  | 0 => pure []
  | n + 1 => do
    let a ← x
    let rest ← times x n
    pure (a :: rest)

/-! ## Invariants -/

/-- What holds of the state goes on to hold, however the call returns. -/
def Keeps (P : σ → Prop) (x : Tracked σ ε α) : Prop := Spec P x (fun _ => P) P

variable {P : σ → Prop} {x : Tracked σ ε α} {f : α → Tracked σ ε β} {a : α}

theorem Keeps.pure : Keeps P (pure a : Tracked σ ε α) := Spec.pure fun _ h => h

theorem Keeps.fail (e : ε) : Keeps P (fail e : Tracked σ ε α) := Spec.fail e fun _ h => h

theorem Keeps.bind (hx : Keeps P x) (hf : ∀ a, Keeps P (f a)) : Keeps P (x >>= f) := Spec.bind hx hf

theorem Keeps.get? (o : Option α) : Keeps P (Tracked.get? o : Tracked σ Unit α) :=
  (Spec.get? fun _ h => h).mono (fun _ h => h) fun _ _ h => h.2

theorem Keeps.update {g : σ → σ} (h : ∀ s, P s → P (g s)) : Keeps P (Tracked.update g : Tracked σ ε Unit) :=
  Spec.update h

theorem Keeps.times (hx : Keeps P x) (n : Nat) : Keeps P (times x n) := by
  induction n with
  | zero => exact Keeps.pure
  | succ n ih => exact hx.bind fun _ => ih.bind fun _ => Keeps.pure

/-- What holds of each value, and how many there are. -/
theorem Spec.times {E : σ → Prop} {A : α → Prop} (hx : Spec P x (fun a s => A a ∧ P s) E) (n : Nat) :
    Spec P (times x n) (fun l s => (l.length = n ∧ ∀ a ∈ l, A a) ∧ P s) E := by
  induction n with
  | zero => exact Spec.pure fun s hs => ⟨⟨rfl, by simp⟩, hs⟩
  | succ n ih =>
    refine Spec.bind hx fun a => Spec.of_and fun ha => ih.bind fun rest => Spec.of_and fun hrest => ?_
    refine Spec.pure fun s hs => ⟨⟨congrArg (· + 1) hrest.1, fun b hb => ?_⟩, hs⟩
    rcases List.mem_cons.mp hb with rfl | hb
    · exact ha
    · exact hrest.2 b hb

/-! ## Reading -/

/-- Where the part stands at the place, the call returns the value and goes on behind the part. -/
def Reads (data : List γ) (place : σ → Nat) (x : Tracked σ ε α) (part : List γ) (a : α) : Prop :=
  ∀ s rest, place s ≤ data.length → data.drop (place s) = part ++ rest →
    ∃ s', x s = (.ok a, s') ∧ place s' = place s + part.length

variable {data part part' : List γ} {place : σ → Nat} {b : β}

theorem Reads.pure : Reads data place (pure a : Tracked σ ε α) [] a := fun s _ _ _ => ⟨s, rfl, rfl⟩

theorem add_length_le_of_drop {rest : List γ} {n : Nat} (hle : n ≤ data.length) (h : data.drop n = part ++ rest) :
    n + part.length ≤ data.length := by
  have hlength := congrArg List.length h
  rw [List.length_drop, List.length_append] at hlength
  omega

theorem Reads.bind (hx : Reads data place x part a) (hf : Reads data place (f a) part' b) :
    Reads data place (x >>= f) (part ++ part') b := by
  intro s rest hle hdrop
  rw [List.append_assoc] at hdrop
  obtain ⟨s', hrun, hplace⟩ := hx s _ hle hdrop
  have hdrop' : data.drop (place s') = part' ++ rest := by
    rw [hplace, ← List.drop_drop, hdrop, List.drop_left]
  obtain ⟨s'', hrun', hplace'⟩ := hf s' rest (hplace ▸ add_length_le_of_drop hle hdrop) hdrop'
  exact ⟨s'', by rw [bind_of_ok hrun, hrun'], by rw [hplace', hplace, List.length_append, Nat.add_assoc]⟩

/-- A value computed from what is read. -/
theorem Reads.map {f : α → Tracked σ ε β} (hx : Reads data place x part a) (hf : f a = Pure.pure b) :
    Reads data place (x >>= f) part b := by
  have hpure : Reads data place (f a) [] b := by
    rw [hf]
    exact Reads.pure
  have hbind := hx.bind hpure
  rwa [List.append_nil] at hbind

/-- An update that does not touch the place. -/
theorem Reads.update {g : σ → σ} {f : Unit → Tracked σ ε β} (hg : ∀ s, place (g s) = place s)
    (hf : Reads data place (f ()) part b) : Reads data place (update g >>= f) part b := by
  intro s rest hle hdrop
  obtain ⟨s', hrun, hplace⟩ := hf (g s) rest (by rwa [hg]) (by rw [hg, hdrop])
  exact ⟨s', hrun, by rw [hplace, hg]⟩

/-- **Parts in a row** are read one after the other. -/
theorem Reads.times {parts : List (List γ)} {values : List α}
    (h : List.Forall₂ (fun part a => Reads data place x part a) parts values) :
    Reads data place (times x values.length) parts.flatten values := by
  induction h with
  | nil => exact Reads.pure
  | @cons part a parts values hhead _ ih =>
    exact hhead.bind (ih.map rfl)

end Tracked

end Pillar
