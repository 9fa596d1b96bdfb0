/-
A scan for the first match: items are judged in order, the first hit is the
answer, and if there is none the first fault met on the way is the error.
-/
import Pillar.Halt

namespace Pillar

variable {ε α β : Type}

inductive Verdict (ε β : Type) where
  | skip
  | fault (e : ε)
  | hit (b : β)
  deriving Repr, DecidableEq

namespace Verdict

def hit? : Verdict ε β → Option β
  | .hit b => .some b
  | _ => .none

def fault? : Verdict ε β → Option ε
  | .fault e => .some e
  | _ => .none

@[simp] theorem hit?_eq_some {v : Verdict ε β} {b : β} : v.hit? = .some b ↔ v = .hit b := by
  cases v <;> simp [hit?]

@[simp] theorem fault?_eq_some {v : Verdict ε β} {e : ε} : v.fault? = .some e ↔ v = .fault e := by
  cases v <;> simp [fault?]

end Verdict

/-- The scan, with the first fault met so far. -/
def scan (judge : α → Exec ε (Verdict ε β)) (missing : ε) : Option ε → List α → Exec ε β
  | first, [] => Exec.err (first.getD missing)
  | first, a :: rest => do
    match ← judge a with
    | .skip => scan judge missing first rest
    | .fault e => scan judge missing (first.or (.some e)) rest
    | .hit b => .ok b

/-- The first hit, or else the first fault, or else `missing`. -/
def outcome (missing : ε) (hit : Option β) (fault : Option ε) : Exec ε β :=
  match hit with
  | .some b => .ok b
  | .none => Exec.err (fault.getD missing)

theorem outcome_eq_ok {missing : ε} {hit : Option β} {fault : Option ε} {b : β} :
    outcome missing hit fault = .ok b ↔ hit = .some b := by
  cases hit with
  | none => exact ⟨fun h => (by cases h), fun h => (by cases h)⟩
  | some b' => rw [outcome, Except.ok.injEq, Option.some.injEq]

/-- The first hit is that of the first item that has one. -/
theorem findSome?_eq_find?_bind (f : α → Option β) (l : List α) :
    l.findSome? f = (l.find? fun a => (f a).isSome).bind f := by
  induction l with
  | nil => rfl
  | cons a l ih =>
    rw [List.findSome?_cons, List.find?_cons, ih]
    cases hfa : f a with
    | none => rfl
    | some b => exact hfa.symm

variable {judge : α → Exec ε (Verdict ε β)} {missing : ε} {verdict : α → Verdict ε β}

/-- **What a scan returns**, of a judge that always answers. -/
theorem scan_eq (l : List α) (h : ∀ a ∈ l, judge a = .ok (verdict a)) (first : Option ε) :
    scan judge missing first l =
      outcome missing (l.findSome? fun a => (verdict a).hit?) (first.or (l.findSome? fun a => (verdict a).fault?)) := by
  induction l generalizing first with
  | nil =>
    rw [scan]
    cases first <;> rfl
  | cons a l ih =>
    have ih := ih fun b hb => h b (List.mem_cons_of_mem _ hb)
    rw [scan, h a List.mem_cons_self, Exec.ok_bind, List.findSome?_cons, List.findSome?_cons]
    cases hv : verdict a with
    | skip => exact ih first
    | fault e =>
      simp only [Verdict.hit?, Verdict.fault?]
      rw [ih]
      cases first <;> rfl
    | hit b => rfl

/-- Items that are skipped may come and go. -/
theorem scan_filter (l : List α) (h : ∀ a ∈ l, judge a = .ok (verdict a)) (p : α → Bool)
    (hp : ∀ a ∈ l, p a = false → verdict a = .skip) (first : Option ε) :
    scan judge missing first (l.filter p) = scan judge missing first l := by
  induction l generalizing first with
  | nil => rfl
  | cons a l ih =>
    have ih := ih (fun b hb => h b (List.mem_cons_of_mem _ hb)) fun b hb => hp b (List.mem_cons_of_mem _ hb)
    cases hpa : p a with
    | true =>
      rw [List.filter_cons_of_pos hpa, scan, scan, h a List.mem_cons_self, Exec.ok_bind, Exec.ok_bind]
      cases verdict a with
      | skip => exact ih first
      | fault e => exact ih _
      | hit b => rfl
    | false =>
      rw [List.filter_cons_of_neg (by simp [hpa]), ih, scan, h a List.mem_cons_self,
        hp a List.mem_cons_self hpa, Exec.ok_bind]

end Pillar
