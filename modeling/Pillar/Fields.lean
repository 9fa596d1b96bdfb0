/-
Fields written out with a colon between them, and the renderings that stand in
them: decimals, booleans, and what `Debug` makes of an option or a text.

Fields without a colon are read back from what was written, so a key made of
them says each of them.
-/
import Pillar.Text

namespace Pillar.Fields

open Text

/-! ## The separator -/

/-- `format!("{}:{}:..")`. -/
def joined : List String → String
  | [] => ""
  | [field] => field
  | field :: fields => field ++ ":" ++ joined fields

/-- A field that can stand between colons. -/
def Plain (field : String) : Prop := ':' ∉ field.toList

instance (field : String) : Decidable (Plain field) := inferInstanceAs (Decidable (_ ∉ _))

/-- Up to its first separator, a text is read in one way. -/
theorem append_cons_inj {α : Type} {sep : α} {a b rest rest' : List α} (ha : sep ∉ a) (hb : sep ∉ b)
    (h : a ++ sep :: rest = b ++ sep :: rest') : a = b ∧ rest = rest' := by
  induction a generalizing b with
  | nil =>
    cases b with
    | nil => exact ⟨rfl, (List.cons.inj h).2⟩
    | cons y b => exact absurd ((List.cons.inj h).1 ▸ List.mem_cons_self) hb
  | cons x a ih =>
    cases b with
    | nil => exact absurd ((List.cons.inj h).1 ▸ List.mem_cons_self) ha
    | cons y b =>
      obtain ⟨hxy, hrest⟩ := List.cons.inj h
      obtain ⟨hab, heq⟩ := ih (fun hm => ha (List.mem_cons_of_mem x hm))
        (fun hm => hb (List.mem_cons_of_mem y hm)) hrest
      exact ⟨by rw [hxy, hab], heq⟩

theorem joined_cons_cons (field next : String) (fields : List String) :
    (joined (field :: next :: fields)).toList = field.toList ++ ':' :: (joined (next :: fields)).toList := by
  simp only [joined, String.toList_append, List.append_assoc]
  rfl

/-- **Plain fields are read back from what was written.** -/
theorem joined_inj {field field' : String} {fields fields' : List String} (hplain : ∀ f ∈ field :: fields, Plain f)
    (hplain' : ∀ f ∈ field' :: fields', Plain f) (h : joined (field :: fields) = joined (field' :: fields')) :
    field = field' ∧ fields = fields' := by
  have htext := congrArg String.toList h
  induction fields generalizing field field' fields' with
  | nil =>
    cases fields' with
    | nil => exact ⟨h, rfl⟩
    | cons next' fields' =>
      rw [joined_cons_cons] at htext
      exact absurd (htext ▸ List.mem_append_right _ List.mem_cons_self) (hplain field List.mem_cons_self)
  | cons next fields ih =>
    cases fields' with
    | nil =>
      rw [joined_cons_cons] at htext
      exact absurd (htext.symm ▸ List.mem_append_right _ List.mem_cons_self) (hplain' field' List.mem_cons_self)
    | cons next' fields' =>
      rw [joined_cons_cons, joined_cons_cons] at htext
      obtain ⟨hfield, hrest⟩ := append_cons_inj (hplain _ List.mem_cons_self) (hplain' _ List.mem_cons_self) htext
      obtain ⟨hnext, hfields⟩ := ih (fun f hf => hplain f (List.mem_cons_of_mem _ hf))
        (fun f hf => hplain' f (List.mem_cons_of_mem _ hf)) (String.toList_inj.mp hrest) hrest
      exact ⟨String.toList_inj.mp hfield, by rw [hnext, hfields]⟩

/-! ## Renderings -/

def decimal (n : UInt64) : String := n.toNat.repr

theorem isDigit_of_mem_decimal {n : UInt64} {c : Char} (h : c ∈ (decimal n).toList) : c.isDigit = true := by
  rw [decimal, Nat.toList_repr] at h
  exact Nat.isDigit_of_mem_toDigits (by decide) (by decide) h

theorem decimal_injective : Function.Injective decimal := by
  intro n m h
  have hn : parse 64 (decimal n) = .ok n.toNat := parse_repr.mpr ⟨rfl, n.toNat_lt⟩
  rw [h] at hn
  exact UInt64.toNat_inj.mp (parse_repr.mp hn).1

theorem plain_decimal (n : UInt64) : Plain (decimal n) := by
  intro hmem
  exact absurd (isDigit_of_mem_decimal hmem) (by decide)

/-- `Debug` of an `Option<u64>`. -/
def debugOption : Option UInt64 → String
  | .some n => "Some(" ++ decimal n ++ ")"
  | .none => "None"

theorem debugOption_injective : Function.Injective debugOption := by
  intro a b h
  have htext := congrArg String.toList h
  cases a with
  | none =>
    cases b with
    | none => rfl
    | some m => simp [debugOption, String.toList_append] at htext
  | some n =>
    cases b with
    | none => simp [debugOption, String.toList_append] at htext
    | some m =>
      simp only [debugOption, String.toList_append, List.append_assoc, List.append_cancel_left_eq,
        List.append_cancel_right_eq, String.toList_inj] at htext
      exact congrArg _ (decimal_injective htext)

theorem plain_debugOption (record : Option UInt64) : Plain (debugOption record) := by
  cases record with
  | none => decide
  | some n =>
    intro hmem
    simp only [debugOption, String.toList_append, List.mem_append] at hmem
    rcases hmem with (hmem | hmem) | hmem
    · exact absurd hmem (by decide)
    · exact plain_decimal n hmem
    · exact absurd hmem (by decide)

def debugBool (b : Bool) : String := if b then "true" else "false"

theorem debugBool_injective : Function.Injective debugBool := by decide

theorem plain_debugBool : ∀ b, Plain (debugBool b) := by decide

end Pillar.Fields
