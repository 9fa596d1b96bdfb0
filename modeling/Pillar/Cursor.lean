/-
Reading a list from a cursor, and what a reader accepts.

`Reads p c G`: at the cursor `c` the reader `p` returns just the values `b`
whose text, in the sense of the grammar `G`, stands at the cursor, and leaves
the cursor behind that text. Readers are put together with `>>=`, their grammars
with `++`.
-/
import Pillar.Halt
import Pillar.Bits

namespace Pillar

open Bits

structure Cursor (α : Type) where
  items : List α
  offset : Nat

variable {α ε β γ : Type}

def Cursor.advance (c : Cursor α) (n : Nat) : Cursor α := { c with offset := c.offset + n }

@[simp] theorem Cursor.advance_items (c : Cursor α) (n : Nat) : (c.advance n).items = c.items := rfl
@[simp] theorem Cursor.advance_offset (c : Cursor α) (n : Nat) : (c.advance n).offset = c.offset + n := rfl

theorem Cursor.advance_advance (c : Cursor α) (n m : Nat) : (c.advance n).advance m = c.advance (n + m) := by
  simp only [advance, Nat.add_assoc]

/-- The cursor is inside a list that a `usize` can measure. -/
def Cursor.Inside (c : Cursor α) : Prop := c.offset ≤ c.items.length ∧ c.items.length ≤ usizeMax

theorem Cursor.Inside.advance {c : Cursor α} {part : List α} (h : c.Inside) (hat : At c.items c.offset part) :
    (c.advance part.length).Inside := by
  have hle := hat.length_le
  rw [List.length_drop] at hle
  exact ⟨by have := h.1; rw [advance_offset, advance_items]; omega, h.2⟩

@[simp] theorem Cursor.advance_zero (c : Cursor α) : c.advance 0 = c := rfl

abbrev Reader (α ε β : Type) := StateT (Cursor α) (Exec ε) β

namespace Reader

/-- `return Err(e)`. -/
def fail (e : ε) : Reader α ε β := fun _ => Exec.err e

/-- The offset, with nothing read. -/
def position : Reader α ε Nat := fun c => .ok (c.offset, c)

/-- How many items are left. -/
def remaining : Reader α ε Nat := fun c => .ok (c.items.length - c.offset, c)

/-- The items from `start` to the cursor. -/
def since (start : Nat) : Reader α ε (List α) := fun c => do
  let part ← Exec.slice c.items start c.offset
  .ok (part, c)

/-- A call that does not touch the cursor. -/
def call (x : Exec ε β) : Reader α ε β := fun c => do
  let b ← x
  .ok (b, c)

/-- One reader, `n` times over. -/
def times (p : Reader α ε β) : Nat → Reader α ε (List β)
  | 0 => pure []
  | n + 1 => do
    let b ← p
    let bs ← times p n
    pure (b :: bs)

end Reader

/-- A part that stands in a list is the slice from where it starts to where it ends. -/
theorem slice_of_at {l part : List α} {start stop : Nat} (h : At l start part) (hstart : start ≤ l.length)
    (hstop : stop = start + part.length) : (Exec.slice l start stop : Exec ε (List α)) = .ok part := by
  subst hstop
  obtain ⟨rest, hrest⟩ := h
  have hlen := congrArg List.length hrest
  rw [List.length_append, List.length_drop] at hlen
  rw [Exec.slice, if_pos ⟨Nat.le_add_right _ _, by omega⟩, Nat.add_sub_cancel_left, ← hrest, List.take_left]

theorem bind_at (p : Reader α ε β) (f : β → Reader α ε γ) (c : Cursor α) :
    (p >>= f) c = (p c >>= fun (b, c') => f b c') := rfl

/-! ## Grammars -/

structure Reads (p : Reader α ε β) (c : Cursor α) (G : β → List α → Prop) : Prop where
  sound : ∀ b c', p c = .ok (b, c') →
    ∃ part, G b part ∧ At c.items c.offset part ∧ c' = c.advance part.length
  complete : c.Inside → ∀ b part, G b part → At c.items c.offset part → p c = .ok (b, c.advance part.length)

/-- The text of two readers, one after the other. -/
def Seq (G : β → List α → Prop) (H : β → List α → γ → List α → Prop) : γ → List α → Prop :=
  fun b text => ∃ a first second, text = first ++ second ∧ G a first ∧ H a first b second

variable {p : Reader α ε β} {c : Cursor α} {G : β → List α → Prop}

theorem Reads.bind {f : β → Reader α ε γ} {H : β → List α → γ → List α → Prop} (h : Reads p c G)
    (hf : ∀ a first, G a first → At c.items c.offset first → Reads (f a) (c.advance first.length) (H a first)) :
    Reads (p >>= f) c (Seq G H) where
  sound b c' hb := by
    rw [bind_at] at hb
    obtain ⟨⟨a, c1⟩, ha, hb⟩ := Exec.bind_ok_iff.mp hb
    obtain ⟨first, hG, hat, rfl⟩ := h.sound a c1 ha
    obtain ⟨second, hH, hat2, rfl⟩ := (hf a first hG hat).sound b c' hb
    refine ⟨first ++ second, ⟨a, first, second, rfl, hG, hH⟩, hat.concat hat2, ?_⟩
    rw [Cursor.advance_advance, List.length_append]
  complete hc b text := by
    rintro ⟨a, first, second, rfl, hG, hH⟩ hat
    have hfirst := h.complete hc a first hG hat.left
    have hsecond := (hf a first hG hat.left).complete (hc.advance hat.left) b second hH hat.right
    rw [bind_at, hfirst, Exec.ok_bind, List.length_append, ← Cursor.advance_advance]
    exact hsecond

theorem Reads.congrAt {G' : β → List α → Prop} (h : Reads p c G)
    (hG : ∀ b text, At c.items c.offset text → (G b text ↔ G' b text)) : Reads p c G' where
  sound b c' hb := by
    obtain ⟨text, hGb, hat, hc'⟩ := h.sound b c' hb
    exact ⟨text, (hG b text hat).mp hGb, hat, hc'⟩
  complete hc b text hGb hat := h.complete hc b text ((hG b text hat).mpr hGb) hat

theorem Reads.congr {G' : β → List α → Prop} (h : Reads p c G) (hG : ∀ b text, G b text ↔ G' b text) :
    Reads p c G' :=
  h.congrAt fun b text _ => hG b text

theorem reads_pure (b : β) : Reads (pure b : Reader α ε β) c (fun b' text => b' = b ∧ text = []) where
  sound b' c' h := by
    cases h
    exact ⟨[], ⟨rfl, rfl⟩, List.nil_prefix, rfl⟩
  complete _ b' text := by
    rintro ⟨rfl, rfl⟩ -
    rfl

theorem reads_fail (e : ε) : Reads (Reader.fail e : Reader α ε β) c (fun _ _ => False) where
  sound _ _ h := by cases h
  complete _ _ _ h := h.elim

theorem Reads.map {f : β → γ} (h : Reads p c G) : Reads (f <$> p) c (fun b text => ∃ a, b = f a ∧ G a text) := by
  refine (h.bind fun a _ _ _ => reads_pure (f a)).congr fun b text => ?_
  constructor
  · rintro ⟨a, first, second, rfl, ha, rfl, rfl⟩
    exact ⟨a, rfl, by rwa [List.append_nil]⟩
  · rintro ⟨a, rfl, ha⟩
    exact ⟨a, text, [], (List.append_nil _).symm, ha, rfl, rfl⟩

/-- `if cond { return Err(e) }`. -/
theorem Reads.unless {cond : Prop} [Decidable cond] (e : ε) (h : ¬ cond → Reads p c G) :
    Reads (if cond then Reader.fail e else p) c (fun b text => ¬ cond ∧ G b text) := by
  split
  next hc => exact (reads_fail e).congr fun b text => ⟨False.elim, fun h => h.1 hc⟩
  next hc => exact (h hc).congr fun b text => ⟨fun h => ⟨hc, h⟩, And.right⟩

/-- A step that reads nothing and has one value. -/
theorem reads_value {q : Reader α ε β} {b : β} (h : q c = .ok (b, c)) :
    Reads q c (fun b' text => b' = b ∧ text = []) where
  sound b' c' h' := by
    rw [h] at h'
    cases h'
    exact ⟨[], ⟨rfl, rfl⟩, List.nil_prefix, rfl⟩
  complete _ b' text := by
    rintro ⟨rfl, rfl⟩ -
    exact h

/-- A step that reads nothing, in front of a reader. -/
theorem Reads.step {q : Reader α ε β} {f : β → Reader α ε γ} {b : β} {H : γ → List α → Prop} (hq : q c = .ok (b, c))
    (h : Reads (f b) c H) : Reads (q >>= f) c H where
  sound r c' hr := by
    rw [bind_at, hq] at hr
    exact h.sound r c' hr
  complete hc r text hH hat := by
    rw [bind_at, hq]
    exact h.complete hc r text hH hat

/-- The values `val s` of the texts `enc s`. -/
def Spelled {σ : Type} (enc : σ → List α) (val : σ → β) : β → List α → Prop :=
  fun b text => ∃ s, text = enc s ∧ b = val s

theorem Reads.bindSpelled {σ : Type} {enc : σ → List α} {val : σ → β} {f : β → Reader α ε γ}
    {H : σ → γ → List α → Prop} (h : Reads p c (Spelled enc val))
    (hf : ∀ s, At c.items c.offset (enc s) → Reads (f (val s)) (c.advance (enc s).length) (H s)) :
    Reads (p >>= f) c (fun r text => ∃ s second, text = enc s ++ second ∧ H s r second) := by
  refine (h.bind (H := fun b first r second => ∃ s, first = enc s ∧ b = val s ∧ H s r second) ?_).congr
    fun r text => ?_
  · rintro b first ⟨s, rfl, rfl⟩ hat
    refine ⟨fun r c' hr => ?_, fun hc r second => ?_⟩
    · obtain ⟨second, hH, hsecond⟩ := (hf s hat).sound r c' hr
      exact ⟨second, ⟨s, rfl, rfl, hH⟩, hsecond⟩
    · rintro ⟨s', he, hv, hH⟩ hat'
      rw [he] at hc hat hat' ⊢
      rw [hv]
      exact (hf s' hat).complete hc r second hH hat'
  · constructor
    · rintro ⟨b, first, second, rfl, -, s, rfl, rfl, hH⟩
      exact ⟨s, second, rfl, hH⟩
    · rintro ⟨s, second, rfl, hH⟩
      exact ⟨val s, enc s, second, rfl, ⟨s, rfl, rfl⟩, s, rfl, rfl, hH⟩

theorem reads_call {x : Exec ε β} {b : β} (h : x = .ok b) :
    Reads (Reader.call x : Reader α ε β) c (fun b' text => b' = b ∧ text = []) :=
  reads_value (by rw [h]; rfl)

/-- The texts of a list of values, one after the other. -/
def Each (G : β → List α → Prop) : List β → List α → Prop
  | [], text => text = []
  | b :: bs, text => ∃ first second, text = first ++ second ∧ G b first ∧ Each G bs second

theorem each_spelled {σ : Type} {enc : σ → List α} {val : σ → β} {bs : List β} {text : List α} :
    Each (Spelled enc val) bs text ↔ ∃ ss : List σ, bs = ss.map val ∧ text = ss.flatMap enc := by
  induction bs generalizing text with
  | nil =>
    constructor
    · rintro rfl
      exact ⟨[], rfl, rfl⟩
    · rintro ⟨ss, hss, rfl⟩
      rw [List.map_eq_nil_iff.mp hss.symm]
      rfl
  | cons b bs ih =>
    constructor
    · rintro ⟨first, second, rfl, ⟨s, rfl, rfl⟩, hbs⟩
      obtain ⟨ss, rfl, rfl⟩ := ih.mp hbs
      exact ⟨s :: ss, rfl, List.flatMap_cons.symm⟩
    · rintro ⟨ss, hss, rfl⟩
      obtain ⟨s, ss, rfl, rfl, rfl⟩ := List.map_eq_cons_iff.mp hss.symm
      exact ⟨enc s, _, List.flatMap_cons, ⟨s, rfl, rfl⟩, ih.mpr ⟨ss, rfl, rfl⟩⟩

theorem each_texts {enc : β → List α} {bs : List β} {text : List α} :
    Each (fun b text => text = enc b) bs text ↔ text = bs.flatMap enc := by
  induction bs generalizing text with
  | nil => exact Iff.rfl
  | cons b bs ih =>
    rw [List.flatMap_cons]
    constructor
    · rintro ⟨first, second, rfl, rfl, hbs⟩
      rw [ih.mp hbs]
    · rintro rfl
      exact ⟨enc b, _, rfl, rfl, ih.mpr rfl⟩

theorem Reads.times {p : Reader α ε β} {G : β → List α → Prop} (h : ∀ c, Reads p c G) (n : Nat) (c : Cursor α) :
    Reads (p.times n) c (fun bs text => bs.length = n ∧ Each G bs text) := by
  induction n generalizing c with
  | zero =>
    refine (reads_pure []).congr fun bs text => ?_
    constructor
    · rintro ⟨rfl, rfl⟩
      exact ⟨rfl, rfl⟩
    · rintro ⟨hlen, htext⟩
      rw [List.length_eq_zero_iff] at hlen
      subst hlen
      exact ⟨rfl, htext⟩
  | succ n ih =>
    refine ((h c).bind fun b first _ _ => (ih _).bind fun bs second _ _ => reads_pure (b :: bs)).congr fun l text => ?_
    constructor
    · rintro ⟨b, first, rest, rfl, hb, bs, second, last, rfl, ⟨hlen, hbs⟩, rfl, rfl⟩
      exact ⟨by rw [List.length_cons, hlen], first, second, by rw [List.append_nil], hb, hbs⟩
    · rintro ⟨hlen, hl⟩
      cases l with
      | nil => cases hlen
      | cons b bs =>
        obtain ⟨first, second, rfl, hb, hbs⟩ := hl
        exact ⟨b, first, second, rfl, hb, bs, second, [], (List.append_nil _).symm, ⟨Nat.succ.inj hlen, hbs⟩, rfl, rfl⟩

/-! ## Texts that are read -/

/-- Wherever `text` stands, the reader returns `b` for it. -/
def Takes (p : Reader α ε β) (b : β) (text : List α) : Prop :=
  ∀ c : Cursor α, c.Inside → At c.items c.offset text → p c = .ok (b, c.advance text.length)

theorem Reads.takes {p : Reader α ε β} {G : β → List α → Prop} (h : ∀ c, Reads p c G) {b : β} {text : List α}
    (hG : G b text) : Takes p b text :=
  fun c hc hat => (h c).complete hc b text hG hat

theorem takes_pure (b : β) : Takes (pure b : Reader α ε β) b [] := fun _ _ _ => rfl

theorem Takes.bind {p : Reader α ε β} {f : β → Reader α ε γ} {a : β} {b : γ} {first second : List α}
    (h : Takes p a first) (hf : Takes (f a) b second) : Takes (p >>= f) b (first ++ second) := by
  intro c hc hat
  rw [bind_at, h c hc hat.left, Exec.ok_bind, List.length_append, ← Cursor.advance_advance]
  exact hf _ (hc.advance hat.left) hat.right

/-- A step that reads nothing, after a reader. -/
theorem Takes.then {p : Reader α ε β} {f : β → Reader α ε γ} {a : β} {b : γ} {text : List α} (h : Takes p a text)
    (hf : f a = pure b) : Takes (p >>= f) b text := by
  have hlast : Takes (f a) b [] := by
    rw [hf]
    exact takes_pure b
  have hall := h.bind hlast
  rwa [List.append_nil] at hall

theorem Takes.map {p : Reader α ε β} {f : β → γ} {a : β} {text : List α} (h : Takes p a text) :
    Takes (f <$> p) (f a) text := by
  have hmap : Takes (p >>= fun a => pure (f a)) (f a) text := h.then rfl
  exact hmap

theorem Takes.times {p : Reader α ε β} {enc : β → List α} {l : List β} (h : ∀ b ∈ l, Takes p b (enc b)) :
    Takes (p.times l.length) l (l.flatMap enc) := by
  induction l with
  | nil => exact takes_pure []
  | cons b l ih =>
    have hrest : Takes (p.times l.length >>= fun bs => pure (b :: bs)) (b :: l) (l.flatMap enc) :=
      (ih fun b' hb' => h b' (List.mem_cons_of_mem _ hb')).then rfl
    rw [List.flatMap_cons]
    exact (h b List.mem_cons_self).bind hrest

/-- From the start. -/
theorem Takes.whole {p : Reader α ε β} {b : β} {text : List α} (h : Takes p b text)
    (rest : List α) (hlen : (text ++ rest).length ≤ usizeMax) :
    p ⟨text ++ rest, 0⟩ = .ok (b, ⟨text ++ rest, text.length⟩) := by
  rw [h ⟨text ++ rest, 0⟩ ⟨Nat.zero_le _, hlen⟩ (List.prefix_append text rest)]
  simp only [Cursor.advance, Nat.zero_add]

end Pillar
