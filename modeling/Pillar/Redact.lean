/-
Redaction of URLs in reported text (`pillar-runtime`, `provider_health/normalize.rs`;
`pillar-config`, `lib.rs`).

The code scans bytes and cuts at byte offsets. What it looks for is ASCII, which
no byte of a longer UTF-8 character is, so the model scans characters.
-/
import Pillar.Text

namespace Pillar.Redact

open Text

/-! ## The code -/

/-- `str::split_once`: what stands before and after the first `sep`. -/
def splitOnce (sep : List Char) : List Char → Option (List Char × List Char)
  | [] => .none
  | c :: rest =>
    if sep.isPrefixOf (c :: rest) then .some ([], (c :: rest).drop sep.length)
    else (splitOnce sep rest).map fun (before, after) => (c :: before, after)

/-- The path and query, and what stands for the fragment. -/
def cutFragment (raw : List Char) : List Char × List Char :=
  match splitOnce ['#'] raw with
  | .some (before, _) => (before, "#<redacted>".toList)
  | .none => (raw, [])

/-- The path, and what stands for the query. -/
def cutQuery (withoutFragment : List Char) : List Char × List Char :=
  match splitOnce ['?'] withoutFragment with
  | .some (path, _) => (path, "?<redacted>".toList)
  | .none => (withoutFragment, [])

def redactPath (path : List Char) : List Char :=
  if path.isEmpty || path = ['/'] then path else "/<redacted>".toList

def redactPathAndQuery (raw : List Char) : List Char :=
  let (withoutFragment, fragment) := cutFragment raw
  let (path, redactedQuery) := cutQuery withoutFragment
  redactPath path ++ redactedQuery ++ fragment

/-- Where an authority ends. -/
def endsAuthority (c : Char) : Bool := c = '/' || c = '?' || c = '#'

/-- `://`. -/
def schemeEnd : List Char := [':', '/', '/']

def redactUrl (raw : List Char) : List Char :=
  match splitOnce schemeEnd raw with
  | .none => "<redacted>".toList
  | .some (scheme, rest) =>
    scheme ++ schemeEnd ++ "<redacted>".toList ++ redactPathAndQuery (rest.dropWhile (!endsAuthority ·))

/-- The test of `find_url_start` at one place. -/
def isUrlStart (chars : List Char) : Bool :=
  (chars.take 4).map lowerChar = ['h', 't', 't', 'p'] &&
    (schemeEnd.isPrefixOf (chars.drop 4) || ((chars.drop 4).take 4).map lowerChar = ['s', ':', '/', '/'])

def findUrlStart : List Char → Option Nat
  | [] => .none
  | c :: rest => if isUrlStart (c :: rest) then .some 0 else (findUrlStart rest).map (· + 1)

/-- What a token goes up to. -/
def isDelimiter (c : Char) : Bool := isWhitespace c || c = '"' || c = '<' || c = '>' || c = '{' || c = '}'

/-- What is not part of a URL at its end; character 39 is the apostrophe. -/
def isTrimmed (c : Char) : Bool :=
  c = ')' || c = Char.ofNat 39 || c = ',' || c = '.' || c = ';' || c = '!' || c = '?'

/-- The URL at the front. -/
def urlOf (tail : List Char) : List Char := (tail.takeWhile (!isDelimiter ·)).rdropWhile isTrimmed

/-! ## URLs -/

/-- `http` or `https`, letters of either case. -/
def IsScheme (scheme : List Char) : Prop :=
  scheme.map lowerChar = ['h', 't', 't', 'p'] ∨ scheme.map lowerChar = ['h', 't', 't', 'p', 's']

/-- A URL starts at the front. -/
def UrlHead (chars : List Char) : Prop := ∃ scheme rest, IsScheme scheme ∧ chars = scheme ++ schemeEnd ++ rest

/-- Only a capital is lowered. -/
theorem lowerChar_eq {c d : Char} (h : lowerChar c = d) (hd : d.toNat < 97) : c = d := by
  unfold lowerChar at h
  split at h
  next hrange =>
    have hnat := congrArg Char.toNat h
    rw [toNat_ofNat_of_le (by omega)] at hnat
    omega
  next => exact h

theorem isUrlStart_iff {chars : List Char} : isUrlStart chars = true ↔ UrlHead chars := by
  unfold isUrlStart
  rw [Bool.and_eq_true, Bool.or_eq_true, decide_eq_true_iff, decide_eq_true_iff, List.isPrefixOf_iff_prefix]
  constructor
  · intro h
    obtain ⟨hhttp, ⟨rest, hrest⟩ | hs⟩ := h
    · refine ⟨chars.take 4, rest, .inl hhttp, ?_⟩
      rw [List.append_assoc, hrest, List.take_append_drop]
    · rw [List.map_eq_cons_iff] at hs
      obtain ⟨s, l, htake, hs, hl⟩ := hs
      rw [List.map_eq_cons_iff] at hl
      obtain ⟨colon, l, rfl, hcolon, hl⟩ := hl
      rw [List.map_eq_cons_iff] at hl
      obtain ⟨slash, l, rfl, hslash, hl⟩ := hl
      rw [List.map_eq_cons_iff] at hl
      obtain ⟨slash', l, rfl, hslash', hl⟩ := hl
      rw [List.map_eq_nil_iff] at hl
      refine ⟨chars.take 4 ++ [s], (chars.drop 4).drop 4, .inr ?_, ?_⟩
      · rw [List.map_append, hhttp, List.map_singleton, hs]
        rfl
      · have hcolon := lowerChar_eq hcolon (by decide)
        have hslash := lowerChar_eq hslash (by decide)
        have hslash' := lowerChar_eq hslash' (by decide)
        rw [hl, hcolon, hslash, hslash'] at htake
        have hdrop : chars.drop 4 = [s, ':', '/', '/'] ++ (chars.drop 4).drop 4 := by
          rw [← htake, List.take_append_drop]
        calc chars = chars.take 4 ++ chars.drop 4 := (List.take_append_drop 4 chars).symm
          _ = chars.take 4 ++ ([s, ':', '/', '/'] ++ (chars.drop 4).drop 4) := by rw [← hdrop]
          _ = chars.take 4 ++ [s] ++ schemeEnd ++ (chars.drop 4).drop 4 := by simp [schemeEnd]
  · intro h
    obtain ⟨scheme, rest, hhttp | hhttps, rfl⟩ := h
    · have hlen : scheme.length = 4 := by simpa using congrArg List.length hhttp
      rw [List.append_assoc, List.take_left' hlen, List.drop_left' hlen]
      exact ⟨hhttp, .inl (List.prefix_append _ _)⟩
    · have hsplit : scheme.map lowerChar = ['h', 't', 't', 'p'] ++ ['s'] := hhttps
      rw [List.map_eq_append_iff] at hsplit
      obtain ⟨http, l, rfl, hhttp, hl⟩ := hsplit
      rw [List.map_eq_singleton_iff] at hl
      obtain ⟨s, rfl, hs⟩ := hl
      have hlen : http.length = 4 := by simpa using congrArg List.length hhttp
      rw [List.append_assoc, List.append_assoc, List.take_left' hlen, List.drop_left' hlen]
      refine ⟨hhttp, .inr ?_⟩
      have htake : ([s] ++ (schemeEnd ++ rest)).take 4 = [s, ':', '/', '/'] := rfl
      rw [htake, List.map_cons, hs]
      decide

/-! ## Tokens -/

/-- The rest of a URL's text: no delimiter in it, and no trimmed character at its end. -/
structure Body (body : List Char) : Prop where
  clean : ∀ c ∈ body, isDelimiter c = false
  untrimmed : body.rdropWhile isTrimmed = body

/-- A token ends here: only trimmed characters stand before the next delimiter. -/
def TokenEnd (rest : List Char) : Prop := ∀ c ∈ (rest.dropWhile isTrimmed).head?, isDelimiter c = true

/-- A character lowered to one of `h`, `t`, `p`, `s` is a letter. -/
theorem letter_facts {c : Char} (h : lowerChar c ∈ ['h', 't', 'p', 's']) :
    isDelimiter c = false ∧ isTrimmed c = false ∧ c ≠ ':' := by
  have hrange : ∀ n < 128, lowerChar (Char.ofNat n) ∈ ['h', 't', 'p', 's'] →
      isDelimiter (Char.ofNat n) = false ∧ isTrimmed (Char.ofNat n) = false ∧ Char.ofNat n ≠ ':' := by
    decide +kernel
  have hsmall : c.toNat < 128 := by
    have hnat : (lowerChar c).toNat < 128 := by
      simp only [List.mem_cons, List.not_mem_nil, or_false] at h
      rcases h with h | h | h | h <;> rw [h] <;> decide
    unfold lowerChar at hnat
    split at hnat
    · omega
    · exact hnat
  have hc := hrange c.toNat hsmall
  rw [Char.ofNat_toNat] at hc
  exact hc h

theorem scheme_char {scheme : List Char} (h : IsScheme scheme) {c : Char} (hc : c ∈ scheme) :
    isDelimiter c = false ∧ isTrimmed c = false ∧ c ≠ ':' := by
  have hmem : lowerChar c ∈ scheme.map lowerChar := List.mem_map_of_mem hc
  refine letter_facts ?_
  rcases h with h | h
  · rw [h] at hmem
    simp only [List.mem_cons, List.not_mem_nil, or_false] at hmem ⊢
    tauto
  · rw [h] at hmem
    simp only [List.mem_cons, List.not_mem_nil, or_false] at hmem ⊢
    tauto

theorem rdropWhile_append {p : Char → Bool} (a : List Char) {b : List Char} (hb : b.rdropWhile p ≠ []) :
    (a ++ b).rdropWhile p = a ++ b.rdropWhile p := by
  rw [List.rdropWhile, List.reverse_append, List.dropWhile_append]
  have hne : (b.reverse.dropWhile p).isEmpty = false := by
    rw [List.isEmpty_eq_false_iff]
    intro h
    exact hb (by rw [List.rdropWhile, h, List.reverse_nil])
  rw [hne, if_neg Bool.false_ne_true, List.reverse_append, List.reverse_reverse]
  rfl

theorem rdropWhile_append_nil {p : Char → Bool} (a : List Char) {b : List Char} (hb : b.rdropWhile p = []) :
    (a ++ b).rdropWhile p = a.rdropWhile p := by
  have hall : ∀ c ∈ b.reverse, p c = true := by
    intro c hc
    exact List.rdropWhile_eq_nil_iff.mp hb c (List.mem_reverse.mp hc)
  rw [List.rdropWhile, List.reverse_append, List.dropWhile_append_of_pos hall]
  rfl

/-- The front of a URL is kept whole. -/
theorem urlOf_head {scheme : List Char} (hscheme : IsScheme scheme) (rest : List Char) :
    urlOf (scheme ++ schemeEnd ++ rest) = scheme ++ schemeEnd ++ urlOf rest := by
  have hclean : ∀ c ∈ scheme ++ schemeEnd, (!isDelimiter c) = true := by
    intro c hc
    rcases List.mem_append.mp hc with hc | hc
    · rw [(scheme_char hscheme hc).1]
      rfl
    · have hall : schemeEnd.all (!isDelimiter ·) = true := by decide
      exact List.all_eq_true.mp hall c hc
  rw [urlOf, List.takeWhile_append_of_pos hclean, urlOf]
  by_cases h : (rest.takeWhile (!isDelimiter ·)).rdropWhile isTrimmed = []
  · -- All of the token after the scheme is trimmed; the scheme ends in a slash.
    have hslash : (scheme ++ [':', '/'] ++ ['/']).rdropWhile isTrimmed = scheme ++ [':', '/'] ++ ['/'] :=
      List.rdropWhile_concat_neg _ _ _ (by decide)
    have hassoc : scheme ++ schemeEnd = scheme ++ [':', '/'] ++ ['/'] := by
      rw [List.append_assoc]
      rfl
    rw [h, List.append_nil, rdropWhile_append_nil _ h, hassoc, hslash]
  · exact rdropWhile_append _ h

theorem urlOf_ne_nil {tail : List Char} (h : UrlHead tail) : urlOf tail ≠ [] := by
  obtain ⟨scheme, rest, hscheme, rfl⟩ := h
  rw [urlOf_head hscheme]
  simp [schemeEnd]

theorem body_urlOf (rest : List Char) : Body (urlOf rest) where
  clean c hc := by
    have hmem := (List.rdropWhile_prefix _ _).subset hc
    simpa using List.mem_takeWhile_imp hmem
  untrimmed := List.rdropWhile_idempotent _ _

theorem urlOf_isStart (rest : List Char) : urlOf rest <+: rest :=
  (List.rdropWhile_prefix _ _).trans (List.takeWhile_prefix _)

theorem not_delimiter_of_trimmed {c : Char} (h : isTrimmed c = true) : isDelimiter c = false := by
  simp only [isTrimmed, Bool.or_eq_true, decide_eq_true_iff] at h
  rcases h with (((((h | h) | h) | h) | h) | h) | h <;> rw [h] <;> decide

theorem takeWhile_eq_nil_of_head {p : Char → Bool} {l : List Char} (h : ∀ c ∈ l.head?, p c = false) :
    l.takeWhile p = [] := by
  cases l with
  | nil => rfl
  | cons c l =>
    have hc : p c = false := h c rfl
    rw [List.takeWhile_cons, hc]
    rfl

theorem dropWhile_eq_self_of_head {p : Char → Bool} {l : List Char} (h : ∀ c ∈ l.head?, p c = false) :
    l.dropWhile p = l := by
  cases l with
  | nil => rfl
  | cons c l =>
    have hc : p c = false := h c rfl
    rw [List.dropWhile_cons, hc]
    rfl

/-- The token of a URL's body goes up to the delimiter. -/
theorem urlOf_append {body rest : List Char} (hbody : Body body) (hend : TokenEnd rest) :
    urlOf (body ++ rest) = body := by
  have hclean : ∀ c ∈ body, (!isDelimiter c) = true := fun c hc => by rw [hbody.clean c hc]; rfl
  have htrimmed : ∀ c ∈ rest.takeWhile isTrimmed, (!isDelimiter c) = true := by
    intro c hc
    rw [not_delimiter_of_trimmed (List.mem_takeWhile_imp hc)]
    rfl
  have hstop : (rest.dropWhile isTrimmed).takeWhile (!isDelimiter ·) = [] := by
    refine takeWhile_eq_nil_of_head fun c hc => ?_
    rw [hend c hc]
    rfl
  have htail : rest.takeWhile (!isDelimiter ·) = rest.takeWhile isTrimmed := by
    calc rest.takeWhile (!isDelimiter ·)
        = (rest.takeWhile isTrimmed ++ rest.dropWhile isTrimmed).takeWhile (!isDelimiter ·) := by
          rw [List.takeWhile_append_dropWhile]
      _ = rest.takeWhile isTrimmed := by rw [List.takeWhile_append_of_pos htrimmed, hstop, List.append_nil]
  have hnil : (rest.takeWhile isTrimmed).rdropWhile isTrimmed = [] :=
    List.rdropWhile_eq_nil_iff.mpr fun c hc => List.mem_takeWhile_imp hc
  rw [urlOf, List.takeWhile_append_of_pos hclean, htail, rdropWhile_append_nil _ hnil, hbody.untrimmed]

/-- What follows a token's URL. -/
theorem exists_tokenEnd (chars : List Char) : ∃ rest, chars = urlOf chars ++ rest ∧ TokenEnd rest := by
  refine ⟨(chars.takeWhile (!isDelimiter ·)).rtakeWhile isTrimmed ++ chars.dropWhile (!isDelimiter ·), ?_, ?_⟩
  · rw [urlOf, ← List.append_assoc, List.rdropWhile_append_rtakeWhile, List.takeWhile_append_dropWhile]
  · intro c hc
    have htrimmed : ∀ d ∈ (chars.takeWhile (!isDelimiter ·)).rtakeWhile isTrimmed, isTrimmed d = true :=
      fun d hd => List.mem_rtakeWhile_imp hd
    rw [List.dropWhile_append_of_pos htrimmed] at hc
    cases hdrop : chars.dropWhile (!isDelimiter ·) with
    | nil =>
      rw [hdrop] at hc
      cases hc
    | cons d l =>
      have hd : isDelimiter d = true := by
        have hhead := List.head?_dropWhile_not (fun c => !isDelimiter c) chars
        rw [hdrop] at hhead
        simpa using hhead
      have hkeep : isTrimmed d = false := by
        cases h : isTrimmed d with
        | false => rfl
        | true =>
          rw [not_delimiter_of_trimmed h] at hd
          cases hd
      rw [hdrop, List.dropWhile_cons_of_neg (by rw [hkeep]; exact Bool.false_ne_true)] at hc
      cases hc
      exact hd

/-! ## The scan -/

/-- No URL starts before `tail`. -/
def NoneBefore (before tail : List Char) : Prop := ∀ l s, before = l ++ s → s ≠ [] → ¬ UrlHead (s ++ tail)

theorem noneBefore_cons {c : Char} {before tail : List Char} :
    NoneBefore (c :: before) tail ↔ ¬ UrlHead (c :: before ++ tail) ∧ NoneBefore before tail := by
  constructor
  · intro h
    refine ⟨h [] (c :: before) rfl (List.cons_ne_nil _ _), fun l s hs hne => ?_⟩
    exact h (c :: l) s (by rw [hs, List.cons_append]) hne
  · intro h l s hs hne
    cases l with
    | nil =>
      rw [List.nil_append] at hs
      rw [← hs]
      exact h.1
    | cons d l =>
      rw [List.cons_append] at hs
      exact h.2 l s (List.cons.inj hs).2 hne

/-- **The first URL.** -/
theorem findUrlStart_append {before tail : List Char} (hhead : UrlHead tail) (hnone : NoneBefore before tail) :
    findUrlStart (before ++ tail) = .some before.length := by
  induction before with
  | nil =>
    cases tail with
    | nil =>
      obtain ⟨scheme, rest, -, h⟩ := hhead
      exact absurd h.symm (by simp [schemeEnd])
    | cons c tail => exact if_pos (isUrlStart_iff.mpr hhead)
  | cons c before ih =>
    rw [noneBefore_cons] at hnone
    have hnot : ¬ isUrlStart (c :: (before ++ tail)) = true := fun h => hnone.1 (isUrlStart_iff.mp h)
    rw [List.cons_append, findUrlStart, if_neg hnot, ih hnone.2]
    rfl

theorem findUrlStart_none {chars : List Char} (h : NoneBefore chars []) : findUrlStart chars = .none := by
  induction chars with
  | nil => rfl
  | cons c chars ih =>
    rw [noneBefore_cons, List.append_nil] at h
    have hnot : ¬ isUrlStart (c :: chars) = true := fun hstart => h.1 (isUrlStart_iff.mp hstart)
    rw [findUrlStart, if_neg hnot, ih h.2]
    rfl

/-- A text has no URL, or a first. -/
theorem findUrlStart_cases (chars : List Char) :
    (findUrlStart chars = .none ∧ NoneBefore chars []) ∨
      ∃ before tail, chars = before ++ tail ∧ findUrlStart chars = .some before.length ∧ UrlHead tail ∧
        NoneBefore before tail := by
  induction chars with
  | nil =>
    refine .inl ⟨rfl, fun l s hs hne => ?_⟩
    exact absurd (List.append_eq_nil_iff.mp hs.symm).2 hne
  | cons c chars ih =>
    by_cases hhead : UrlHead (c :: chars)
    · refine .inr ⟨[], c :: chars, rfl, if_pos (isUrlStart_iff.mpr hhead), hhead, fun l s hs hne => ?_⟩
      exact absurd (List.append_eq_nil_iff.mp hs.symm).2 hne
    · have hnot : ¬ isUrlStart (c :: chars) = true := fun hstart => hhead (isUrlStart_iff.mp hstart)
      rcases ih with ⟨hfind, hnone⟩ | ⟨before, tail, rfl, hfind, htail, hnone⟩
      · refine .inl ⟨by rw [findUrlStart, if_neg hnot, hfind]; rfl, noneBefore_cons.mpr ⟨?_, hnone⟩⟩
        rwa [List.append_nil]
      · exact .inr ⟨c :: before, tail, rfl, by rw [findUrlStart, if_neg hnot, hfind]; rfl, htail,
          noneBefore_cons.mpr ⟨hhead, hnone⟩⟩

theorem length_afterUrl {chars : List Char} {start : Nat} (h : findUrlStart chars = .some start) :
    ((chars.drop start).drop (urlOf (chars.drop start)).length).length < chars.length := by
  rcases findUrlStart_cases chars with ⟨hnone, -⟩ | ⟨before, tail, rfl, hfind, hhead, -⟩
  · rw [hnone] at h
    cases h
  · rw [hfind] at h
    cases h
    have hpos := List.length_pos_of_ne_nil (urlOf_ne_nil hhead)
    have hle := (urlOf_isStart tail).length_le
    rw [List.drop_left, List.length_drop, List.length_append]
    omega

/-- `while let Some(start) = find_url_start(remaining)`. -/
def redactChars (remaining : List Char) : List Char :=
  match _h : findUrlStart remaining with
  | .none => remaining
  | .some start =>
    let urlTail := remaining.drop start
    remaining.take start ++ redactUrl (urlOf urlTail) ++ redactChars (urlTail.drop (urlOf urlTail).length)
termination_by remaining.length
decreasing_by exact length_afterUrl _h

def redactUrlsInText (input : String) : String := String.ofList (redactChars input.toList)

theorem redactChars_none {chars : List Char} (h : NoneBefore chars []) : redactChars chars = chars := by
  rw [redactChars]
  split
  next => rfl
  next start hstart =>
    rw [findUrlStart_none h] at hstart
    cases hstart

/-- One turn of the loop. -/
theorem redactChars_url {before url rest : List Char} (hhead : UrlHead (url ++ rest)) (hurl : urlOf (url ++ rest) = url)
    (hnone : NoneBefore before (url ++ rest)) :
    redactChars (before ++ (url ++ rest)) = before ++ redactUrl url ++ redactChars rest := by
  have hfind := findUrlStart_append hhead hnone
  rw [redactChars]
  split
  next h =>
    rw [hfind] at h
    cases h
  next start h =>
    rw [hfind] at h
    cases h
    dsimp only
    rw [List.drop_left, List.take_left, hurl, List.drop_left]

/-! ## The parts of a URL -/

/-- The parts of a URL after its scheme, each without the characters that end it. -/
structure Parts where
  authority : List Char
  path : List Char
  query : Option (List Char)
  fragment : Option (List Char)
  authority_ok : ∀ c ∈ authority, endsAuthority c = false
  path_start : path = [] ∨ ∃ rest, path = '/' :: rest
  path_ok : '?' ∉ path ∧ '#' ∉ path
  query_ok : ∀ q, query = .some q → '#' ∉ q

/-- A part that may be missing, after the character that starts it. -/
def marked (c : Char) : Option (List Char) → List Char
  | .some part => c :: part
  | .none => []

def Parts.text (parts : Parts) : List Char :=
  parts.authority ++ (parts.path ++ marked '?' parts.query ++ marked '#' parts.fragment)

/-- What is left of them. -/
def Parts.markers (parts : Parts) : List Char :=
  redactPath parts.path ++ marked '?' (parts.query.map fun _ => "<redacted>".toList) ++
    marked '#' (parts.fragment.map fun _ => "<redacted>".toList)

/-- A separator is found where its first character first stands, if it stands there. -/
theorem splitOnce_append {c : Char} {sep l : List Char} (h : c ∉ l) (rest : List Char) :
    splitOnce (c :: sep) (l ++ (c :: sep) ++ rest) = .some (l, rest) := by
  induction l with
  | nil =>
    have hprefix : (c :: sep).isPrefixOf (c :: (sep ++ rest)) = true :=
      List.isPrefixOf_iff_prefix.mpr (List.prefix_append (c :: sep) rest)
    rw [List.nil_append, List.cons_append, splitOnce, if_pos hprefix, ← List.cons_append, List.drop_left]
  | cons d l ih =>
    obtain ⟨hd, hl⟩ := not_or.mp fun hmem => h (List.mem_cons.mpr hmem)
    have hprefix : ¬ (c :: sep).isPrefixOf (d :: (l ++ (c :: sep) ++ rest)) = true := by
      rw [List.isPrefixOf_iff_prefix, List.cons_prefix_cons]
      exact fun h => hd h.1
    rw [List.cons_append, List.cons_append, splitOnce, if_neg hprefix, ih hl]
    rfl

theorem splitOnce_none {c : Char} {sep l : List Char} (h : c ∉ l) : splitOnce (c :: sep) l = .none := by
  induction l with
  | nil => rfl
  | cons d l ih =>
    obtain ⟨hd, hl⟩ := not_or.mp fun hmem => h (List.mem_cons.mpr hmem)
    have hprefix : ¬ (c :: sep).isPrefixOf (d :: l) = true := by
      rw [List.isPrefixOf_iff_prefix, List.cons_prefix_cons]
      exact fun h => hd h.1
    rw [splitOnce, if_neg hprefix, ih hl]
    rfl

/-- A part, cut off where its mark first stands. -/
theorem splitOnce_marked {c : Char} {l : List Char} (h : c ∉ l) (part : Option (List Char)) :
    splitOnce [c] (l ++ marked c part) = part.map fun part => (l, part) := by
  cases part with
  | none => rw [marked, List.append_nil, splitOnce_none h, Option.map_none]
  | some part =>
    have hshape : l ++ marked c (.some part) = l ++ [c] ++ part := by simp [marked]
    rw [hshape, splitOnce_append h, Option.map_some]

theorem redactPathAndQuery_parts (parts : Parts) :
    redactPathAndQuery (parts.path ++ marked '?' parts.query ++ marked '#' parts.fragment) = parts.markers := by
  have hclean : '#' ∉ parts.path ++ marked '?' parts.query := by
    rw [List.mem_append, not_or]
    refine ⟨parts.path_ok.2, fun hmem => ?_⟩
    cases hquery : parts.query with
    | none =>
      rw [hquery] at hmem
      cases hmem
    | some q =>
      rw [hquery] at hmem
      rcases List.mem_cons.mp hmem with h | h
      · exact absurd h (by decide)
      · exact parts.query_ok q hquery h
  have hfragment : cutFragment (parts.path ++ marked '?' parts.query ++ marked '#' parts.fragment) =
      (parts.path ++ marked '?' parts.query, marked '#' (parts.fragment.map fun _ => "<redacted>".toList)) := by
    rw [cutFragment, splitOnce_marked hclean]
    cases parts.fragment with
    | none => simp [marked]
    | some f => rfl
  have hquery : cutQuery (parts.path ++ marked '?' parts.query) =
      (parts.path, marked '?' (parts.query.map fun _ => "<redacted>".toList)) := by
    rw [cutQuery, splitOnce_marked parts.path_ok.1]
    cases parts.query with
    | none => simp [marked]
    | some q => rfl
  rw [redactPathAndQuery, hfragment]
  dsimp only
  rw [hquery]
  rfl

/-- What follows the authority starts with the character that ends it. -/
theorem Parts.suffix_head (parts : Parts) {c : Char}
    (h : c ∈ (parts.path ++ marked '?' parts.query ++ marked '#' parts.fragment).head?) : endsAuthority c = true := by
  rcases parts.path_start with hpath | ⟨rest, hpath⟩
  · cases hquery : parts.query with
    | some q =>
      rw [hpath, hquery] at h
      cases h
      decide
    | none =>
      cases hfragment : parts.fragment with
      | none =>
        rw [hpath, hquery, hfragment] at h
        cases h
      | some f =>
        rw [hpath, hquery, hfragment] at h
        cases h
        decide
  · rw [hpath] at h
    cases h
    decide

theorem redactUrl_parts {scheme : List Char} (hscheme : IsScheme scheme) (parts : Parts) :
    redactUrl (scheme ++ schemeEnd ++ parts.text) =
      scheme ++ schemeEnd ++ "<redacted>".toList ++ parts.markers := by
  have hcolon : ':' ∉ scheme := fun h => (scheme_char hscheme h).2.2 rfl
  have hauthority : ∀ c ∈ parts.authority, (!endsAuthority c) = true := fun c hc => by
    rw [parts.authority_ok c hc]
    rfl
  have hsuffix : parts.text.dropWhile (!endsAuthority ·) =
      parts.path ++ marked '?' parts.query ++ marked '#' parts.fragment := by
    rw [Parts.text, List.dropWhile_append_of_pos hauthority]
    refine dropWhile_eq_self_of_head fun c hc => ?_
    rw [parts.suffix_head hc]
    rfl
  rw [redactUrl, schemeEnd, splitOnce_append hcolon]
  dsimp only
  rw [hsuffix, redactPathAndQuery_parts]

theorem exists_marked (c : Char) (l : List Char) : ∃ before part, l = before ++ marked c part ∧ c ∉ before := by
  by_cases h : c ∈ l
  · obtain ⟨before, part, hl, hbefore⟩ := List.eq_append_cons_of_mem h
    exact ⟨before, .some part, hl, hbefore⟩
  · exact ⟨l, .none, (List.append_nil l).symm, h⟩

/-- Every text after a scheme has these parts. -/
theorem exists_parts (body : List Char) : ∃ parts : Parts, parts.text = body := by
  have hauthority : ∀ c ∈ body.takeWhile (!endsAuthority ·), endsAuthority c = false := fun c hc => by
    simpa using List.mem_takeWhile_imp hc
  obtain ⟨before, fragment, hfragment, hbefore⟩ := exists_marked '#' (body.dropWhile (!endsAuthority ·))
  obtain ⟨path, query, hquery, hpath⟩ := exists_marked '?' before
  have hclean : '#' ∉ path ∧ '#' ∉ marked '?' query := by
    rwa [hquery, List.mem_append, not_or] at hbefore
  have hstart : path = [] ∨ ∃ rest, path = '/' :: rest := by
    cases path with
    | nil => exact .inl rfl
    | cons c rest =>
      refine .inr ⟨rest, ?_⟩
      have hends : endsAuthority c = true := by
        have hhead := List.head?_dropWhile_not (fun c => !endsAuthority c) body
        rw [hfragment, hquery] at hhead
        simpa using hhead
      have hquestion : c ≠ '?' := fun h => hpath (h ▸ List.mem_cons_self)
      have hhash : c ≠ '#' := fun h => hclean.1 (h ▸ List.mem_cons_self)
      simp only [endsAuthority, Bool.or_eq_true, decide_eq_true_iff] at hends
      rw [(hends.resolve_right hhash).resolve_right hquestion]
  refine ⟨{ authority := body.takeWhile (!endsAuthority ·), path, query, fragment, authority_ok := hauthority,
            path_start := hstart, path_ok := ⟨hpath, hclean.1⟩, query_ok := ?_ }, ?_⟩
  · rintro q rfl hq
    exact hclean.2 (List.mem_cons_of_mem _ hq)
  · rw [Parts.text, ← hquery, ← hfragment, List.takeWhile_append_dropWhile]

/-! ## What is redacted -/

/-- **The redacted text of a text**: each URL token, from the first on, with what
follows its scheme replaced by markers. -/
inductive Redacts : List Char → List Char → Prop
  | plain {chars : List Char} : NoneBefore chars [] → Redacts chars chars
  | url {before scheme rest out : List Char} (parts : Parts) : IsScheme scheme → Body parts.text → TokenEnd rest →
      NoneBefore before (scheme ++ schemeEnd ++ parts.text ++ rest) → Redacts rest out →
      Redacts (before ++ (scheme ++ schemeEnd ++ parts.text ++ rest))
        (before ++ (scheme ++ schemeEnd ++ "<redacted>".toList ++ parts.markers) ++ out)

theorem urlOf_parts {scheme rest : List Char} {parts : Parts} (hscheme : IsScheme scheme) (hbody : Body parts.text)
    (hend : TokenEnd rest) :
    urlOf (scheme ++ schemeEnd ++ parts.text ++ rest) = scheme ++ schemeEnd ++ parts.text := by
  rw [List.append_assoc, urlOf_head hscheme, urlOf_append hbody hend]

theorem redactChars_of_redacts {chars out : List Char} (h : Redacts chars out) : redactChars chars = out := by
  induction h with
  | plain hnone => exact redactChars_none hnone
  | @url before scheme rest out parts hscheme hbody hend hnone _ ih =>
    have hhead : UrlHead (scheme ++ schemeEnd ++ parts.text ++ rest) :=
      ⟨scheme, parts.text ++ rest, hscheme, List.append_assoc _ _ _⟩
    rw [redactChars_url hhead (urlOf_parts hscheme hbody hend) hnone, redactUrl_parts hscheme, ih]

theorem redacts_redactChars (chars : List Char) : Redacts chars (redactChars chars) := by
  induction hlen : chars.length using Nat.strong_induction_on generalizing chars with
  | _ n ih =>
    rcases findUrlStart_cases chars with ⟨-, hnone⟩ | ⟨before, tail, rfl, -, ⟨scheme, body, hscheme, rfl⟩, hnone⟩
    · rw [redactChars_none hnone]
      exact .plain hnone
    · obtain ⟨rest, hrest, hend⟩ := exists_tokenEnd body
      obtain ⟨parts, hparts⟩ := exists_parts (urlOf body)
      have hbody : Body parts.text := hparts ▸ body_urlOf body
      have htail : scheme ++ schemeEnd ++ body = scheme ++ schemeEnd ++ parts.text ++ rest := by
        rw [List.append_assoc (scheme ++ schemeEnd), hparts, ← hrest]
      have hhead : UrlHead (scheme ++ schemeEnd ++ parts.text ++ rest) :=
        ⟨scheme, parts.text ++ rest, hscheme, List.append_assoc _ _ _⟩
      rw [htail] at hnone hlen ⊢
      rw [redactChars_url hhead (urlOf_parts hscheme hbody hend) hnone, redactUrl_parts hscheme]
      refine .url parts hscheme hbody hend hnone (ih rest.length ?_ rest rfl)
      simp only [List.length_append, schemeEnd, List.length_cons] at hlen
      omega

/-! ## What leaks -/

/-- The parts are there or not alike, and so is a bare path. -/
structure Parts.SameShape (parts parts' : Parts) : Prop where
  path : parts.path = [] ↔ parts'.path = []
  bare : parts.path = ['/'] ↔ parts'.path = ['/']
  query : parts.query.isSome = parts'.query.isSome
  fragment : parts.fragment.isSome = parts'.fragment.isSome

/-- Two texts that differ only in what follows the schemes of their URL tokens. -/
inductive SameButUrls : List Char → List Char → Prop
  | plain {chars : List Char} : NoneBefore chars [] → SameButUrls chars chars
  | url {before scheme rest rest' : List Char} (parts parts' : Parts) : IsScheme scheme → Body parts.text →
      Body parts'.text → TokenEnd rest → NoneBefore before (scheme ++ schemeEnd ++ parts.text ++ rest) →
      parts.SameShape parts' → SameButUrls rest rest' →
      SameButUrls (before ++ (scheme ++ schemeEnd ++ parts.text ++ rest))
        (before ++ (scheme ++ schemeEnd ++ parts'.text ++ rest'))

theorem Parts.SameShape.markers_eq {parts parts' : Parts} (h : parts.SameShape parts') :
    parts.markers = parts'.markers := by
  have hpath : redactPath parts.path = redactPath parts'.path := by
    unfold redactPath
    by_cases hnil : parts.path = []
    · rw [hnil, h.path.mp hnil]
    · by_cases hbare : parts.path = ['/']
      · rw [hbare, h.bare.mp hbare]
      · have hnil' : parts'.path ≠ [] := fun e => hnil (h.path.mpr e)
        have hbare' : parts'.path ≠ ['/'] := fun e => hbare (h.bare.mpr e)
        simp [hnil, hbare, hnil', hbare']
  have hmark : ∀ {part part' : Option (List Char)}, part.isSome = part'.isSome →
      part.map (fun _ => "<redacted>".toList) = part'.map fun _ => "<redacted>".toList := by
    intro part part' hsome
    cases part <;> cases part' <;> simp_all
  rw [Parts.markers, Parts.markers, hpath, hmark h.query, hmark h.fragment]

/-- Whether a URL starts is told by eight characters. -/
theorem isUrlStart_take (chars : List Char) : isUrlStart (chars.take 8) = isUrlStart chars := by
  have hprefix : schemeEnd.isPrefixOf ((chars.drop 4).take 4) = schemeEnd.isPrefixOf (chars.drop 4) := by
    rw [Bool.eq_iff_iff, List.isPrefixOf_iff_prefix, List.isPrefixOf_iff_prefix, List.prefix_take_iff]
    exact and_iff_left (by decide)
  have hdrop : (chars.take 8).drop 4 = (chars.drop 4).take 4 := List.drop_take
  have htake : (chars.take 8).take 4 = chars.take 4 := by rw [List.take_take]; rfl
  rw [isUrlStart, isUrlStart, htake, hdrop, hprefix, List.take_take, Nat.min_self]

/-- What follows a scheme does not tell whether a URL starts before it. -/
theorem noneBefore_congr {before front tail tail' : List Char} (hfront : 7 ≤ front.length)
    (h : NoneBefore before (front ++ tail)) : NoneBefore before (front ++ tail') := by
  intro l s hs hne hhead
  refine h l s hs hne ?_
  have hlen : 8 ≤ (s ++ front).length := by
    have := List.length_pos_of_ne_nil hne
    rw [List.length_append]
    omega
  rw [← isUrlStart_iff, ← isUrlStart_take, ← List.append_assoc, List.take_append_of_le_length hlen] at hhead ⊢
  exact hhead

theorem length_scheme {scheme : List Char} (h : IsScheme scheme) : 7 ≤ (scheme ++ schemeEnd).length := by
  rw [List.length_append, schemeEnd]
  rcases h with h | h
  · have hlen : scheme.length = 4 := by simpa using congrArg List.length h
    rw [hlen]
    decide
  · have hlen : scheme.length = 5 := by simpa using congrArg List.length h
    rw [hlen]
    decide

/-- The trimmed characters at the front, and the delimiter after them, stand before the next URL. -/
theorem tokenEnd_of_same {rest rest' : List Char} (h : SameButUrls rest rest') (hend : TokenEnd rest) :
    TokenEnd rest' := by
  cases h with
  | plain _ => exact hend
  | @url before scheme more more' parts parts' hscheme _ _ _ _ _ _ =>
    unfold TokenEnd at hend ⊢
    rw [List.dropWhile_append] at hend ⊢
    cases hdrop : before.dropWhile isTrimmed with
    | cons c l =>
      rw [hdrop] at hend
      exact hend
    | nil =>
      -- A scheme's first letter would be where the token ends.
      exfalso
      obtain ⟨c, scheme', rfl⟩ : ∃ c scheme', scheme = c :: scheme' := by
        cases scheme with
        | nil => rcases hscheme with h | h <;> cases h
        | cons c scheme' => exact ⟨c, scheme', rfl⟩
      obtain ⟨hdelimiter, htrimmed, -⟩ := scheme_char hscheme List.mem_cons_self
      rw [hdrop, List.isEmpty_nil, if_pos rfl] at hend
      simp only [List.cons_append] at hend
      rw [List.dropWhile_cons_of_neg (by rw [htrimmed]; exact Bool.false_ne_true)] at hend
      have hc := hend c rfl
      rw [hdelimiter] at hc
      cases hc

theorem redactChars_of_same {chars chars' : List Char} (h : SameButUrls chars chars') :
    redactChars chars = redactChars chars' := by
  induction h with
  | plain _ => rfl
  | @url before scheme rest rest' parts parts' hscheme hbody hbody' hend hnone hshape hrest ih =>
    have hend' := tokenEnd_of_same hrest hend
    have hnone' : NoneBefore before (scheme ++ schemeEnd ++ parts'.text ++ rest') := by
      rw [List.append_assoc] at hnone ⊢
      exact noneBefore_congr (length_scheme hscheme) hnone
    have hhead : ∀ tail, UrlHead (scheme ++ schemeEnd ++ tail) := fun tail => ⟨scheme, tail, hscheme, rfl⟩
    have hhead₁ : UrlHead (scheme ++ schemeEnd ++ parts.text ++ rest) := List.append_assoc _ parts.text rest ▸ hhead _
    have hhead₂ : UrlHead (scheme ++ schemeEnd ++ parts'.text ++ rest') :=
      List.append_assoc _ parts'.text rest' ▸ hhead _
    rw [redactChars_url hhead₁ (urlOf_parts hscheme hbody hend) hnone,
      redactChars_url hhead₂ (urlOf_parts hscheme hbody' hend') hnone', redactUrl_parts hscheme,
      redactUrl_parts hscheme,
      hshape.markers_eq, ih]

theorem noneBefore_of_find {before tail : List Char} (h : findUrlStart (before ++ tail) = .some before.length) :
    NoneBefore before tail := by
  rcases findUrlStart_cases (before ++ tail) with ⟨hnone, -⟩ | ⟨before', tail', happend, hfind, -, hnone⟩
  · rw [hnone] at h
    cases h
  · rw [hfind, Option.some.injEq] at h
    obtain ⟨rfl, rfl⟩ := List.append_inj happend h.symm
    exact hnone

theorem noneBefore_of_find_none {chars : List Char} (h : findUrlStart chars = .none) : NoneBefore chars [] := by
  rcases findUrlStart_cases chars with ⟨-, hnone⟩ | ⟨before, tail, -, hfind, -⟩
  · exact hnone
  · rw [hfind] at h
    cases h

/-- **Redaction leaks nothing of a URL but its scheme and its shape.** The output is
the redacted text of the input and nothing else, and texts that differ only in
what follows the schemes of their URL tokens have one output. -/
theorem redactUrlsInText_leaks_nothing :
    (∀ (input : String) (out : List Char),
      redactUrlsInText input = String.ofList out ↔ Redacts input.toList out) ∧
    ∀ input input' : String, SameButUrls input.toList input'.toList →
      redactUrlsInText input = redactUrlsInText input' := by
  constructor
  · intro input out
    rw [redactUrlsInText, String.ofList_inj]
    constructor
    · intro h
      exact h ▸ redacts_redactChars input.toList
    · exact redactChars_of_redacts
  · intro input input' h
    rw [redactUrlsInText, redactUrlsInText, redactChars_of_same h]

/-- An authority, a path and a query. -/
def sampleParts (authority path query : List Char) (hauthority : authority.all (!endsAuthority ·) = true)
    (hpath : path.all (fun c => c ≠ '?' && c ≠ '#') = true) (hquery : query.all (· ≠ '#') = true) : Parts where
  authority
  path := '/' :: path
  query := .some query
  fragment := .none
  authority_ok c hc := by simpa using List.all_eq_true.mp hauthority c hc
  path_start := .inr ⟨path, rfl⟩
  path_ok := by
    constructor
    · intro h
      rcases List.mem_cons.mp h with h | h
      · exact absurd h (by decide)
      · exact absurd (List.all_eq_true.mp hpath _ h) (by decide)
    · intro h
      rcases List.mem_cons.mp h with h | h
      · exact absurd h (by decide)
      · exact absurd (List.all_eq_true.mp hpath _ h) (by decide)
  query_ok q hq hmem := by
    cases hq
    exact absurd (List.all_eq_true.mp hquery _ hmem) (by decide)

theorem body_of_check {body : List Char} (hclean : body.all (!isDelimiter ·) = true)
    (huntrimmed : body.rdropWhile isTrimmed = body) : Body body where
  clean c hc := by simpa using List.all_eq_true.mp hclean c hc
  untrimmed := huntrimmed

theorem redactUrlsInText_other_secret :
    redactUrlsInText "GET https://u:a@h/p?k=1 failed" = redactUrlsInText "GET https://v:b@h/q?k=2 failed" := by
  refine redactUrlsInText_leaks_nothing.2 _ _ ?_
  let parts := sampleParts ['u', ':', 'a', '@', 'h'] ['p'] ['k', '=', '1'] (by decide) (by decide) (by decide)
  let parts' := sampleParts ['v', ':', 'b', '@', 'h'] ['q'] ['k', '=', '2'] (by decide) (by decide) (by decide)
  have hscheme : IsScheme ['h', 't', 't', 'p', 's'] := .inr (by decide)
  have hrest : SameButUrls " failed".toList " failed".toList := .plain (noneBefore_of_find_none (by decide +kernel))
  have hend : TokenEnd " failed".toList := by
    intro c hc
    cases hc
    decide
  have hnone : NoneBefore "GET ".toList (['h', 't', 't', 'p', 's'] ++ schemeEnd ++ parts.text ++ " failed".toList) :=
    noneBefore_of_find (by decide +kernel)
  have hshape : parts.SameShape parts' := ⟨by decide, by decide, rfl, rfl⟩
  exact .url parts parts' hscheme (body_of_check (by decide) (by decide)) (body_of_check (by decide) (by decide)) hend
    hnone hshape hrest

end Pillar.Redact
