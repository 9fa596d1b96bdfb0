/-
Paths of special URLs as the URL standard reads them: segments end at either
slash, dot segments in any spelling are taken away, and a query or a fragment
ends the path.

What percent-encoding does to the other characters is left out; it makes no dot
and no slash.
-/
import Mathlib

namespace Pillar.UrlPath

/-! ## Segments -/

/-- `.`, or with it percent-encoded. -/
def isSingleDot (segment : List Char) : Bool :=
  segment.map Char.toLower ∈ [".".toList, "%2e".toList]

def isDoubleDot (segment : List Char) : Bool :=
  segment.map Char.toLower ∈ ["..".toList, ".%2e".toList, "%2e.".toList, "%2e%2e".toList]

/-- The path with a segment that has ended, by a slash or not. -/
def close (slash : Bool) (path : List (List Char)) (segment : List Char) : List (List Char) :=
  if isDoubleDot segment then path.dropLast ++ (if slash then [] else [[]])
  else if isSingleDot segment then path ++ (if slash then [] else [[]])
  else path ++ [segment]

/-! ## The parser -/

/-- The segments that have ended, the one being read, and what follows the path. -/
structure State where
  path : List (List Char) := []
  segment : List Char := []
  query : Option (List Char) := .none
  fragment : Option (List Char) := .none

def State.step (s : State) (c : Char) : State :=
  match s.fragment, s.query with
  | .some fragment, _ => { s with fragment := .some (fragment ++ [c]) }
  | .none, .some query =>
    if c = '#' then { s with fragment := .some [] } else { s with query := .some (query ++ [c]) }
  | .none, .none =>
    if c = '/' ∨ c = '\\' then { s with path := close true s.path s.segment, segment := [] }
    else if c = '?' then { s with path := close false s.path s.segment, segment := [], query := .some [] }
    else if c = '#' then { s with path := close false s.path s.segment, segment := [], fragment := .some [] }
    else { s with segment := s.segment ++ [c] }

def State.run (s : State) (text : List Char) : State := text.foldl State.step s

/-- A URL's path, query and fragment. -/
structure Url where
  path : List (List Char)
  query : Option (List Char)
  fragment : Option (List Char)

/-- Whether the path has not ended. -/
def State.InPath (s : State) : Prop := s.query = .none ∧ s.fragment = .none

instance (s : State) : Decidable s.InPath := inferInstanceAs (Decidable (_ ∧ _))

def State.finish (s : State) : Url where
  path := if s.InPath then close false s.path s.segment else s.path
  query := s.query
  fragment := s.fragment

/-- The ends of an authority. -/
def enders : List Char := ['/', '\\', '?', '#']

/-- What stands behind `://` and the authority. -/
def behindAuthority : List Char → Option (List Char)
  | [] => .none
  | c :: rest =>
    if "://".toList <+: c :: rest then .some ((rest.drop 2).dropWhile (· ∉ enders)) else behindAuthority rest

/-- The first slash only opens the path. -/
def skipSlash : List Char → List Char
  | [] => []
  | c :: rest => if c = '/' ∨ c = '\\' then rest else c :: rest

/-- Tabs and newlines are taken out first. -/
def cleaned (text : List Char) : List Char := text.filter (· ∉ ['\t', '\n', '\r'])

/-- The path of a URL, with what follows it. -/
def pathText (url : List Char) : List Char :=
  skipSlash ((behindAuthority (cleaned url)).getD (cleaned url))

/-- The parser behind a text. -/
def State.behind (url : List Char) : State := State.run {} (pathText url)

def parse (url : List Char) : Url := (State.behind url).finish

/-! ## One segment more -/

variable {s : State} {segment text : List Char}

/-- Characters of which none ends a segment. -/
def Plain (text : List Char) : Prop := ∀ c ∈ text, c ∉ enders

/-- A segment that stays where it is put. -/
structure Stays (segment : List Char) : Prop where
  plain : Plain segment
  single : isSingleDot segment = false
  double : isDoubleDot segment = false

theorem close_of_stays (h : Stays segment) (slash : Bool) (path : List (List Char)) :
    close slash path segment = path ++ [segment] := by
  rw [close, h.double, h.single, if_neg Bool.false_ne_true, if_neg Bool.false_ne_true]

theorem State.run_append (s : State) (text text' : List Char) : s.run (text ++ text') = (s.run text).run text' :=
  List.foldl_append

theorem State.InPath.run_plain (h : s.InPath) (hplain : Plain text) :
    s.run text = { s with segment := s.segment ++ text } := by
  induction text generalizing s with
  | nil => rw [List.append_nil]; rfl
  | cons c text ih =>
    have hc : c ∉ enders := hplain c List.mem_cons_self
    simp only [enders, List.mem_cons, List.not_mem_nil, or_false, not_or] at hc
    have hstep : s.step c = { s with segment := s.segment ++ [c] } := by
      rw [State.step, h.1, h.2]
      simp only [hc, or_self, if_false]
    have hrest := ih (s := { s with segment := s.segment ++ [c] }) h fun d hd => hplain d (List.mem_cons_of_mem _ hd)
    rw [State.run, List.foldl_cons, hstep]
    refine hrest.trans ?_
    simp only [List.append_assoc, List.singleton_append]

theorem State.InPath.step_slash (h : s.InPath) :
    s.step '/' = { s with path := close true s.path s.segment, segment := [] } := by
  rw [State.step, h.1, h.2]
  rfl

/-- Segments, each behind a slash. -/
def joined (segments : List (List Char)) : List Char := segments.flatMap ('/' :: ·)

/-- **Segments that stay are read one by one**, the last of them not ended yet. -/
theorem State.InPath.run_segments (h : s.InPath) (hempty : s.segment = []) {segments : List (List Char)}
    (hsegment : Stays segment) (hsegments : ∀ t ∈ segments, Stays t) : ∃ path last,
    s.run (segment ++ joined segments) = { s with path := path, segment := last } ∧ Stays last ∧
      path ++ [last] = s.path ++ segment :: segments := by
  induction segments generalizing s segment with
  | nil =>
    refine ⟨s.path, segment, ?_, hsegment, rfl⟩
    rw [joined, List.flatMap_nil, List.append_nil, h.run_plain hsegment.plain, hempty, List.nil_append]
  | cons next segments ih =>
    have hnext : Stays next := hsegments next List.mem_cons_self
    let ended : State := { s with path := s.path ++ [segment], segment := [] }
    have hslash : (s.run segment).step '/' = ended := by
      rw [h.run_plain hsegment.plain, hempty, List.nil_append]
      refine (State.InPath.step_slash (s := { s with segment := segment }) h).trans ?_
      simp only [close_of_stays hsegment, ended]
    obtain ⟨path, last, hrun, hlast, hpath⟩ :=
      ih (s := ended) h rfl hnext fun t ht => hsegments t (List.mem_cons_of_mem _ ht)
    refine ⟨path, last, ?_, hlast, ?_⟩
    · rw [joined, List.flatMap_cons, State.run_append, List.cons_append, State.run, List.foldl_cons, hslash]
      exact hrun
    · rw [hpath]
      simp only [ended, List.append_assoc, List.singleton_append]

/-- The path ends with the segments, whether nothing or a query follows. -/
theorem State.InPath.finish_segments (h : s.InPath) (hempty : s.segment = []) {segments : List (List Char)}
    (hsegment : Stays segment) (hsegments : ∀ t ∈ segments, Stays t) :
    (s.run (segment ++ joined segments)).finish = ⟨s.path ++ segment :: segments, .none, .none⟩ ∧
    ∀ query, '#' ∉ query → (s.run (segment ++ joined segments ++ '?' :: query)).finish =
      ⟨s.path ++ segment :: segments, .some query, .none⟩ := by
  obtain ⟨path, last, hrun, hlast, hpath⟩ := h.run_segments hempty hsegment hsegments
  constructor
  · have hin : (s.run (segment ++ joined segments)).InPath := by
      rw [hrun]
      exact h
    rw [State.finish, if_pos hin, hrun, close_of_stays hlast, hpath]
    exact congrArg₂ _ h.1 h.2
  · intro query hquery
    have hask : ({ s with path := path, segment := last } : State).step '?' =
        ⟨s.path ++ segment :: segments, [], .some [], .none⟩ := by
      rw [State.step, h.1, h.2]
      simp only [Char.reduceEq, or_self, if_false, if_true, close_of_stays hlast, hpath]
    have hread : ∀ (read rest : List Char), '#' ∉ rest →
        State.run ⟨s.path ++ segment :: segments, [], .some read, .none⟩ rest =
          ⟨s.path ++ segment :: segments, [], .some (read ++ rest), .none⟩ := by
      intro read rest hrest
      induction rest generalizing read with
      | nil => rw [List.append_nil]; rfl
      | cons c rest ih =>
        rw [List.mem_cons, not_or] at hrest
        rw [State.run, List.foldl_cons, State.step]
        simp only [Ne.symm hrest.1, if_false]
        refine (ih (read ++ [c]) hrest.2).trans ?_
        simp only [List.append_assoc, List.singleton_append]
    rw [State.run_append, hrun, State.run, List.foldl_cons, hask]
    refine (congrArg State.finish (hread [] query hquery)).trans ?_
    rw [List.nil_append, State.finish, if_neg fun hin => absurd hin.1 (Option.some_ne_none query)]

/-- Behind the path, nothing changes it. -/
theorem State.path_run_of_not_inPath (h : ¬ s.InPath) : (s.run text).finish.path = s.path := by
  induction text generalizing s with
  | nil =>
    have hself : s.run [] = s := rfl
    rw [hself, State.finish, if_neg h]
  | cons c text ih =>
    obtain ⟨path, segment, query, fragment⟩ := s
    rw [State.run, List.foldl_cons]
    cases fragment with
    | some fragment => exact ih fun hin => by cases hin.2
    | none =>
      cases query with
      | none => exact absurd ⟨rfl, rfl⟩ h
      | some query =>
        by_cases hc : c = '#'
        · have hstep : State.step ⟨path, segment, .some query, .none⟩ c = ⟨path, segment, .some query, .some []⟩ :=
            if_pos hc
          rw [hstep]
          exact ih fun hin => by cases hin.2
        · have hstep : State.step ⟨path, segment, .some query, .none⟩ c =
              ⟨path, segment, .some (query ++ [c]), .none⟩ := if_neg hc
          rw [hstep]
          exact ih fun hin => by cases hin.1

theorem inPath_of_run_slash (h : (s.run ['/']).InPath) : s.InPath := by
  obtain ⟨path, segment, query, fragment⟩ := s
  cases fragment with
  | some fragment => cases h.2
  | none =>
    cases query with
    | some query => cases h.1
    | none => exact ⟨rfl, rfl⟩

/-! ## What a text begins with -/

theorem dropWhile_enders_ne_nil {text : List Char} (h : '/' ∈ text) : text.dropWhile (· ∉ enders) ≠ [] := fun hnil => by
  have hall := List.dropWhile_eq_nil_iff.mp hnil '/' h
  simp [enders] at hall

/-- A slash behind another character is not one of the two behind a colon. -/
theorem slash_mem_drop {x c : Char} {front : List Char} (hx : x ∉ [':', '/'])
    (h : "://".toList <+: c :: (front ++ [x, '/'])) : '/' ∈ (front ++ [x, '/']).drop 2 := by
  simp only [List.mem_cons, List.not_mem_nil, or_false, not_or] at hx
  match front with
  | [] => simp [Ne.symm hx.2] at h
  | [_] => simp
  | _ :: _ :: _ => simp

/-- Where a text ends with a slash behind another character, what follows is
behind its authority. -/
theorem behindAuthority_append {x : Char} (hx : x ∉ [':', '/']) {tail : List Char} (htail : ':' ∉ tail) :
    ∀ front, behindAuthority (front ++ x :: '/' :: tail) = (behindAuthority (front ++ [x, '/'])).map (· ++ tail)
  | [] => by
    simp only [List.mem_cons, List.not_mem_nil, or_false, not_or] at hx
    have hnone : ∀ text : List Char, ':' ∉ text → behindAuthority text = .none := by
      intro text
      induction text with
      | nil => exact fun _ => rfl
      | cons c text ih =>
        intro hc
        rw [List.mem_cons, not_or] at hc
        rw [behindAuthority, if_neg (by simp [hc.1]), ih hc.2]
    rw [hnone, hnone]
    · rfl
    · simp [Ne.symm hx.1]
    · simp [Ne.symm hx.1, htail]
  | c :: front => by
    have hshape : front ++ x :: '/' :: tail = front ++ [x, '/'] ++ tail := by simp
    have hscheme : "://".toList <+: c :: (front ++ [x, '/'] ++ tail) ↔ "://".toList <+: c :: (front ++ [x, '/']) := by
      constructor
      · intro h
        exact List.prefix_of_prefix_length_le h (List.prefix_append (c :: (front ++ [x, '/'])) tail) (by simp)
      · intro h
        exact h.trans (List.prefix_append (c :: (front ++ [x, '/'])) tail)
    have ih := behindAuthority_append hx htail front
    rw [hshape] at ih
    rw [List.cons_append, List.cons_append, hshape, behindAuthority, behindAuthority]
    by_cases hstart : "://".toList <+: c :: (front ++ [x, '/'])
    · rw [if_pos (hscheme.mpr hstart), if_pos hstart, Option.map_some, Option.some.injEq]
      have hlong : 2 ≤ (front ++ [x, '/']).length := by simp
      rw [List.drop_append_of_le_length hlong, List.dropWhile_append,
        if_neg (by simpa using dropWhile_enders_ne_nil (slash_mem_drop hx hstart))]
    · rw [if_neg (hstart ∘ hscheme.mp), if_neg hstart, ih]

theorem behindAuthority_ne_nil {x : Char} (hx : x ∉ [':', '/']) {rest : List Char} : ∀ {front},
    behindAuthority (front ++ [x, '/']) = .some rest → rest ≠ []
  | [], h => by
    simp only [List.mem_cons, List.not_mem_nil, or_false, not_or] at hx
    simp [behindAuthority, Ne.symm hx.1] at h
  | c :: front, h => by
    rw [List.cons_append, behindAuthority] at h
    split at h
    · next hstart =>
      cases h
      exact dropWhile_enders_ne_nil (slash_mem_drop hx hstart)
    · exact behindAuthority_ne_nil hx h

theorem behindAuthority_suffix : ∀ {text rest : List Char}, behindAuthority text = .some rest → rest <:+ text
  | c :: text, rest, h => by
    rw [behindAuthority] at h
    split at h
    · cases h
      exact ((List.dropWhile_suffix _).trans (List.drop_suffix 2 text)).trans (List.suffix_cons c text)
    · exact (behindAuthority_suffix h).trans (List.suffix_cons c text)

/-- A character that is neither taken out nor part of `://`. -/
def Firm (x : Char) : Prop := x ∉ [':', '/', '\t', '\n', '\r']

/-- A text without colons that nothing is taken out of. -/
def Clean (text : List Char) : Prop := ∀ c ∈ text, c ∉ [':', '\t', '\n', '\r']

theorem cleaned_append (text text' : List Char) : cleaned (text ++ text') = cleaned text ++ cleaned text' :=
  List.filter_append ..

theorem Clean.cleaned_eq (h : Clean text) : cleaned text = text := by
  refine List.filter_eq_self.mpr fun c hc => ?_
  have hclean := h c hc
  simp only [List.mem_cons, List.not_mem_nil, or_false, not_or] at hclean
  simp [hclean]

theorem Firm.not_mem {x : Char} (h : Firm x) : x ∉ [':', '/'] := by
  simp only [Firm, List.mem_cons, List.not_mem_nil, or_false, not_or] at h ⊢
  exact ⟨h.1, h.2.1⟩

theorem Firm.cleaned_eq {x : Char} (h : Firm x) : cleaned [x, '/'] = [x, '/'] := by
  simp only [Firm, List.mem_cons, List.not_mem_nil, or_false, not_or] at h
  simp [cleaned, h]

theorem skipSlash_append : ∀ {text : List Char}, text ≠ [] → ∀ tail, skipSlash (text ++ tail) = skipSlash text ++ tail
  | [], h, _ => absurd rfl h
  | c :: text, _, tail => by
    rw [List.cons_append, skipSlash, skipSlash]
    split
    · rfl
    · rfl

/-- **What follows a slash is read as a part of the path.** -/
theorem pathText_append {x : Char} (hx : Firm x) {tail : List Char} (htail : Clean tail) (front : List Char) :
    pathText (front ++ [x, '/'] ++ tail) = pathText (front ++ [x, '/']) ++ tail := by
  have hcolon : ':' ∉ tail := fun h => htail ':' h List.mem_cons_self
  have happend := behindAuthority_append hx.not_mem hcolon (cleaned front)
  have hshape : cleaned front ++ x :: '/' :: tail = cleaned front ++ [x, '/'] ++ tail := by simp
  rw [hshape] at happend
  rw [pathText, pathText, cleaned_append, cleaned_append, hx.cleaned_eq, htail.cleaned_eq, happend]
  cases hbehind : behindAuthority (cleaned front ++ [x, '/']) with
  | none => exact skipSlash_append (by simp) tail
  | some rest => exact skipSlash_append (behindAuthority_ne_nil hx.not_mem hbehind) tail

/-- Behind a slash, a segment begins. -/
theorem segment_behind {x : Char} (hx : Firm x) {front : List Char} (h : (State.behind (front ++ [x, '/'])).InPath) :
    (State.behind (front ++ [x, '/'])).segment = [] := by
  have hlast : ∀ text : List Char, text <:+ cleaned front ++ [x, '/'] → text ≠ [] →
      skipSlash text = [] ∨ ∃ text', skipSlash text = text' ++ ['/'] := by
    rintro text ⟨before, hbefore⟩ hne
    have hend : text.getLast? = .some '/' := by
      have hwhole := congrArg List.getLast? hbefore
      rw [List.getLast?_append_of_ne_nil before hne] at hwhole
      rw [hwhole]
      simp
    obtain ⟨text', rfl⟩ := List.getLast?_eq_some_iff.mp hend
    match text' with
    | [] => exact .inl rfl
    | c :: text' =>
      rw [List.cons_append, skipSlash]
      split
      · exact .inr ⟨text', rfl⟩
      · exact .inr ⟨c :: text', rfl⟩
  have hpath : pathText (front ++ [x, '/']) = [] ∨ ∃ text, pathText (front ++ [x, '/']) = text ++ ['/'] := by
    rw [pathText, cleaned_append, hx.cleaned_eq]
    cases hbehind : behindAuthority (cleaned front ++ [x, '/']) with
    | none => exact hlast _ (List.suffix_refl _) (by simp)
    | some rest => exact hlast rest (behindAuthority_suffix hbehind) (behindAuthority_ne_nil hx.not_mem hbehind)
  rw [State.behind] at h ⊢
  rcases hpath with hnil | ⟨text, htext⟩
  · rw [hnil]
    rfl
  · rw [htext, State.run_append] at h ⊢
    have hin : (State.run {} text).InPath := inPath_of_run_slash h
    have hstep : (State.run {} text).run ['/'] = (State.run {} text).step '/' := rfl
    rw [hstep, hin.step_slash]

/-- **What follows a fixed text that ends with a slash leaves the path of that
text as it is**: segments that stay are added to it, and nothing is where the
text has ended the path. -/
theorem parse_append {x : Char} (hx : Firm x) {front : List Char} {segments : List (List Char)}
    (hclean : Clean (segment ++ joined segments)) (hsegment : Stays segment) (hsegments : ∀ t ∈ segments, Stays t) :
    ((State.behind (front ++ [x, '/'])).InPath →
      parse (front ++ [x, '/'] ++ (segment ++ joined segments)) =
        ⟨(State.behind (front ++ [x, '/'])).path ++ segment :: segments, .none, .none⟩ ∧
      ∀ query, '#' ∉ query → Clean query →
        parse (front ++ [x, '/'] ++ (segment ++ joined segments ++ '?' :: query)) =
          ⟨(State.behind (front ++ [x, '/'])).path ++ segment :: segments, .some query, .none⟩) ∧
    (¬ (State.behind (front ++ [x, '/'])).InPath → ∀ tail, Clean tail →
      (parse (front ++ [x, '/'] ++ tail)).path = (State.behind (front ++ [x, '/'])).path) := by
  have hbehind : ∀ tail, Clean tail →
      State.behind (front ++ [x, '/'] ++ tail) = (State.behind (front ++ [x, '/'])).run tail := by
    intro tail htail
    rw [State.behind, pathText_append hx htail, State.run_append]
    rfl
  constructor
  · intro hin
    have hfinish := hin.finish_segments (segment_behind hx hin) hsegment hsegments
    constructor
    · rw [parse, hbehind _ hclean, hfinish.1]
    · intro query hhash hquery
      have htail : Clean (segment ++ joined segments ++ '?' :: query) := by
        intro c hc
        rcases List.mem_append.mp hc with hc | hc
        · exact hclean c hc
        · rcases List.mem_cons.mp hc with rfl | hc
          · decide
          · exact hquery c hc
      rw [parse, hbehind _ htail, hfinish.2 query hhash]
  · intro hout tail htail
    rw [parse, hbehind tail htail, State.path_run_of_not_inPath hout]

example : (parse "https://host/a/b/%2E%2E?c".toList).path = ["a".toList, []] := by decide +kernel

end Pillar.UrlPath
