/-
What parsing through a projection keeps (`pillar-runtime`,
`provider_health/transport/projection.rs`): the parsed value cut down to the
projection, for a text that fits it.

A value fits when every place that is kept holds what the projection expects there.
The visitor finds out one more thing too late: an empty object has no member to be
refused for, and stands for an array.
-/
import Pillar.IndexMap
import Pillar.JsonMap
import Pillar.Projection

namespace Pillar.Projection

open JsonGrammar

/-! ## Values cut down to a projection -/

/-- The projection of a member that is kept. -/
def kept (node : Node) (key : String) : Option Node := ((child node key).toOption).join

mutual
/-- Objects with the listed members, arrays up to their limits, everything else as it is. -/
def project (node : Node) : Json → Json
  | .null => .null
  | .bool b => .bool b
  | .number n => .number n
  | .string s => .string s
  | .array values =>
    match node with
    | .array element limit => .array (projectValues element limit values)
    | .all | .object _ | .rpc _ => .array values
  | .object entries =>
    match node with
    | .object _ | .rpc _ => .object (projectEntries node entries)
    | .all | .array _ _ => .object entries

def projectValues (element : Node) (limit : Nat) : List Json → List Json
  | [] => []
  | value :: values =>
    match limit with
    | 0 => []
    | limit + 1 => project element value :: projectValues element limit values

def projectEntries (node : Node) : List (String × Json) → List (String × Json)
  | [] => []
  | (key, value) :: entries =>
    match kept node key with
    | .some projection => (key, project projection value) :: projectEntries node entries
    | .none => projectEntries node entries
end

section

variable (P : Node → Json → Prop)

mutual
/-- `P` at every place that is kept. -/
def Throughout (node : Node) : Json → Prop
  | .null => P node .null
  | .bool b => P node (.bool b)
  | .number n => P node (.number n)
  | .string s => P node (.string s)
  | .array values =>
    P node (.array values) ∧
      match node with
      | .array element limit => ThroughoutValues element limit values
      | .all | .object _ | .rpc _ => True
  | .object entries => P node (.object entries) ∧ ThroughoutEntries node entries

def ThroughoutValues (element : Node) (limit : Nat) : List Json → Prop
  | [] => True
  | value :: values =>
    match limit with
    | 0 => True
    | limit + 1 => Throughout element value ∧ ThroughoutValues element limit values

def ThroughoutEntries (node : Node) : List (String × Json) → Prop
  | [] => True
  | (key, value) :: entries =>
    (∀ projection, kept node key = .some projection → Throughout projection value) ∧ ThroughoutEntries node entries
end

end

/-- An object or null where members are expected, an array or null where elements are, anything for everything. -/
def Expected : Node → Json → Prop
  | .all, _ => True
  | .object _, value | .rpc _, value => value.isNull = true ∨ ∃ entries, value = .object entries
  | .array _ _, value => value.isNull = true ∨ ∃ values, value = .array values

/-- An empty object where an array is expected. -/
def EmptyForArray : Node → Json → Prop
  | .array _ _, value => value = .object []
  | .all, _ | .object _, _ | .rpc _, _ => False

/-- The value matches the projection's shape. -/
def Fits (node : Node) (value : Json) : Prop := Throughout Expected node value

/-! ## Texts -/

section

variable (string : List Piece → String)

mutual
/-- No object has a reserved key. -/
def PlainDoc : Doc → Prop
  | .null | .bool _ | .number _ | .string _ => True
  | .array _ items => PlainItems items
  | .object _ members => PlainMembers members

def PlainItems : Items → Prop
  | .nil => True
  | .cons _ item _ rest => PlainDoc item ∧ PlainItems rest

def PlainMembers : Members → Prop
  | .nil => True
  | .cons _ key _ _ value _ rest =>
    (string key ≠ rawValueToken ∧ string key ≠ numberToken) ∧ PlainDoc value ∧ PlainMembers rest
end

variable (P : Node → Doc → Prop)

mutual
/-- `P` at every place of a text that is kept. -/
def Everywhere (node : Node) : Doc → Prop
  | .null => P node .null
  | .bool b => P node (.bool b)
  | .number token => P node (.number token)
  | .string pieces => P node (.string pieces)
  | .array blank items =>
    P node (.array blank items) ∧
      match node with
      | .array element limit => EverywhereItems element limit items
      | .all | .object _ | .rpc _ => True
  | .object blank members => P node (.object blank members) ∧ EverywhereMembers node members

def EverywhereItems (element : Node) (limit : Nat) : Items → Prop
  | .nil => True
  | .cons _ item _ rest =>
    match limit with
    | 0 => True
    | limit + 1 => Everywhere element item ∧ EverywhereItems element limit rest

def EverywhereMembers (node : Node) : Members → Prop
  | .nil => True
  | .cons _ key _ _ value _ rest =>
    (∀ projection, kept node (string key) = .some projection → Everywhere projection value) ∧
      EverywhereMembers node rest
end

/-- The keys of the members that are kept. -/
def keptKeys (node : Node) (members : Members) : List String :=
  (members.keys string).filter fun key => (kept node key).isSome

/-- No projected key is repeated in this object. -/
def Once : Node → Doc → Prop
  | node, .object _ members => (keptKeys string node members).Nodup
  | _, .null | _, .bool _ | _, .number _ | _, .string _ | _, .array _ _ => True

/-- Nothing that is kept whole has a reserved key. -/
def Unreserved : Node → Doc → Prop
  | .all, doc => PlainDoc string doc
  | .object _, _ | .array _ _, _ | .rpc _, _ => True

/-- No object repeats a projected key. -/
def Unrepeated (node : Node) (doc : Doc) : Prop := Everywhere string (Once string) node doc

end

/-! ## A map cut down -/

theorem project_all (value : Json) : project .all value = value := by
  cases value <;> rfl

theorem mem_keys_projectEntries {node : Node} {key : String} : ∀ {entries : List (String × Json)},
    key ∈ (projectEntries node entries).map Prod.fst ↔ key ∈ entries.map Prod.fst ∧ (kept node key).isSome
  | [] => by simp [projectEntries]
  | (k, v) :: entries => by
    have ih : key ∈ (projectEntries node entries).map Prod.fst ↔ key ∈ entries.map Prod.fst ∧ (kept node key).isSome :=
      mem_keys_projectEntries
    rw [projectEntries, List.map_cons, List.mem_cons]
    cases hk : kept node k with
    | none =>
      simp only [ih]
      refine ⟨fun h => ⟨.inr h.1, h.2⟩, fun h => ⟨h.1.resolve_left ?_, h.2⟩⟩
      rintro rfl
      rw [hk] at h
      cases h.2
    | some projection =>
      simp only [List.map_cons, List.mem_cons, ih]
      refine ⟨fun h => h.elim (fun h => ⟨.inl h, by rw [h, hk]; rfl⟩) fun h => ⟨.inr h.1, h.2⟩, fun h => ?_⟩
      exact h.1.imp_right fun hmem => ⟨hmem, h.2⟩

theorem lookup_projectEntries (node : Node) (key : String) : ∀ entries : List (String × Json),
    (projectEntries node entries).lookup key =
      (entries.lookup key).bind fun value => (kept node key).map (project · value)
  | [] => rfl
  | (k, v) :: entries => by
    rw [projectEntries, List.lookup_cons]
    by_cases hkey : key = k
    · subst hkey
      rw [beq_self_eq_true]
      cases hk : kept node key with
      | none =>
        simp only [lookup_projectEntries node key entries, hk]
        cases entries.lookup key <;> rfl
      | some projection => simp
    · have hne : (key == k) = false := beq_false_of_ne hkey
      rw [hne]
      cases kept node k with
      | none => exact lookup_projectEntries node key entries
      | some projection =>
        simp only [List.lookup_cons, hne]
        exact lookup_projectEntries node key entries

theorem projectEntries_gt {node : Node} {key : String} {entries : List (String × Json)} (h : ∀ e ∈ entries, key < e.1) :
    ∀ e ∈ projectEntries node entries, key < e.1 := by
  intro e he
  obtain ⟨hmem, -⟩ := mem_keys_projectEntries.mp (List.mem_map_of_mem he)
  obtain ⟨e', he', hkey⟩ := List.mem_map.mp hmem
  rw [← hkey]
  exact h e' he'

/-- Cutting down after an insertion is cutting down before it. -/
theorem projectEntries_insertEntry (node : Node) (key : String) (value : Json) :
    ∀ {entries : List (String × Json)}, Json.Sorted entries →
      projectEntries node (Json.insertEntry key value entries) =
        match kept node key with
        | .some projection => Json.insertEntry key (project projection value) (projectEntries node entries)
        | .none => projectEntries node entries
  | [], _ => by
    simp only [Json.insertEntry, projectEntries]
  | (k, v) :: rest, h => by
    obtain ⟨hfirst, hrest⟩ := List.pairwise_cons.mp h
    have ih := projectEntries_insertEntry node key value hrest
    rw [Json.insertEntry]
    split
    next hk =>
      subst hk
      rw [projectEntries, projectEntries]
      cases kept node k with
      | none => rfl
      | some projection => simp only [Json.insertEntry, if_pos]
    next hk =>
      split
      next hlt =>
        rw [projectEntries]
        cases kept node key with
        | none => rfl
        | some projection =>
          have hafter : ∀ e ∈ (k, v) :: rest, key < e.1 := by
            intro e he
            rcases List.mem_cons.mp he with rfl | he
            · exact hlt
            · exact lt_trans hlt (hfirst e he)
          exact (Json.insertEntry_of_lt (projectEntries_gt hafter)).symm
      next hlt =>
        rw [projectEntries, ih, projectEntries]
        cases kept node k with
        | none => rfl
        | some projection =>
          cases kept node key with
          | none => rfl
          | some projection' => simp only [Json.insertEntry, if_neg hk, if_neg hlt]

/-! ## Reading the text -/

section

variable (string : List Piece → String) (number : NumberToken → JsonNumber)

mutual
theorem untrustedValue_eq : ∀ {doc : Doc}, PlainDoc string doc →
    untrustedValue string number doc = .ok (doc.value string number)
  | .null, _ | .bool _, _ | .number _, _ | .string _, _ => rfl
  | .array _ items, h => by rw [untrustedValue, untrustedItems_eq h, Except.map_ok, Doc.value]
  | .object _ members, h => by rw [untrustedValue, untrustedMembers_eq members [] h, Except.map_ok, Doc.value]

theorem untrustedItems_eq : ∀ {items : Items}, PlainItems string items →
    untrustedItems string number items = .ok (items.values string number)
  | .nil, _ => rfl
  | .cons _ item _ rest, h => by
    rw [untrustedItems, untrustedValue_eq h.1, untrustedItems_eq h.2]
    rfl

theorem untrustedMembers_eq : ∀ (members : Members) (entries : List (String × Json)), PlainMembers string members →
    untrustedMembers string number entries members = .ok (members.entries string number entries)
  | .nil, _, _ => rfl
  | .cons _ key _ _ value _ rest, entries, h => by
    have hkey : reservedKey (string key) = .ok () := if_neg (not_or.mpr h.1)
    rw [untrustedMembers, hkey, untrustedValue_eq h.2.1]
    exact untrustedMembers_eq rest _ h.2.2
end

mutual
/-- What is kept whole has no reserved key. -/
theorem plain_of_untrustedValue : ∀ {doc : Doc} {v : Json},
    untrustedValue string number doc = .ok v → PlainDoc string doc
  | .null, _, _ | .bool _, _, _ | .number _, _, _ | .string _, _, _ => trivial
  | .array _ items, v, h => by
    rw [untrustedValue] at h
    cases hitems : untrustedItems string number items with
    | ok values => exact plain_of_untrustedItems hitems
    | error e =>
      rw [hitems] at h
      cases h
  | .object _ members, v, h => by
    rw [untrustedValue] at h
    cases hmembers : untrustedMembers string number [] members with
    | ok entries => exact plain_of_untrustedMembers hmembers
    | error e =>
      rw [hmembers] at h
      cases h

theorem plain_of_untrustedItems : ∀ {items : Items} {values : List Json},
    untrustedItems string number items = .ok values → PlainItems string items
  | .nil, _, _ => trivial
  | .cons _ item _ rest, values, h => by
    rw [untrustedItems] at h
    obtain ⟨value, hvalue, h⟩ := bindOk_iff.mp h
    obtain ⟨rest', hrest, -⟩ := bindOk_iff.mp h
    exact ⟨plain_of_untrustedValue hvalue, plain_of_untrustedItems hrest⟩

theorem plain_of_untrustedMembers : ∀ {members : Members} {entries entries' : List (String × Json)},
    untrustedMembers string number entries members = .ok entries' → PlainMembers string members
  | .nil, _, _, _ => trivial
  | .cons _ key _ _ value _ rest, entries, entries', h => by
    rw [untrustedMembers] at h
    obtain ⟨_, hkey, h⟩ := bindOk_iff.mp h
    obtain ⟨value', hvalue, h⟩ := bindOk_iff.mp h
    rw [reservedKey] at hkey
    split at hkey
    next => cases hkey
    next hfree => exact ⟨not_or.mp hfree, plain_of_untrustedValue hvalue, plain_of_untrustedMembers h⟩
end

theorem map_eq_ok {ε α β : Type} {f : α → β} {x : Except ε α} {b : β} (h : f <$> x = .ok b) :
    ∃ a, x = .ok a ∧ f a = b := by
  cases x with
  | ok a => exact ⟨a, rfl, Except.ok.inj h⟩
  | error e => cases h

/-- No key twice where members are kept, no reserved key in what is kept whole. -/
def Sound (node : Node) (doc : Doc) : Prop := Once string node doc ∧ Unreserved string node doc

/-- Nothing is kept below. -/
theorem everywhereMembers_none {P : Node → Doc → Prop} {node : Node} (h : ∀ key, kept node key = .none) :
    ∀ members : Members, EverywhereMembers string P node members
  | .nil => trivial
  | .cons _ key _ _ _ _ rest =>
    ⟨fun projection hkey => (by rw [h] at hkey; cases hkey), everywhereMembers_none h rest⟩

theorem keptKeys_cons (node : Node) (before : List Blank) (key : List Piece) (afterKey beforeValue : List Blank)
    (value : Doc) (after : List Blank) (rest : Members) :
    keptKeys string node (.cons before key afterKey beforeValue value after rest) =
      if (kept node (string key)).isSome then string key :: keptKeys string node rest
      else keptKeys string node rest := by
  rw [keptKeys, Members.keys, List.filter_cons]
  rfl

theorem keptKeys_none {node : Node} (h : ∀ key, kept node key = .none) (members : Members) :
    keptKeys string node members = [] := by
  simp [keptKeys, h]

theorem everywhere_all {doc : Doc} (h : PlainDoc string doc) : Everywhere string (Sound string) .all doc := by
  cases doc with
  | null | bool | number | string => exact ⟨trivial, h⟩
  | array blank items => exact ⟨⟨trivial, h⟩, trivial⟩
  | object blank members =>
    have hnone : ∀ key, kept .all key = .none := fun _ => rfl
    refine ⟨⟨?_, h⟩, everywhereMembers_none string hnone members⟩
    rw [Once, keptKeys_none string hnone]
    exact List.nodup_nil

/-- Where members are kept. -/
def Node.HasMembers : Node → Prop
  | .object _ | .rpc _ => True
  | .all | .array _ _ => False

theorem child_eq {node : Node} (h : node.HasMembers) (key : String) : child node key = .ok (kept node key) := by
  cases node with
  | object | rpc => rfl
  | all | array => cases h

mutual
/-- **What the visitor lets through repeats no projected key**, and keeps no reserved one. -/
theorem seed_sound : ∀ {doc : Doc} {node : Node} {v : Json}, seed string number node doc = .ok v →
    Everywhere string (Sound string) node doc
  | doc, .all, v, h => by
    have hwhole : untrustedValue string number doc = .ok v := by
      cases doc <;> exact h
    exact everywhere_all string (plain_of_untrustedValue string number hwhole)
  | .null, .object _, _, _ | .null, .array _ _, _, _ | .null, .rpc _, _, _ => ⟨trivial, trivial⟩
  | .bool _, .object _, _, h | .bool _, .array _ _, _, h | .bool _, .rpc _, _, h => by cases h
  | .number _, .object _, _, h | .number _, .array _ _, _, h | .number _, .rpc _, _, h => by cases h
  | .string _, .object _, _, h | .string _, .array _ _, _, h | .string _, .rpc _, _, h => by cases h
  | .array _ _, .object _, _, h | .array _ _, .rpc _, _, h => by cases h
  | .array _ items, .array element limit, _, h => by
    obtain ⟨values, hvalues, -⟩ := map_eq_ok h
    exact ⟨⟨trivial, trivial⟩, visitSeq_sound hvalues⟩
  | .object _ members, .object fields, _, h => by
    obtain ⟨entries, hentries, -⟩ := map_eq_ok h
    obtain ⟨hkeys, -, hmembers⟩ := visitMap_sound hentries
    exact ⟨⟨hkeys, trivial⟩, hmembers⟩
  | .object _ members, .rpc result, _, h => by
    obtain ⟨entries, hentries, -⟩ := map_eq_ok h
    obtain ⟨hkeys, -, hmembers⟩ := visitMap_sound hentries
    exact ⟨⟨hkeys, trivial⟩, hmembers⟩
  | .object _ members, .array element limit, _, h => by
    obtain ⟨entries, hentries, -⟩ := map_eq_ok h
    obtain ⟨hkeys, -, hmembers⟩ := visitMap_sound hentries
    exact ⟨⟨hkeys, trivial⟩, hmembers⟩

theorem visitSeq_sound : ∀ {items : Items} {element : Node} {limit : Nat} {values : List Json},
    visitSeq string number element limit items = .ok values →
      EverywhereItems string (Sound string) element limit items
  | .nil, _, _, _, _ => trivial
  | .cons _ item _ rest, _, 0, _, _ => trivial
  | .cons _ item _ rest, element, limit + 1, values, h => by
    rw [visitSeq] at h
    obtain ⟨value, hvalue, h⟩ := bindOk_iff.mp h
    obtain ⟨rest', hrest, -⟩ := bindOk_iff.mp h
    exact ⟨seed_sound hvalue, visitSeq_sound hrest⟩

theorem visitMap_sound : ∀ {members : Members} {node : Node} {entries entries' : List (String × Json)},
    visitMap string number node entries members = .ok entries' →
      (keptKeys string node members).Nodup ∧
      (∀ key ∈ keptKeys string node members, key ∉ entries.map Prod.fst) ∧
      EverywhereMembers string (Sound string) node members
  | .nil, _, _, _, _ => ⟨List.nodup_nil, fun _ h => (by cases h), trivial⟩
  | .cons _ key _ _ value _ rest, node, entries, entries', h => by
    rw [visitMap] at h
    obtain ⟨found, hchild, h⟩ := bindOk_iff.mp h
    have hkept : kept node (string key) = found := by rw [kept, hchild]; rfl
    rw [keptKeys_cons, hkept]
    cases found with
    | none =>
      obtain ⟨hnodup, hfresh, hrest⟩ := visitMap_sound h
      exact ⟨hnodup, hfresh, fun projection hp => (by cases hkept.symm.trans hp), hrest⟩
    | some projection =>
      simp only [Option.isSome_some, if_true]
      dsimp only at h
      split at h
      next => cases h
      next hnew =>
        obtain ⟨value', hvalue, h⟩ := bindOk_iff.mp h
        obtain ⟨hnodup, hfresh, hrest⟩ := visitMap_sound h
        have hfresh' : ∀ k ∈ keptKeys string node rest, k ≠ string key ∧ k ∉ entries.map Prod.fst := fun k hk =>
          not_or.mp fun hmem => hfresh k hk (Json.mem_keys_insertEntry.mpr hmem)
        refine ⟨List.nodup_cons.mpr ⟨fun hmem => (hfresh' _ hmem).1 rfl, hnodup⟩, fun k hk => ?_, fun p hp => ?_, hrest⟩
        · rcases List.mem_cons.mp hk with rfl | hk
          · exact fun hmem => hnew ((IndexMap.lookup_isSome entries).mpr hmem)
          · exact (hfresh' k hk).2
        · cases hkept.symm.trans hp
          exact seed_sound hvalue
end

/-! ## What is read -/

/-- A tolerated value: the shape that is expected, or the empty object for an array. -/
def Tolerated (node : Node) (value : Json) : Prop := Expected node value ∨ EmptyForArray node value

/-- The call gives `v` under the condition, and fails otherwise. -/
def Settles {α : Type} (condition : Prop) (v : α) (result : Except SeedError α) : Prop :=
  (condition → result = .ok v) ∧ (¬condition → ∃ e, result = .error e)

theorem settles_ok {α : Type} {condition : Prop} (h : condition) (v : α) : Settles condition v (.ok v) :=
  ⟨fun _ => rfl, fun hn => absurd h hn⟩

theorem settles_error {α : Type} {condition : Prop} (h : ¬condition) (v : α) (e : SeedError) :
    Settles condition v (.error e) :=
  ⟨fun hc => absurd hc h, fun _ => ⟨e, rfl⟩⟩

theorem Settles.map {α β : Type} {condition condition' : Prop} {v : α} {result : Except SeedError α}
    (h : Settles condition v result) (hiff : condition ↔ condition') (f : α → β) :
    Settles condition' (f v) (f <$> result) := by
  refine ⟨fun hc => ?_, fun hn => ?_⟩
  · rw [h.1 (hiff.mpr hc), Except.map_ok]
  · obtain ⟨e, he⟩ := h.2 fun hc => hn (hiff.mp hc)
    exact ⟨e, by rw [he]; rfl⟩

theorem Settles.bind {α β : Type} {p q r : Prop} {v : α} {w : β} {result : Except SeedError α}
    {next : α → Except SeedError β} (h : Settles p v result) (hnext : p → Settles q w (next v)) (hiff : r ↔ p ∧ q) :
    Settles r w (result >>= next) := by
  by_cases hp : p
  · obtain ⟨hyes, hno⟩ := hnext hp
    rw [h.1 hp]
    exact ⟨fun hr => hyes (hiff.mp hr).2, fun hr => hno fun hq => hr (hiff.mpr ⟨hp, hq⟩)⟩
  · obtain ⟨e, he⟩ := h.2 hp
    rw [he]
    exact ⟨fun hr => absurd (hiff.mp hr).1 hp, fun _ => ⟨e, rfl⟩⟩

theorem throughoutEntries_iff {P : Node → Json → Prop} {node : Node} : ∀ {entries : List (String × Json)},
    ThroughoutEntries P node entries ↔
      ∀ e ∈ entries, ∀ projection, kept node e.1 = .some projection → Throughout P projection e.2
  | [] => by simp [ThroughoutEntries]
  | (key, value) :: entries => by
    rw [ThroughoutEntries, throughoutEntries_iff, List.forall_mem_cons]

/-- Into a map goes what is kept once, or what is not kept. -/
theorem throughout_insertEntry {P : Node → Json → Prop} {node : Node} {key : String} {value : Json}
    {entries : List (String × Json)} (h : (kept node key).isSome → key ∉ entries.map Prod.fst) :
    ThroughoutEntries P node (Json.insertEntry key value entries) ↔
      (∀ projection, kept node key = .some projection → Throughout P projection value) ∧
        ThroughoutEntries P node entries := by
  rw [throughoutEntries_iff, throughoutEntries_iff]
  constructor
  · refine fun hall => ⟨hall (key, value) (Json.mem_insertEntry_self key value entries), fun e he projection hp => ?_⟩
    refine hall e (Json.mem_insertEntry_of_ne (fun hkey => ?_) he) projection hp
    rw [← hkey, hp] at h
    exact h rfl (List.mem_map_of_mem he)
  · rintro ⟨hvalue, hentries⟩ e he
    rcases Json.mem_insertEntry he with rfl | he
    · exact hvalue
    · exact hentries e he

/-- The rest of the keys, once the first is in the map. -/
theorem fresh_rest {node : Node} {key : List Piece} (value : Json) {rest : Members} {entries : List (String × Json)}
    (hnodup : (if (kept node (string key)).isSome then string key :: keptKeys string node rest
      else keptKeys string node rest).Nodup)
    (hfresh : ∀ k ∈ (if (kept node (string key)).isSome then string key :: keptKeys string node rest
      else keptKeys string node rest), k ∉ entries.map Prod.fst) :
    (keptKeys string node rest).Nodup ∧
      ∀ k ∈ keptKeys string node rest, k ∉ (Json.insertEntry (string key) value entries).map Prod.fst := by
  constructor
  · split at hnodup
    · exact (List.nodup_cons.mp hnodup).2
    · exact hnodup
  · intro k hk hmem
    rcases Json.mem_keys_insertEntry.mp hmem with rfl | hmem
    · have hsome : (kept node (string key)).isSome := by simpa using (List.mem_filter.mp hk).2
      rw [if_pos hsome] at hnodup
      exact (List.nodup_cons.mp hnodup).1 hk
    · refine hfresh k ?_ hmem
      split
      · exact List.mem_cons_of_mem _ hk
      · exact hk

/-- What stands in the map stays there, when no kept key is repeated. -/
theorem throughout_of_entries {P : Node → Json → Prop} {node : Node} : ∀ (members : Members)
    (entries : List (String × Json)), (keptKeys string node members).Nodup →
    (∀ key ∈ keptKeys string node members, key ∉ entries.map Prod.fst) →
    ThroughoutEntries P node (members.entries string number entries) → ThroughoutEntries P node entries
  | .nil, _, _, _, h => h
  | .cons _ key _ _ value _ rest, entries, hnodup, hfresh, h => by
    rw [keptKeys_cons] at hnodup hfresh
    have hkey : (kept node (string key)).isSome → string key ∉ entries.map Prod.fst := by
      intro hsome
      rw [if_pos hsome] at hfresh
      exact hfresh _ List.mem_cons_self
    obtain ⟨hnodup', hfresh'⟩ := fresh_rest string (value.value string number) hnodup hfresh
    exact ((throughout_insertEntry hkey).mp (throughout_of_entries rest _ hnodup' hfresh' h)).2

theorem throughout_all (value : Json) : Throughout Tolerated .all value := by
  cases value with
  | null | bool | number | string => exact .inl trivial
  | array values => exact ⟨.inl trivial, trivial⟩
  | object entries => exact ⟨.inl trivial, throughoutEntries_iff.mpr fun _ _ _ hkept => (by cases hkept)⟩

theorem Everywhere.here {P : Node → Doc → Prop} {node : Node} {doc : Doc} (h : Everywhere string P node doc) :
    P node doc := by
  cases doc with
  | null | bool | number | string => exact h
  | array | object => exact h.1

theorem entries_ne_nil : ∀ (members : Members) {entries : List (String × Json)}, entries ≠ [] →
    members.entries string number entries ≠ []
  | .nil, _, h => h
  | .cons _ key _ _ value _ rest, entries, _ =>
    entries_ne_nil rest
      (List.ne_nil_of_mem (Json.mem_insertEntry_self (string key) (value.value string number) entries))

mutual
/-- **Reading through the projection is reading and cutting down**, and fails on values of another shape. -/
theorem seed_settles : ∀ (doc : Doc) (node : Node), Everywhere string (Sound string) node doc →
    Settles (Throughout Tolerated node (doc.value string number)) (project node (doc.value string number))
      (seed string number node doc)
  | doc, .all, h => by
    have hwhole : seed string number .all doc = untrustedValue string number doc := by cases doc <;> rfl
    rw [hwhole, untrustedValue_eq string number h.here.2, project_all]
    exact settles_ok (throughout_all _) _
  | .null, .object _, _ | .null, .array _ _, _ | .null, .rpc _, _ => settles_ok (.inl (.inl rfl)) _
  | .bool _, .object _, _ | .bool _, .array _ _, _ | .bool _, .rpc _, _
  | .number _, .object _, _ | .number _, .array _ _, _ | .number _, .rpc _, _
  | .string _, .object _, _ | .string _, .array _ _, _ | .string _, .rpc _, _ =>
    settles_error (by simp [Doc.value, Throughout, Tolerated, Expected, EmptyForArray, Json.isNull]) _ _
  | .array _ items, .object _, _ | .array _ items, .rpc _, _ =>
    settles_error (by simp [Doc.value, Throughout, Tolerated, Expected, EmptyForArray, Json.isNull]) _ _
  | .array _ items, .array element limit, h =>
    (visitSeq_settles items element limit h.2).map
      ⟨fun hall => ⟨.inl (.inr ⟨_, rfl⟩), hall⟩, fun hall => hall.2⟩ Json.array
  | .object _ members, .object fields, h =>
    (visitMap_settles members (.object fields) trivial [] .nil trivial h.here.1 (by simp) h.2).map
      ⟨fun hall => ⟨.inl (.inr ⟨_, rfl⟩), hall⟩, fun hall => hall.2⟩ Json.object
  | .object _ members, .rpc result, h =>
    (visitMap_settles members (.rpc result) trivial [] .nil trivial h.here.1 (by simp) h.2).map
      ⟨fun hall => ⟨.inl (.inr ⟨_, rfl⟩), hall⟩, fun hall => hall.2⟩ Json.object
  | .object _ .nil, .array _ _, _ => settles_ok ⟨.inr rfl, trivial⟩ _
  | .object _ (.cons _ key _ _ value _ rest), .array _ _, _ => by
    refine settles_error (fun hall => ?_) _ (.custom "unexpected projected object")
    have hne := entries_ne_nil string number rest
      (List.ne_nil_of_mem (Json.mem_insertEntry_self (string key) (value.value string number) []))
    rcases hall.1 with (hnull | ⟨values, hvalues⟩) | hempty
    · cases hnull
    · cases hvalues
    · exact hne (Json.object.inj hempty)

theorem visitSeq_settles : ∀ (items : Items) (element : Node) (limit : Nat),
    EverywhereItems string (Sound string) element limit items →
    Settles (ThroughoutValues Tolerated element limit (items.values string number))
      (projectValues element limit (items.values string number)) (visitSeq string number element limit items)
  | .nil, _, _, _ => settles_ok trivial _
  | .cons _ item _ rest, _, 0, _ => settles_ok trivial _
  | .cons _ item _ rest, element, limit + 1, h => by
    rw [visitSeq]
    refine (seed_settles item element h.1).bind (fun _ => ?_) Iff.rfl
    exact (visitSeq_settles rest element limit h.2).map Iff.rfl _

theorem visitMap_settles : ∀ (members : Members) (node : Node), node.HasMembers →
    ∀ entries : List (String × Json), Json.Sorted entries → ThroughoutEntries Tolerated node entries →
    (keptKeys string node members).Nodup →
    (∀ key ∈ keptKeys string node members, key ∉ entries.map Prod.fst) →
    EverywhereMembers string (Sound string) node members →
    Settles (ThroughoutEntries Tolerated node (members.entries string number entries))
      (projectEntries node (members.entries string number entries))
      (visitMap string number node (projectEntries node entries) members)
  | .nil, _, _, _, _, hentries, _, _, _ => settles_ok hentries _
  | .cons _ key _ _ value _ rest, node, hnode, entries, hsorted, hentries, hnodup, hfresh, hall => by
    rw [keptKeys_cons] at hnodup hfresh
    obtain ⟨hnodup', hfresh'⟩ := fresh_rest string (value.value string number) hnodup hfresh
    have hsorted' : Json.Sorted (Json.insertEntry (string key) (value.value string number) entries) :=
      hsorted.insertEntry
    have hinsert := projectEntries_insertEntry node (string key) (value.value string number) hsorted
    rw [visitMap, child_eq hnode]
    cases hkept : kept node (string key) with
    | none =>
      have hthrough : ThroughoutEntries Tolerated node
          (Json.insertEntry (string key) (value.value string number) entries) := by
        refine (throughout_insertEntry fun hsome => ?_).mpr ⟨fun p hp => (by cases hkept.symm.trans hp), hentries⟩
        rw [hkept] at hsome
        cases hsome
      rw [hkept] at hinsert
      have hrest := visitMap_settles rest node hnode _ hsorted' hthrough hnodup' hfresh' hall.2
      rw [hinsert] at hrest
      exact hrest
    | some projection =>
      rw [hkept, Option.isSome_some, if_pos rfl] at hfresh
      rw [hkept] at hinsert
      have hnew : string key ∉ entries.map Prod.fst := hfresh _ List.mem_cons_self
      have hlookup : ¬((projectEntries node entries).lookup (string key)).isSome = true := by
        rw [IndexMap.lookup_isSome]
        exact fun hmem => hnew (mem_keys_projectEntries.mp hmem).1
      have hiff := @throughout_insertEntry Tolerated node (string key) (value.value string number) entries fun _ => hnew
      simp only [bind, Except.bind]
      rw [if_neg hlookup]
      refine Settles.bind (q := ThroughoutEntries Tolerated node (rest.entries string number
        (Json.insertEntry (string key) (value.value string number) entries)))
        (seed_settles value projection (hall.1 projection hkept)) (fun hvalue => ?_) ?_
      · have hthrough := hiff.mpr ⟨fun p hp => (by cases hkept.symm.trans hp; exact hvalue), hentries⟩
        have hrest := visitMap_settles rest node hnode _ hsorted' hthrough hnodup' hfresh' hall.2
        rw [hinsert] at hrest
        exact hrest
      · refine ⟨fun hr => ⟨?_, hr⟩, And.right⟩
        exact (hiff.mp (throughout_of_entries string number rest _ hnodup' hfresh' hr)).1 projection hkept
end

end

mutual
theorem throughout_imp {P Q R : Node → Json → Prop} (h : ∀ n v, P n v → Q n v → R n v) : ∀ {value : Json} {node : Node},
    Throughout P node value → Throughout Q node value → Throughout R node value
  | .null, _, hp, hq | .bool _, _, hp, hq | .number _, _, hp, hq | .string _, _, hp, hq => h _ _ hp hq
  | .array _, .all, hp, hq | .array _, .object _, hp, hq | .array _, .rpc _, hp, hq => ⟨h _ _ hp.1 hq.1, trivial⟩
  | .array _, .array _ _, hp, hq => ⟨h _ _ hp.1 hq.1, throughoutValues_imp h hp.2 hq.2⟩
  | .object _, _, hp, hq => ⟨h _ _ hp.1 hq.1, throughoutEntries_imp h hp.2 hq.2⟩

theorem throughoutValues_imp {P Q R : Node → Json → Prop} (h : ∀ n v, P n v → Q n v → R n v) :
    ∀ {values : List Json} {element : Node} {limit : Nat}, ThroughoutValues P element limit values →
      ThroughoutValues Q element limit values → ThroughoutValues R element limit values
  | [], _, _, _, _ => trivial
  | _ :: _, _, 0, _, _ => trivial
  | _ :: _, _, _ + 1, hp, hq => ⟨throughout_imp h hp.1 hq.1, throughoutValues_imp h hp.2 hq.2⟩

theorem throughoutEntries_imp {P Q R : Node → Json → Prop} (h : ∀ n v, P n v → Q n v → R n v) :
    ∀ {entries : List (String × Json)} {node : Node}, ThroughoutEntries P node entries →
      ThroughoutEntries Q node entries → ThroughoutEntries R node entries
  | [], _, _, _ => trivial
  | (_, _) :: _, _, hp, hq =>
    ⟨fun projection hkept => throughout_imp h (hp.1 projection hkept) (hq.1 projection hkept),
      throughoutEntries_imp h hp.2 hq.2⟩
end

mutual
theorem everywhere_imp {string : List Piece → String} {P Q R : Node → Doc → Prop} (h : ∀ n d, P n d → Q n d → R n d) :
    ∀ {doc : Doc} {node : Node}, Everywhere string P node doc → Everywhere string Q node doc →
      Everywhere string R node doc
  | .null, _, hp, hq | .bool _, _, hp, hq | .number _, _, hp, hq | .string _, _, hp, hq => h _ _ hp hq
  | .array _ _, .all, hp, hq | .array _ _, .object _, hp, hq | .array _ _, .rpc _, hp, hq =>
    ⟨h _ _ hp.1 hq.1, trivial⟩
  | .array _ _, .array _ _, hp, hq => ⟨h _ _ hp.1 hq.1, everywhereItems_imp h hp.2 hq.2⟩
  | .object _ _, _, hp, hq => ⟨h _ _ hp.1 hq.1, everywhereMembers_imp h hp.2 hq.2⟩

theorem everywhereItems_imp {string : List Piece → String} {P Q R : Node → Doc → Prop}
    (h : ∀ n d, P n d → Q n d → R n d) : ∀ {items : Items} {element : Node} {limit : Nat},
    EverywhereItems string P element limit items → EverywhereItems string Q element limit items →
      EverywhereItems string R element limit items
  | .nil, _, _, _, _ => trivial
  | .cons _ _ _ _, _, 0, _, _ => trivial
  | .cons _ _ _ _, _, _ + 1, hp, hq => ⟨everywhere_imp h hp.1 hq.1, everywhereItems_imp h hp.2 hq.2⟩

theorem everywhereMembers_imp {string : List Piece → String} {P Q R : Node → Doc → Prop}
    (h : ∀ n d, P n d → Q n d → R n d) : ∀ {members : Members} {node : Node},
    EverywhereMembers string P node members → EverywhereMembers string Q node members →
      EverywhereMembers string R node members
  | .nil, _, _, _ => trivial
  | .cons _ _ _ _ _ _ _, _, hp, hq =>
    ⟨fun projection hkept => everywhere_imp h (hp.1 projection hkept) (hq.1 projection hkept),
      everywhereMembers_imp h hp.2 hq.2⟩
end

/-! ## What is read from a response that was cut down -/

theorem isNull_project (node : Node) (value : Json) : (project node value).isNull = value.isNull := by
  cases value <;> cases node <;> rfl

theorem get_project_object (fields : List (String × Node)) (key : String) (value : Json) :
    (project (.object fields) value).get key =
      (value.get key).bind fun held => (fields.lookup key).map (project · held) := by
  cases value with
  | object entries => exact lookup_projectEntries (.object fields) key entries
  | null | bool | number | string | array => rfl

theorem get_project_rpc (result : Node) (value : Json) :
    (project (.rpc result) value).get "result" = (value.get "result").map (project result) := by
  cases value with
  | object entries =>
    have hkept : kept (.rpc result) "result" = .some result := rfl
    have hlookup := lookup_projectEntries (.rpc result) "result" entries
    rw [hkept] at hlookup
    rw [project, Json.get, hlookup, Json.get]
    cases entries.lookup "result" <;> rfl
  | null | bool | number | string | array => rfl

/-- A field that is kept whole is read as it was. -/
theorem get_project_all {fields : List (String × Node)} {key : String} (h : fields.lookup key = .some .all)
    (value : Json) : (project (.object fields) value).get key = value.get key := by
  rw [get_project_object, h]
  cases value.get key with
  | none => rfl
  | some held => exact congrArg some (project_all held)

theorem filter_project (node : Node) (result : Option Json) :
    (result.map (project node)).filter (!·.isNull) = (result.filter (!·.isNull)).map (project node) := by
  cases result with
  | none => rfl
  | some value =>
    rw [Option.map_some, Option.filter_some, Option.filter_some, isNull_project]
    split <;> rfl

theorem parseBlockTimestampSeconds_project (display : Json → String) (response : Json) :
    parseBlockTimestampSeconds display (project (.rpc evmHeader) response) =
      parseBlockTimestampSeconds display response := by
  have htimestamp : ((project (.rpc evmHeader) response).get "result").bind (·.get "timestamp") =
      (response.get "result").bind (·.get "timestamp") := by
    rw [get_project_rpc]
    cases response.get "result" with
    | none => rfl
    | some result => exact get_project_all rfl result
  rw [parseBlockTimestampSeconds, htimestamp, parseBlockTimestampSeconds]

theorem lowercaseField_project {fields : List (String × Node)} {key : String} (h : fields.lookup key = .some .all)
    (result : Json) (error : String) :
    lowercaseField (project (.object fields) result) key error = lowercaseField result key error := by
  rw [lowercaseField, get_project_all h, lowercaseField]

/-- **The block's time is read from the projection as from the whole response.** -/
theorem parseBlockTimeObservation_project (display : Json → String) (response : Json) :
    parseBlockTimeObservation display (project (.rpc evmHeader) response) =
      parseBlockTimeObservation display response := by
  rw [parseBlockTimeObservation, get_project_rpc, filter_project, parseBlockTimestampSeconds_project,
    parseBlockTimeObservation]
  cases (response.get "result").filter (!·.isNull) with
  | none => rfl
  | some result =>
    have hnumber : (project evmHeader result).get "number" = result.get "number" := get_project_all rfl result
    have hhash : ∀ error, lowercaseField (project evmHeader result) "hash" error = lowercaseField result "hash" error :=
      lowercaseField_project rfl result
    have hparent : ∀ error, lowercaseField (project evmHeader result) "parentHash" error =
        lowercaseField result "parentHash" error := lowercaseField_project rfl result
    simp only [Option.map_some, okOr, bind, Except.bind, hnumber, hhash, hparent]

/-- **The sender is read from the projection as from the whole response.** -/
theorem parseTransactionFromObservation_project (display : Json → String) (response : Json) :
    parseTransactionFromObservation display (project (.rpc evmTransaction) response) =
      parseTransactionFromObservation display response := by
  rw [parseTransactionFromObservation, get_project_rpc, filter_project, parseTransactionFromObservation]
  cases (response.get "result").filter (!·.isNull) with
  | none => rfl
  | some result =>
    have hsender : ∀ error, lowercaseField (project evmTransaction result) "from" error =
        lowercaseField result "from" error := lowercaseField_project rfl result
    have hfields : ∀ key ∈ fingerprintFields, (project evmTransaction result).get key = result.get key := by
      intro key hkey
      simp only [fingerprintFields, List.mem_cons, List.not_mem_nil, or_false] at hkey
      rcases hkey with rfl | rfl | rfl | rfl <;> exact get_project_all rfl result
    have hmap : (fingerprintFields.map fun key =>
        (((project evmTransaction result).get key).map (normalizeFingerprintValue display)).getD "") =
        fingerprintFields.map fun key => ((result.get key).map (normalizeFingerprintValue display)).getD "" :=
      List.map_congr_left fun key hkey => by rw [hfields key hkey]
    simp only [Option.map_some, okOr, bind, Except.bind, hsender, hmap]

/-! ## Exactly the texts that fit -/

/-- Reading succeeds on the values that fit, and gives the value cut down. -/
def ReadsFitting (string : List Piece → String) (number : NumberToken → JsonNumber) (node : Node) (doc : Doc) : Prop :=
  ((∃ v, seed string number node doc = .ok v) ↔ Fits node (doc.value string number)) ∧
    ∀ v, seed string number node doc = .ok v → v = project node (doc.value string number)

theorem fits_iff {node : Node} {value : Json} : Fits node value ↔
    Throughout Tolerated node value ∧ Throughout (fun n v => ¬EmptyForArray n v) node value := by
  refine ⟨fun h => ⟨throughout_imp (fun _ _ h _ => .inl h) h h, throughout_imp (fun n v h _ => ?_) h h⟩,
    fun h => throughout_imp (fun _ _ h hn => h.resolve_right hn) h.1 h.2⟩
  cases n with
  | all | object | rpc => exact id
  | array element limit =>
    rintro rfl
    rcases h with hnull | ⟨values, hvalues⟩
    · cases hnull
    · cases hvalues

theorem forPost_eq {body : Json} {method : String} (h : body.get "method" = .some (.string method)) :
    (method = "eth_getBlockByNumber" ∨ method = "eth_getBlockByHash" → forPost body = .some (.rpc evmHeader)) ∧
      (method = "eth_getTransactionByHash" → forPost body = .some (.rpc evmTransaction)) := by
  constructor
  · rintro (rfl | rfl) <;> simp [forPost, h]
  · rintro rfl
    simp [forPost, h]

/-- A text that is read is read as its value cut down. -/
theorem seed_eq_ok {string : List Piece → String} {number : NumberToken → JsonNumber} {node : Node} {doc : Doc}
    {v : Json}
    (h : seed string number node doc = .ok v) : v = project node (doc.value string number) := by
  obtain ⟨hyes, hno⟩ := seed_settles string number doc node (seed_sound string number h)
  by_cases hfits : Throughout Tolerated node (doc.value string number)
  · exact Except.ok.inj (h.symm.trans (hyes hfits))
  · obtain ⟨e, he⟩ := hno hfits
    cases h.symm.trans he

/-- **Reading through a projection, exactly.** Where no projected key is repeated and nothing kept whole has a reserved
key, a text is read if and only if it fits, and as its value cut down, unless an empty object stands where an array is
expected and every other kept place holds what is expected there; a repeated projected key always fails. What the EVM
observations read from a response they read from its projection. -/
theorem seed_readsFitting_iff (string : List Piece → String) (number : NumberToken → JsonNumber) :
    (∀ (node : Node) (doc : Doc), Unrepeated string node doc → Everywhere string (Unreserved string) node doc →
      (ReadsFitting string number node doc ↔
        (Throughout Tolerated node (doc.value string number) →
          Throughout (fun n v => ¬EmptyForArray n v) node (doc.value string number)))) ∧
    (∀ (node : Node) (doc : Doc), ¬Unrepeated string node doc → ∃ e, seed string number node doc = .error e) ∧
    (∀ (display : Json → String) (body : Json) (method : String) (node : Node) (doc : Doc) (v : Json),
      body.get "method" = .some (.string method) → forPost body = .some node → seed string number node doc = .ok v →
        (method = "eth_getBlockByNumber" ∨ method = "eth_getBlockByHash" →
          parseBlockTimeObservation display v = parseBlockTimeObservation display (doc.value string number)) ∧
        (method = "eth_getTransactionByHash" → parseTransactionFromObservation display v =
          parseTransactionFromObservation display (doc.value string number))) := by
  refine ⟨fun node doc honce hfree => ?_, fun node doc hrepeated => ?_, ?_⟩
  · have hsound : Everywhere string (Sound string) node doc := everywhere_imp (fun _ _ h h' => ⟨h, h'⟩) honce hfree
    obtain ⟨hyes, hno⟩ := seed_settles string number doc node hsound
    have hread : (∃ v, seed string number node doc = .ok v) ↔ Throughout Tolerated node (doc.value string number) := by
      refine ⟨fun ⟨v, hv⟩ => ?_, fun h => ⟨_, hyes h⟩⟩
      by_contra hnot
      obtain ⟨e, he⟩ := hno hnot
      cases hv.symm.trans he
    rw [ReadsFitting, hread, fits_iff]
    exact ⟨fun h htolerated => (h.1.mp htolerated).2,
      fun h => ⟨⟨fun ht => ⟨ht, h ht⟩, And.left⟩, fun _ hv => seed_eq_ok hv⟩⟩
  · cases hseed : seed string number node doc with
    | error e => exact ⟨e, rfl⟩
    | ok v =>
      have hsound := seed_sound string number hseed
      exact absurd (everywhere_imp (fun _ _ h _ => h.1) hsound hsound) hrepeated
  · intro display body method node doc v hmethod hnode hseed
    obtain ⟨hheader, htransaction⟩ := forPost_eq hmethod
    rw [seed_eq_ok hseed]
    constructor
    · intro heth
      obtain rfl := Option.some.inj (hnode.symm.trans (hheader heth))
      exact parseBlockTimeObservation_project display _
    · intro heth
      obtain rfl := Option.some.inj (hnode.symm.trans (htransaction heth))
      exact parseTransactionFromObservation_project display _

/-! ## The text that does not fit and is read -/

def plainPieces (s : String) : List Piece :=
  s.toList.filterMap fun c =>
    let b := UInt8.ofNat c.toNat
    if h : b ≠ 0x22 ∧ b ≠ 0x5C then .some (.plain b h) else .none

/-- A string of one-byte characters without escapes. -/
def plainString (pieces : List Piece) : String :=
  String.ofList (pieces.map fun piece =>
    match piece with
    | .plain b _ | .escaped b => Char.ofNat b.toNat)

/-- `{"result":{"ledgers":{}}}`. -/
def ledgersObject : Doc :=
  .object [] (.cons [] (plainPieces "result") [] []
    (.object [] (.cons [] (plainPieces "ledgers") [] [] (.object [] .nil) [] .nil)) [] .nil)

/-- An empty object in the place of the ledgers is read, and does not fit. -/
theorem seed_ledgersObject : ∃ node, forPost (.object [("method", .string "getLedgers")]) = .some node ∧
    Unrepeated plainString node ledgersObject ∧ Everywhere plainString (Unreserved plainString) node ledgersObject ∧
    seed plainString (fun _ => .posInt 0) node ledgersObject =
      .ok (.object [("result", .object [("ledgers", .object [])])]) ∧
    ¬ReadsFitting plainString (fun _ => .posInt 0) node ledgersObject := by
  have hseed : seed plainString (fun _ => .posInt 0) (.rpc stellarLedgers) ledgersObject =
      .ok (.object [("result", .object [("ledgers", .object [])])]) := by rfl
  have hvalue : ledgersObject.value plainString (fun _ => .posInt 0) =
      .object [("result", .object [("ledgers", .object [])])] := by rfl
  have hsound := seed_sound plainString (fun _ => .posInt 0) hseed
  refine ⟨.rpc stellarLedgers, rfl, everywhere_imp (fun _ _ h _ => h.1) hsound hsound,
    everywhere_imp (fun _ _ h _ => h.2) hsound hsound, hseed, fun h => ?_⟩
  have hfits := h.1.mp ⟨_, hseed⟩
  rw [hvalue] at hfits
  have hresult := hfits.2.1 stellarLedgers rfl
  have hledgers := hresult.2.1 (.array stellarLedger 1) rfl
  rcases hledgers.1 with hnull | ⟨values, hvalues⟩
  · cases hnull
  · cases hvalues

end Pillar.Projection
