/-
What relayer options decode to: the records of type 3 one after the other, and
the totals of the executor's.
-/
import Pillar.RelayerOptions
import Pillar.Halt
import Pillar.Totals
import Pillar.Base58

namespace Pillar.RelayerOptions

open Bits Hex Text

/-! ## Slices -/

/-- `js_slice` with the slice that panics when it is out of range. -/
def checkedSlice (bytes : List UInt8) (start stop : Int) : Exec String (List UInt8) :=
  let start := (start.toNat).min bytes.length
  let stop := (stop.toNat).min bytes.length
  if stop ≤ start then .ok [] else Exec.slice bytes start stop

/-- No slice is out of range. -/
theorem checkedSlice_eq (bytes : List UInt8) (start stop : Int) :
    checkedSlice bytes start stop = .ok (jsSlice bytes start stop) := by
  rw [checkedSlice, jsSlice]
  split
  · rfl
  next h => exact if_pos ⟨(not_le.mp h).le, Nat.min_le_right _ _⟩

theorem jsSlice_part {bytes part : List UInt8} (before after : List UInt8) {start stop : Int}
    (h : bytes = before ++ part ++ after) (hstart : start = before.length)
    (hstop : stop = before.length + part.length) : jsSlice bytes start stop = part := by
  subst h
  have hlen : (before ++ part ++ after).length = before.length + part.length + after.length := by
    rw [List.length_append, List.length_append]
  have hfrom : (start.toNat).min (before ++ part ++ after).length = before.length := by
    rw [hlen, hstart, Int.toNat_natCast]
    exact Nat.min_eq_left (by omega)
  have hto : (stop.toNat).min (before ++ part ++ after).length = before.length + part.length := by
    rw [hlen, hstop, ← Nat.cast_add, Int.toNat_natCast]
    exact Nat.min_eq_left (by omega)
  rw [jsSlice, hfrom, hto]
  split
  next h => exact (List.eq_nil_of_length_eq_zero (by omega)).symm
  next => rw [List.append_assoc, List.drop_left, Nat.add_sub_cancel_left, List.take_left]

theorem number_of_ne_nil {bytes : List UInt8} (hne : bytes ≠ []) (hlt : ofBytes bytes < 2 ^ 64) :
    number bytes = .ok (ofBytes bytes) := by
  have hbig : big bytes = .ok (ofBytes bytes) := if_neg (by rwa [List.isEmpty_iff])
  rw [number, hbig]
  exact if_pos hlt

theorem number_singleton (b : UInt8) : number [b] = .ok b.toNat := by
  have hlt := b.toNat_lt
  have hvalue : ofBytes [b] = b.toNat := by simp [ofBytes]
  rw [number_of_ne_nil (List.cons_ne_nil _ _) (by rw [hvalue]; omega), hvalue]

theorem number_bytesOf {n : Nat} (h : n < 2 ^ 16) : number (bytesOf 2 n) = .ok n := by
  have hvalue : ofBytes (bytesOf 2 n) = n := ofBytes_bytesOf h
  have hne : bytesOf 2 n ≠ [] := List.ne_nil_of_length_pos (by rw [length_bytesOf]; decide)
  rw [number_of_ne_nil hne (by rw [hvalue]; omega), hvalue]

/-! ## Turns -/

/-- One turn of the loop: where it starts, and where the next one does. -/
def Turn (bytes : List UInt8) (s s' : Int × Options) : Prop :=
  s.1 < bytes.length ∧ ∃ workerId size, number (jsSlice bytes s.1 (s.1 + 1)) = .ok workerId ∧
    number (jsSlice bytes (s.1 + 1) (s.1 + 3)) = .ok size ∧ readOption bytes (s.1 + 3) s.2 workerId size = .ok s'

theorem readOptions_turn {bytes : List UInt8} {s s' : Int × Options} (h : Turn bytes s s') :
    readOptions bytes s.1 s.2 = readOptions bytes s'.1 s'.2 := by
  obtain ⟨hmore, workerId, size, hworker, hsize, hread⟩ := h
  rw [readOptions, if_pos hmore, hworker]
  dsimp only
  rw [hsize]
  dsimp only
  split
  next herr =>
    rw [hread] at herr
    cases herr
  next hok =>
    rw [hread] at hok
    cases hok
    rfl

/-- A turn goes three bytes on at least, whatever the size it reads. -/
theorem Turn.le {bytes : List UInt8} {s s' : Int × Options} (h : Turn bytes s s') : s.1 + 3 ≤ s'.1 := by
  obtain ⟨-, workerId, size, -, -, hread⟩ := h
  exact readOption_le hread

/-- There are no more turns than a third of the bytes. -/
theorem length_turns {bytes : List UInt8} : ∀ {turns : List (Int × Options)} {s : Int × Options}, 2 ≤ s.1 →
    List.IsChain (Turn bytes) (s :: turns) → turns = [] ∨ s.1 + 3 * turns.length ≤ bytes.length + 2
  | [], _, _, _ => .inl rfl
  | s' :: turns, s, hstart, h => by
    obtain ⟨hturn, hrest⟩ := List.isChain_cons_cons.mp h
    have hle := hturn.le
    have hlt := hturn.1
    right
    rcases length_turns (by omega) hrest with rfl | hmore
    · simp only [List.length_singleton]
      omega
    · simp only [List.length_cons]
      omega

/-! ## Records -/

/-- An option of type 3, whose size fits its two bytes. -/
inductive Record where
  | executor (optionType : UInt8) (params : List UInt8) (fits : 1 + params.length < 2 ^ 16)
  | dvn (index optionType : UInt8) (params : List UInt8) (fits : 2 + params.length < 2 ^ 16)

namespace Record

def workerId : Record → Nat
  | executor .. => 1
  | dvn .. => 2

def option : Record → Nat × List UInt8
  | executor optionType params _ => (optionType.toNat, params)
  | dvn _ optionType params _ => (optionType.toNat, params)

def encode : Record → List UInt8
  | executor optionType params _ => 1 :: bytesOf 2 (1 + params.length) ++ optionType :: params
  | dvn index optionType params _ => 2 :: bytesOf 2 (2 + params.length) ++ index :: optionType :: params

end Record

/-- The options of type 3. -/
def encodeAll (records : List Record) : List UInt8 := 0 :: 3 :: records.flatMap Record.encode

def addRecord (options : Options) (record : Record) : Options :=
  addOption options record.workerId record.option.1 record.option.2

/-- The options of one worker. -/
def ofWorker (options : Options) (id : Nat) : List (Nat × List UInt8) := (options.lookup id).getD []

/-- The options of one worker among the records, in their order. -/
def workerOptions (records : List Record) (id : Nat) : List (Nat × List UInt8) :=
  (records.filter fun record => record.workerId = id).map Record.option

theorem ofWorker_addOption (options : Options) (workerId optionType : Nat) (params : List UInt8) (id : Nat) :
    ofWorker (addOption options workerId optionType params) id =
      ofWorker options id ++ if workerId = id then [(optionType, params)] else [] := by
  induction options with
  | nil =>
    rw [addOption, ofWorker, ofWorker, List.lookup_nil, Option.getD_none, List.nil_append, List.lookup_cons]
    by_cases h : workerId = id
    · simp [h]
    · simp [h, beq_false_of_ne (Ne.symm h)]
  | cons worker rest ih =>
    obtain ⟨id', list⟩ := worker
    rw [addOption]
    split
    next h =>
      subst h
      by_cases h' : id' = id
      · simp [ofWorker, h']
      · simp [ofWorker, List.lookup_cons, h', beq_false_of_ne (Ne.symm h')]
    next h =>
      by_cases h' : id = id'
      · subst h'
        simp [ofWorker, Ne.symm h]
      · rw [ofWorker, ofWorker] at ih
        rw [ofWorker, ofWorker, List.lookup_cons, List.lookup_cons, beq_false_of_ne h']
        exact ih

theorem ofWorker_foldl (records : List Record) (options : Options) (id : Nat) :
    ofWorker (records.foldl addRecord options) id = ofWorker options id ++ workerOptions records id := by
  induction records generalizing options with
  | nil => rw [List.foldl_nil, workerOptions, List.filter_nil, List.map_nil, List.append_nil]
  | cons record records ih =>
    rw [List.foldl_cons, ih, addRecord, ofWorker_addOption, List.append_assoc, workerOptions, workerOptions,
      List.filter_cons]
    by_cases h : record.workerId = id
    · rw [if_pos h, if_pos (decide_eq_true h)]
      rfl
    · rw [if_neg h, if_neg (by simpa using h)]
      rfl

/-- **One record, one turn**: it starts at the record and ends behind it. -/
theorem turn_record (before after : List UInt8) (record : Record) (options : Options) :
    Turn (before ++ record.encode ++ after) (before.length, options)
      ((before ++ record.encode).length, addRecord options record) := by
  cases record with
  | executor optionType params fits =>
    have hworker : jsSlice (before ++ (Record.executor optionType params fits).encode ++ after) before.length
        (before.length + 1) = [1] := jsSlice_part before
      (bytesOf 2 (1 + params.length) ++ optionType :: (params ++ after)) (by simp [Record.encode]) rfl rfl
    have hsize : jsSlice (before ++ (Record.executor optionType params fits).encode ++ after) (before.length + 1)
        (before.length + 3) = bytesOf 2 (1 + params.length) := jsSlice_part (before ++ [1])
      (optionType :: (params ++ after)) (by simp [Record.encode]) (by simp) (by simp; omega)
    have htype : jsSlice (before ++ (Record.executor optionType params fits).encode ++ after) (before.length + 3)
        (before.length + 3 + 1) = [optionType] := jsSlice_part
      (before ++ [1] ++ bytesOf 2 (1 + params.length)) (params ++ after)
      (by simp [Record.encode]) (by simp) (by simp)
    have hparams : jsSlice (before ++ (Record.executor optionType params fits).encode ++ after)
        (before.length + 3 + 1) (before.length + 3 + 1 + (1 + params.length : Nat) - 1) = params := jsSlice_part
      (before ++ [1] ++ bytesOf 2 (1 + params.length) ++ [optionType]) after
      (by simp [Record.encode]) (by simp; omega) (by simp; omega)
    refine ⟨by simp [Record.encode]; omega, 1, 1 + params.length, by rw [hworker, number_singleton]; rfl,
      by rw [hsize, number_bytesOf fits], ?_⟩
    rw [readOption, if_pos rfl, htype, number_singleton]
    dsimp only [Bind.bind, Except.bind]
    rw [hparams]
    refine congrArg Except.ok (Prod.ext ?_ rfl)
    simp [Record.encode]
    omega
  | dvn index optionType params fits =>
    have hworker : jsSlice (before ++ (Record.dvn index optionType params fits).encode ++ after) before.length
        (before.length + 1) = [2] := jsSlice_part before
      (bytesOf 2 (2 + params.length) ++ index :: optionType :: (params ++ after))
      (by simp [Record.encode]) rfl rfl
    have hsize : jsSlice (before ++ (Record.dvn index optionType params fits).encode ++ after) (before.length + 1)
        (before.length + 3) = bytesOf 2 (2 + params.length) := jsSlice_part (before ++ [2])
      (index :: optionType :: (params ++ after)) (by simp [Record.encode]) (by simp) (by simp; omega)
    have hindex : jsSlice (before ++ (Record.dvn index optionType params fits).encode ++ after) (before.length + 3)
        (before.length + 3 + 1) = [index] := jsSlice_part
      (before ++ [2] ++ bytesOf 2 (2 + params.length)) (optionType :: (params ++ after))
      (by simp [Record.encode]) (by simp) (by simp)
    have htype : jsSlice (before ++ (Record.dvn index optionType params fits).encode ++ after)
        (before.length + 3 + 1) (before.length + 3 + 1 + 1) = [optionType] := jsSlice_part
      (before ++ [2] ++ bytesOf 2 (2 + params.length) ++ [index]) (params ++ after)
      (by simp [Record.encode]) (by simp; omega) (by simp; omega)
    have hparams : jsSlice (before ++ (Record.dvn index optionType params fits).encode ++ after)
        (before.length + 3 + 1 + 1) (before.length + 3 + 1 + 1 + (2 + params.length : Nat) - 2) = params :=
      jsSlice_part (before ++ [2] ++ bytesOf 2 (2 + params.length) ++ [index] ++ [optionType])
        after (by simp [Record.encode]) (by simp; omega) (by simp; omega)
    refine ⟨by simp [Record.encode]; omega, 2, 2 + params.length, by rw [hworker, number_singleton]; rfl,
      by rw [hsize, number_bytesOf fits], ?_⟩
    rw [readOption, if_neg (by decide), if_pos rfl, hindex, number_singleton]
    dsimp only [Bind.bind, Except.bind]
    rw [htype, number_singleton]
    dsimp only [Bind.bind, Except.bind]
    rw [hparams]
    refine congrArg Except.ok (Prod.ext ?_ rfl)
    simp [Record.encode]
    omega

/-- The run over the records that are left. -/
theorem readOptions_records : ∀ (records : List Record) (before : List UInt8) (options : Options),
    readOptions (before ++ records.flatMap Record.encode) before.length options = .ok (records.foldl addRecord options)
  | [], before, options => by
    rw [List.flatMap_nil, List.append_nil, readOptions, if_neg (lt_irrefl _), List.foldl_nil]
  | record :: records, before, options => by
    have hturn := readOptions_turn (turn_record before (records.flatMap Record.encode) record options)
    rw [List.flatMap_cons, ← List.append_assoc, hturn, readOptions_records records, List.foldl_cons]

/-- **Every record is read**, and nothing else. -/
theorem fromOptions_encodeAll (records : List Record) :
    fromOptions (encodeAll records) = .ok (records.foldl addRecord []) := by
  have hkind : jsSlice (encodeAll records) 0 2 = [0, 3] :=
    jsSlice_part [] (records.flatMap Record.encode) rfl rfl rfl
  have hthree : number [0, 3] = .ok 3 := by decide
  rw [fromOptions, hkind, hthree]
  exact readOptions_records records [0, 3] []

/-! ## Totals -/

/-- The parameters of the executor's options of one type, in their order. -/
def executorParams (records : List Record) (optionType : Nat) : List (List UInt8) :=
  ((workerOptions records 1).filter (·.1 = optionType)).map Prod.snd

/-- The standard lengths of lzReceive, native drop, compose and lzRead parameters. -/
def StandardLength (optionType length : Nat) : Prop :=
  match optionType with
  | 1 => length = 16 ∨ length = 32
  | 2 => length = 48
  | 3 => length = 18 ∨ length = 34
  | 5 => length = 20 ∨ length = 36
  | _ => True

def Standard (records : List Record) : Prop :=
  ∀ optionType, ∀ params ∈ executorParams records optionType, StandardLength optionType params.length

/-- The bytes from `i`, `n` of them, as a number. -/
def field (params : List UInt8) (i n : Nat) : Nat := ofBytes ((params.drop i).take n)

/-- The gas and the value of all lzReceive options. -/
def receiveTotals (receive : List (List UInt8)) : Option (Nat × Nat) :=
  if receive.isEmpty then .none
  else .some ((receive.map fun params => field params 0 16).sum, (receive.map fun params => field params 16 16).sum)

/-- Receivers and amounts. -/
def dropItems (options : List (List UInt8)) : List (List UInt8 × Nat) :=
  options.map fun params => (params.drop 16, field params 0 16)

/-- Every receiver, in the order of its first drop, with all that is dropped to it. -/
def dropTotals (options : List (List UInt8)) : List (List UInt8 × Nat) :=
  ((dropItems options).map Prod.fst).eraseDups.map fun receiver => (receiver, Totals.total (dropItems options) receiver)

/-- Indices, gas and values. -/
def composeItems (options : List (List UInt8)) : List (Nat × Nat × Nat) :=
  options.map fun params => (field params 0 2, field params 2 16, field params 18 16)

/-- Every index, from the lowest on, with its gas and its value. -/
def composeTotals (options : List (List UInt8)) : List (Nat × Nat × Nat) :=
  (((composeItems options).map Prod.fst).toFinset.sort).map fun index =>
    (index, Totals.total (composeItems options) index)

/-- The gas, the size and the value of all lzRead options. -/
def readTotals (read : List (List UInt8)) : Option (Nat × Nat × Nat) :=
  if read.isEmpty then .none
  else .some ((read.map fun params => field params 0 16).sum, (read.map fun params => field params 16 4).sum,
    (read.map fun params => field params 20 16).sum)

theorem executorOptions_eq (options : Options) (optionType : Nat) :
    executorOptions options optionType = ((ofWorker options 1).filter (·.1 = optionType)).map Prod.snd := by
  have hfind : ∀ options : Options, (options.find? (·.1 = 1)).map Prod.snd = options.lookup 1 := by
    intro options
    induction options with
    | nil => rfl
    | cons worker rest ih =>
      obtain ⟨id, list⟩ := worker
      rw [List.find?_cons, List.lookup_cons]
      by_cases h : id = 1
      · simp [h]
      · simp [h, beq_false_of_ne (Ne.symm h), ih]
  rw [executorOptions, ofWorker, ← hfind]
  cases options.find? (·.1 = 1) <;> rfl

/-- **The executor's options are the records'.** -/
theorem executorOptions_records (records : List Record) (optionType : Nat) :
    executorOptions (records.foldl addRecord []) optionType = executorParams records optionType := by
  rw [executorOptions_eq, ofWorker_foldl]
  rfl

/-- A field that is there. -/
theorem big_field (params : List UInt8) (i n : Nat) (start stop : Int) (hn : 0 < n) (h : i + n ≤ params.length)
    (hstart : start = i) (hstop : stop = i + n) : big (jsSlice params start stop) = .ok (field params i n) := by
  have hi : (params.take i).length = i := List.length_take_of_le (by omega)
  have hlen : ((params.drop i).take n).length = n := by
    rw [List.length_take, List.length_drop]
    omega
  have hpart : jsSlice params start stop = (params.drop i).take n := jsSlice_part (params.take i)
    ((params.drop i).drop n) (by rw [List.append_assoc, List.take_append_drop, List.take_append_drop])
    (by rw [hi, hstart]) (by rw [hi, hlen, hstop])
  rw [hpart]
  exact if_neg (by rw [List.isEmpty_iff, ← List.length_eq_zero_iff, hlen]; omega)

/-- A field behind the end is zero. -/
theorem field_behind {params : List UInt8} {i : Nat} (n : Nat) (h : params.length ≤ i) : field params i n = 0 := by
  rw [field, List.drop_eq_nil_of_le h, List.take_nil]
  rfl

theorem sumReceive_standard {receive : List (List UInt8)} (h : ∀ params ∈ receive, StandardLength 1 params.length) :
    sumReceive receive = .ok (receiveTotals receive) := by
  have hfold : ∀ {receive : List (List UInt8)}, (∀ params ∈ receive, StandardLength 1 params.length) →
      ∀ gas value : Nat, (receive.foldlM (fun totals params => do
        let gas := totals.1 + (← big (jsSlice params 0 16))
        if params.length ≠ 16 then .ok (gas, totals.2 + (← big (jsSlice params 16 32))) else .ok (gas, totals.2))
          (gas, value) : Except String (Nat × Nat)) =
        .ok (gas + (receive.map fun params => field params 0 16).sum,
          value + (receive.map fun params => field params 16 16).sum) := by
    intro receive h
    induction receive with
    | nil => exact fun gas value => rfl
    | cons params receive ih =>
      intro gas value
      obtain ⟨hlen, hrest⟩ := List.forall_mem_cons.mp h
      have hgas := big_field params 0 16 0 16 (by decide)
        (by rcases hlen with hlen | hlen <;> omega) rfl rfl
      rw [List.foldlM_cons, hgas, List.map_cons, List.sum_cons, List.map_cons, List.sum_cons, ← Nat.add_assoc,
        ← Nat.add_assoc]
      by_cases hshort : params.length = 16
      · have hstep := ih hrest (gas + field params 0 16) value
        rw [field_behind 16 hshort.le, Nat.add_zero, ← hstep]
        dsimp only [Bind.bind, Except.bind]
        rw [if_neg (not_not.mpr hshort)]
      · have hvalue := big_field params 16 16 16 32 (by decide)
          (by rcases hlen with hlen | hlen <;> omega) rfl rfl
        have hstep := ih hrest (gas + field params 0 16) (value + field params 16 16)
        rw [← hstep]
        dsimp only [Bind.bind, Except.bind]
        rw [if_pos hshort, hvalue]
  rw [sumReceive, receiveTotals]
  split
  · rfl
  · have hsum := hfold h 0 0
    rw [Nat.zero_add, Nat.zero_add] at hsum
    exact congrArg (Option.some <$> ·) hsum

theorem sumRead_standard {read : List (List UInt8)} (h : ∀ params ∈ read, StandardLength 5 params.length) :
    sumRead read = .ok (readTotals read) := by
  have hfold : ∀ {read : List (List UInt8)}, (∀ params ∈ read, StandardLength 5 params.length) →
      ∀ gas size value : Nat, (read.foldlM (fun totals params => do
        let gas := totals.1 + (← big (jsSlice params 0 16))
        let size := totals.2.1 + (← big (jsSlice params 16 20))
        if params.length ≠ 20 then .ok (gas, size, totals.2.2 + (← big (jsSlice params 20 36)))
        else .ok (gas, size, totals.2.2)) (gas, size, value) : Except String (Nat × Nat × Nat)) =
        .ok (gas + (read.map fun params => field params 0 16).sum,
          size + (read.map fun params => field params 16 4).sum,
          value + (read.map fun params => field params 20 16).sum) := by
    intro read h
    induction read with
    | nil => exact fun gas size value => rfl
    | cons params read ih =>
      intro gas size value
      obtain ⟨hlen, hrest⟩ := List.forall_mem_cons.mp h
      have hgas := big_field params 0 16 0 16 (by decide)
        (by rcases hlen with hlen | hlen <;> omega) rfl rfl
      have hsize := big_field params 16 4 16 20 (by decide)
        (by rcases hlen with hlen | hlen <;> omega) rfl rfl
      rw [List.foldlM_cons, hgas, hsize, List.map_cons, List.sum_cons, List.map_cons, List.sum_cons, List.map_cons,
        List.sum_cons, ← Nat.add_assoc, ← Nat.add_assoc, ← Nat.add_assoc]
      by_cases hshort : params.length = 20
      · have hstep := ih hrest (gas + field params 0 16) (size + field params 16 4) value
        rw [field_behind 16 hshort.le, Nat.add_zero, ← hstep]
        dsimp only [Bind.bind, Except.bind]
        rw [if_neg (not_not.mpr hshort)]
      · have hvalue := big_field params 20 16 20 36 (by decide)
          (by rcases hlen with hlen | hlen <;> omega) rfl rfl
        have hstep := ih hrest (gas + field params 0 16) (size + field params 16 4) (value + field params 20 16)
        rw [← hstep]
        dsimp only [Bind.bind, Except.bind]
        rw [if_pos hshort, hvalue]
  rw [sumRead, readTotals]
  split
  · rfl
  · have hsum := hfold h 0 0 0
    rw [Nat.zero_add, Nat.zero_add, Nat.zero_add] at hsum
    exact congrArg (Option.some <$> ·) hsum

/-! ### Native drops -/

theorem lookup_addDrop (drops : List (List UInt8 × Nat)) (receiver : List UInt8) (amount : Nat) (other : List UInt8) :
    (addDrop drops receiver amount).lookup other =
      if other = receiver then .some ((drops.lookup receiver).getD 0 + amount) else drops.lookup other := by
  induction drops with
  | nil =>
    rw [addDrop, List.lookup_nil, List.lookup_nil, Option.getD_none, Nat.zero_add]
    by_cases hother : other = receiver
    · rw [if_pos hother, hother, List.lookup_cons_self]
    · rw [if_neg hother, Totals.lookup_cons_of_ne hother, List.lookup_nil]
  | cons drop drops ih =>
    obtain ⟨r, total⟩ := drop
    rw [addDrop]
    split
    next h =>
      subst h
      rw [List.lookup_cons_self, Option.getD_some]
      by_cases hother : other = r
      · rw [if_pos hother, hother, List.lookup_cons_self]
      · rw [if_neg hother, Totals.lookup_cons_of_ne hother, Totals.lookup_cons_of_ne hother]
    next h =>
      rw [Totals.lookup_cons_of_ne (Ne.symm h)]
      by_cases hother : other = r
      · rw [hother, List.lookup_cons_self, List.lookup_cons_self, if_neg h]
      · rw [Totals.lookup_cons_of_ne hother, Totals.lookup_cons_of_ne hother, ih]

theorem map_fst_addDrop (drops : List (List UInt8 × Nat)) (receiver : List UInt8) (amount : Nat) :
    (addDrop drops receiver amount).map Prod.fst =
      if receiver ∈ drops.map Prod.fst then drops.map Prod.fst else drops.map Prod.fst ++ [receiver] := by
  induction drops with
  | nil => rfl
  | cons drop drops ih =>
    obtain ⟨r, total⟩ := drop
    rw [addDrop]
    split
    next h => rw [if_pos (by simp [h])]; rfl
    next h =>
      rw [List.map_cons, ih, List.map_cons]
      by_cases hmem : receiver ∈ drops.map Prod.fst
      · rw [if_pos hmem, if_pos (List.mem_cons_of_mem _ hmem)]
      · rw [if_neg hmem, if_neg (List.not_mem_cons_of_ne_of_not_mem (Ne.symm h) hmem), List.cons_append]

/-- The receivers stand in the order of their first drops. -/
theorem map_fst_foldl_addDrop (items : List (List UInt8 × Nat)) :
    (items.foldl (fun drops item => addDrop drops item.1 item.2) []).map Prod.fst =
      (items.map Prod.fst).eraseDups := by
  induction items using List.reverseRecOn with
  | nil => rfl
  | append_singleton items item ih =>
    rw [List.foldl_append, List.foldl_cons, List.foldl_nil, map_fst_addDrop, ih, List.map_append, List.map_singleton,
      Totals.eraseDups_concat]
    simp only [List.mem_eraseDups]

theorem sumDrops_standard {options : List (List UInt8)} (h : ∀ params ∈ options, StandardLength 2 params.length) :
    sumDrops options = .ok (dropTotals options) := by
  have hfold : ∀ {options : List (List UInt8)}, (∀ params ∈ options, StandardLength 2 params.length) →
      ∀ drops, (options.foldlM (fun drops params => do
        let amount ← big (jsSlice params 0 16)
        .ok (addDrop drops (jsSlice params 16 48) amount)) drops : Except String (List (List UInt8 × Nat))) =
        .ok ((dropItems options).foldl (fun drops item => addDrop drops item.1 item.2) drops) := by
    intro options h
    induction options with
    | nil => exact fun drops => rfl
    | cons params options ih =>
      intro drops
      obtain ⟨hlen, hrest⟩ := List.forall_mem_cons.mp h
      have hlen : params.length = 48 := hlen
      have hamount := big_field params 0 16 0 16 (by decide)
        (by omega) rfl rfl
      have hreceiver : jsSlice params 16 48 = params.drop 16 := jsSlice_part (params.take 16)
        [] (by rw [List.append_nil, List.take_append_drop])
        (by rw [List.length_take_of_le (by omega)]; rfl)
        (by rw [List.length_take_of_le (by omega), List.length_drop, hlen]; rfl)
      have hstep := ih hrest (addDrop drops (params.drop 16) (field params 0 16))
      rw [List.foldlM_cons, hamount]
      dsimp only [Bind.bind, Except.bind]
      rw [hreceiver]
      exact hstep
  have hkeys := map_fst_foldl_addDrop (dropItems options)
  have hadds : Totals.Adds (fun _ => True) addDrop :=
    ⟨trivial, fun _ _ _ _ => trivial, fun drops receiver amount other _ => lookup_addDrop drops receiver amount other⟩
  rw [sumDrops, hfold h, dropTotals, hadds.foldl_eq hkeys (Totals.nodup_eraseDups _)
    fun receiver hreceiver => List.mem_eraseDups.mp hreceiver]

/-! ### Composes -/

theorem addCompose_mem {composes : List (Nat × Nat × Nat)} {index gas value k : Nat} :
    k ∈ (addCompose composes index gas value).map Prod.fst ↔ k = index ∨ k ∈ composes.map Prod.fst := by
  induction composes with
  | nil => simp [addCompose]
  | cons compose composes ih =>
    obtain ⟨i, g, v⟩ := compose
    rw [addCompose]
    split
    next => simp
    next =>
      split
      next h =>
        subst h
        simp
      next =>
        rw [List.map_cons, List.map_cons, List.mem_cons, ih, List.mem_cons]
        exact or_left_comm

/-- The indices stay in order. -/
theorem addCompose_sorted {composes : List (Nat × Nat × Nat)} (index gas value : Nat)
    (h : (composes.map Prod.fst).Pairwise (· < ·)) :
    ((addCompose composes index gas value).map Prod.fst).Pairwise (· < ·) := by
  induction composes with
  | nil => simp [addCompose]
  | cons compose composes ih =>
    obtain ⟨i, g, v⟩ := compose
    obtain ⟨hi, hrest⟩ := List.pairwise_cons.mp h
    rw [addCompose]
    split
    next hlt =>
      refine List.pairwise_cons.mpr ⟨fun k hk => ?_, h⟩
      rcases List.mem_cons.mp hk with rfl | hk
      · exact hlt
      · exact hlt.trans (hi k hk)
    next hge =>
      split
      next => exact h
      next hne =>
        refine List.pairwise_cons.mpr ⟨fun k hk => ?_, ih hrest⟩
        rcases addCompose_mem.mp hk with rfl | hk
        · exact lt_of_le_of_ne (not_lt.mp hge) hne
        · exact hi k hk

theorem lookup_addCompose {composes : List (Nat × Nat × Nat)} (h : (composes.map Prod.fst).Pairwise (· < ·))
    (index : Nat) (amounts : Nat × Nat) (other : Nat) :
    (addCompose composes index amounts.1 amounts.2).lookup other =
      if other = index then .some ((composes.lookup index).getD 0 + amounts) else composes.lookup other := by
  induction composes with
  | nil =>
    rw [addCompose, List.lookup_nil, List.lookup_nil, Option.getD_none, zero_add]
    by_cases hother : other = index
    · rw [if_pos hother, hother, List.lookup_cons_self]
    · rw [if_neg hother, Totals.lookup_cons_of_ne hother, List.lookup_nil]
  | cons compose composes ih =>
    obtain ⟨i, g, v⟩ := compose
    obtain ⟨hi, hrest⟩ := List.pairwise_cons.mp h
    rw [addCompose]
    split
    next hlt =>
      -- The index is new: the others are all higher.
      have hnone : composes.lookup index = .none := by
        refine List.lookup_eq_none_iff.mpr fun compose hcompose => ?_
        have hhigher := hi compose.1 (List.mem_map_of_mem hcompose)
        have hlt : index < i := hlt
        have hhigher : i < compose.1 := hhigher
        rw [bne_iff_ne]
        omega
      rw [Totals.lookup_cons_of_ne hlt.ne, hnone, Option.getD_none, zero_add]
      by_cases hother : other = index
      · rw [if_pos hother, hother, List.lookup_cons_self]
      · rw [if_neg hother, Totals.lookup_cons_of_ne hother]
    next hge =>
      split
      next heq =>
        subst heq
        rw [List.lookup_cons_self, Option.getD_some]
        by_cases hother : other = i
        · rw [if_pos hother, hother, List.lookup_cons_self]
          rfl
        · rw [if_neg hother, Totals.lookup_cons_of_ne hother, Totals.lookup_cons_of_ne hother]
      next hne =>
        rw [Totals.lookup_cons_of_ne (Ne.symm hne)]
        by_cases hother : other = i
        · rw [hother, List.lookup_cons_self, List.lookup_cons_self, if_neg hne]
        · rw [Totals.lookup_cons_of_ne hother, Totals.lookup_cons_of_ne hother, ih hrest]

theorem addCompose_adds : Totals.Adds (fun composes => (composes.map Prod.fst).Pairwise (· < ·))
    fun composes index (amounts : Nat × Nat) => addCompose composes index amounts.1 amounts.2 where
  nil := List.Pairwise.nil
  keeps _ index amounts h := addCompose_sorted index amounts.1 amounts.2 h
  lookup _ index amounts other h := lookup_addCompose h index amounts other

/-- Each index stands once, the lowest first. -/
theorem map_fst_foldl_addCompose (items : List (Nat × Nat × Nat)) :
    (items.foldl (fun composes item => addCompose composes item.1 item.2.1 item.2.2) []).map Prod.fst =
      (items.map Prod.fst).toFinset.sort := by
  obtain ⟨hsorted, hlookup⟩ := addCompose_adds.foldl items
  refine List.SortedLT.eq_of_mem_iff hsorted.sortedLT (Finset.sortedLT_sort _) fun index => ?_
  have hmem := hlookup index
  rw [Finset.mem_sort, List.mem_toFinset]
  constructor
  · intro hindex
    by_contra hno
    rw [if_neg hno, List.lookup_eq_none_iff] at hmem
    obtain ⟨compose, hcompose, rfl⟩ := List.mem_map.mp hindex
    have hne := hmem compose hcompose
    simp at hne
  · intro hindex
    rw [if_pos hindex, List.lookup_eq_some_iff] at hmem
    obtain ⟨before, after, hsplit, -⟩ := hmem
    rw [hsplit]
    simp

theorem sumComposes_standard {options : List (List UInt8)} (h : ∀ params ∈ options, StandardLength 3 params.length) :
    sumComposes options = .ok (composeTotals options) := by
  have hfold : ∀ {options : List (List UInt8)}, (∀ params ∈ options, StandardLength 3 params.length) →
      ∀ composes, (options.foldlM (fun composes params => do
        let index ← number (jsSlice params 0 2)
        let gas ← big (jsSlice params 2 18)
        let value ← if params.length = 34 then big (jsSlice params 18 34) else .ok 0
        .ok (addCompose composes index gas value)) composes : Except String (List (Nat × Nat × Nat))) =
        .ok ((composeItems options).foldl (fun composes item => addCompose composes item.1 item.2.1 item.2.2)
          composes) := by
    intro options h
    induction options with
    | nil => exact fun composes => rfl
    | cons params options ih =>
      intro composes
      obtain ⟨hlen, hrest⟩ := List.forall_mem_cons.mp h
      have hlen : params.length = 18 ∨ params.length = 34 := hlen
      have hbig := big_field params 0 2 0 2 (by decide)
        (by omega) rfl rfl
      have hsmall : field params 0 2 < 2 ^ 64 := by
        have hlt := ofBytes_lt ((params.drop 0).take 2)
        have hpow : 256 ^ ((params.drop 0).take 2).length ≤ 256 ^ 2 :=
          Nat.pow_le_pow_right (by decide) (List.length_take_le 2 _)
        rw [field]
        omega
      have hindex : number (jsSlice params 0 2) = .ok (field params 0 2) := by
        rw [number, hbig]
        exact if_pos hsmall
      have hgas := big_field params 2 16 2 18 (by decide)
        (by omega) rfl rfl
      have hstep := ih hrest (addCompose composes (field params 0 2) (field params 2 16) (field params 18 16))
      rw [List.foldlM_cons, hindex, hgas]
      dsimp only [Bind.bind, Except.bind]
      by_cases hlong : params.length = 34
      · have hvalue := big_field params 18 16 18 34 (by decide)
          (by omega) rfl rfl
        rw [if_pos hlong, hvalue]
        exact hstep
      · have hzero : field params 18 16 = 0 := field_behind 16 (by omega)
        rw [hzero] at hstep
        rw [if_neg hlong, composeItems, List.map_cons, List.foldl_cons, hzero]
        exact hstep
  have hkeys := map_fst_foldl_addCompose (composeItems options)
  have htotals := addCompose_adds.foldl_eq hkeys (Finset.sort_nodup _ _) fun index hindex => by
    rwa [Finset.mem_sort, List.mem_toFinset] at hindex
  rw [sumComposes, hfold h, composeTotals]
  exact congrArg Except.ok htotals

/-! ## Decoding -/

section

variable (hex : HexCrate) (bs58Encode : List UInt8 → String)

/-- What the records' options add up to. -/
def summary (records : List Record) (dstChainName : String) (withRead : Bool) : Json :=
  render hex bs58Encode dstChainName (readTotals (if withRead then executorParams records 5 else []))
    (receiveTotals (executorParams records 1)) (dropTotals (executorParams records 2))
    (composeTotals (executorParams records 3)) (!(executorParams records 4).isEmpty)

/-- Both kinds of options are there, and both are read. -/
def Conflict (records : List Record) (withRead : Bool) : Prop :=
  withRead = true ∧ executorParams records 5 ≠ [] ∧ executorParams records 1 ≠ []

instance (records : List Record) (withRead : Bool) : Decidable (Conflict records withRead) :=
  inferInstanceAs (Decidable (_ ∧ _ ∧ _))

/-- **The decoding of standard options**: exact totals, or the one error. -/
theorem decode_standard {records : List Record} (h : Standard records) (dstChainName : String) (withRead : Bool) :
    decodeRelayerOptions hex bs58Encode (encodeAll records) dstChainName withRead =
      if Conflict records withRead then .error "Cannot have both lzRead and lzReceive options in the same packet"
      else .ok (summary hex bs58Encode records dstChainName withRead) := by
  have hread : sumRead (if withRead then executorParams records 5 else []) =
      .ok (readTotals (if withRead then executorParams records 5 else [])) := by
    refine sumRead_standard fun params hparams => ?_
    cases withRead with
    | true => exact h 5 params hparams
    | false => cases hparams
  have hconflict : ((readTotals (if withRead then executorParams records 5 else [])).isSome = true ∧
      (receiveTotals (executorParams records 1)).isSome = true) ↔ Conflict records withRead := by
    have hsome : ∀ l, (readTotals l).isSome = true ↔ l ≠ [] := by
      intro l
      cases l <;> simp [readTotals]
    have hsome' : ∀ l, (receiveTotals l).isSome = true ↔ l ≠ [] := by
      intro l
      cases l <;> simp [receiveTotals]
    rw [hsome, hsome', Conflict]
    cases withRead <;> simp
  rw [decodeRelayerOptions, fromOptions_encodeAll]
  simp only [Bind.bind, Except.bind, executorOptions_records]
  rw [sumReceive_standard (h 1), sumDrops_standard (h 2), sumComposes_standard (h 3), hread]
  simp only [hconflict]
  rfl

/-! ## Order -/

/-- The same error, or values that differ in the order of their native drops at most. -/
def SameButForDrops (dstChainName : String) (x y : Except String Json) : Prop :=
  (∃ e, x = .error e ∧ y = .error e) ∨
    ∃ read receive drops drops' composes ordered, drops.Perm drops' ∧
      x = .ok (render hex bs58Encode dstChainName read receive drops composes ordered) ∧
      y = .ok (render hex bs58Encode dstChainName read receive drops' composes ordered)

end

variable {records records' : List Record}

theorem executorParams_perm (h : records.Perm records') (optionType : Nat) :
    (executorParams records optionType).Perm (executorParams records' optionType) :=
  (((h.filter _).map _).filter _).map _

theorem Standard.perm (h : Standard records) (hperm : records.Perm records') : Standard records' :=
  fun optionType params hparams => h optionType params ((executorParams_perm hperm optionType).mem_iff.mpr hparams)

theorem receiveTotals_perm {l l' : List (List UInt8)} (h : l.Perm l') : receiveTotals l = receiveTotals l' := by
  rw [receiveTotals, receiveTotals, h.isEmpty_eq, (h.map _).sum_eq, (h.map fun params => field params 16 16).sum_eq]

theorem readTotals_perm {l l' : List (List UInt8)} (h : l.Perm l') : readTotals l = readTotals l' := by
  rw [readTotals, readTotals, h.isEmpty_eq, (h.map _).sum_eq, (h.map fun params => field params 16 4).sum_eq,
    (h.map fun params => field params 20 16).sum_eq]

theorem composeTotals_perm {l l' : List (List UInt8)} (h : l.Perm l') : composeTotals l = composeTotals l' := by
  have hitems : (composeItems l).Perm (composeItems l') := h.map _
  rw [composeTotals, composeTotals, Totals.total_perm hitems, List.toFinset_eq_of_perm _ _ (hitems.map _)]

theorem dropTotals_perm {l l' : List (List UInt8)} (h : l.Perm l') : (dropTotals l).Perm (dropTotals l') := by
  have hitems : (dropItems l).Perm (dropItems l') := h.map _
  have hkeys : (((dropItems l).map Prod.fst).eraseDups).Perm (((dropItems l').map Prod.fst).eraseDups) := by
    refine (List.perm_ext_iff_of_nodup (Totals.nodup_eraseDups _) (Totals.nodup_eraseDups _)).mpr fun receiver => ?_
    rw [List.mem_eraseDups, List.mem_eraseDups]
    exact (hitems.map _).mem_iff
  rw [dropTotals, dropTotals, Totals.total_perm hitems]
  exact hkeys.map _

/-- Options in another order, all totals the same but for the drops'. -/
theorem summary_perm (h : records.Perm records') (withRead : Bool) :
    readTotals (if withRead then executorParams records 5 else []) =
        readTotals (if withRead then executorParams records' 5 else []) ∧
      receiveTotals (executorParams records 1) = receiveTotals (executorParams records' 1) ∧
      composeTotals (executorParams records 3) = composeTotals (executorParams records' 3) ∧
      (executorParams records 4).isEmpty = (executorParams records' 4).isEmpty ∧
      (Conflict records withRead ↔ Conflict records' withRead) := by
  have hempty : ∀ optionType, executorParams records optionType = [] ↔ executorParams records' optionType = [] := by
    intro optionType
    rw [← List.isEmpty_iff, ← List.isEmpty_iff, (executorParams_perm h optionType).isEmpty_eq]
  refine ⟨?_, receiveTotals_perm (executorParams_perm h 1), composeTotals_perm (executorParams_perm h 3),
    (executorParams_perm h 4).isEmpty_eq, by rw [Conflict, Conflict, ne_eq, ne_eq, ne_eq, ne_eq, hempty, hempty]⟩
  cases withRead with
  | true => exact readTotals_perm (executorParams_perm h 5)
  | false => rfl

/-- **Relayer options.** Of any bytes each turn of the loop goes on by three at
least, so the loop ends, and no slice is out of range. Records are read back
worker by worker, in order. Standard parameters are decoded to their totals, and
their order shows in the order of the native drops only. -/
theorem decodeRelayerOptions_exact (hex : HexCrate) (bs58Encode : List UInt8 → String) :
    (∀ bytes start stop, checkedSlice bytes start stop = .ok (jsSlice bytes start stop)) ∧
    (∀ bytes s s', Turn bytes s s' → s.1 + 3 ≤ s'.1 ∧ readOptions bytes s.1 s.2 = readOptions bytes s'.1 s'.2) ∧
    (∀ bytes turns, List.IsChain (Turn bytes) ((2, []) :: turns) → 3 * turns.length ≤ bytes.length) ∧
    (∀ records, ∃ options, fromOptions (encodeAll records) = .ok options ∧
      ∀ id, ofWorker options id = workerOptions records id) ∧
    (∀ records, Standard records → ∀ dstChainName withRead,
      decodeRelayerOptions hex bs58Encode (encodeAll records) dstChainName withRead =
        if Conflict records withRead then .error "Cannot have both lzRead and lzReceive options in the same packet"
        else .ok (summary hex bs58Encode records dstChainName withRead)) ∧
    ∀ records records', records.Perm records' → Standard records → ∀ dstChainName withRead,
      SameButForDrops hex bs58Encode dstChainName
        (decodeRelayerOptions hex bs58Encode (encodeAll records) dstChainName withRead)
        (decodeRelayerOptions hex bs58Encode (encodeAll records') dstChainName withRead) ∧
      (executorParams records 2 = executorParams records' 2 →
        decodeRelayerOptions hex bs58Encode (encodeAll records) dstChainName withRead =
          decodeRelayerOptions hex bs58Encode (encodeAll records') dstChainName withRead) := by
  refine ⟨checkedSlice_eq, fun bytes s s' h => ⟨h.le, readOptions_turn h⟩, fun bytes turns h => ?_, fun records => ?_,
    fun records h => decode_standard hex bs58Encode h, fun records records' hperm h dstChainName withRead => ?_⟩
  · rcases length_turns le_rfl h with rfl | hle
    · exact Nat.zero_le _
    · omega
  · refine ⟨_, fromOptions_encodeAll records, fun id => ?_⟩
    rw [ofWorker_foldl]
    rfl
  · obtain ⟨hread, hreceive, hcomposes, hordered, hconflict⟩ := summary_perm hperm withRead
    rw [decode_standard hex bs58Encode h, decode_standard hex bs58Encode (h.perm hperm)]
    simp only [hconflict]
    refine ⟨?_, fun hdrops => ?_⟩
    · split
      next => exact .inl ⟨_, rfl, rfl⟩
      next =>
        refine .inr ⟨_, _, _, _, _, _, dropTotals_perm (executorParams_perm hperm 2), rfl, ?_⟩
        rw [summary, hread, hreceive, hcomposes, hordered]
    · rw [summary, summary, hread, hreceive, hcomposes, hordered, hdrops]

/-- Options of each kind but lzRead, one of them a verifier's. -/
def sample : List Record :=
  [.executor 1 (bytesOf 16 200000) (by decide),
    .executor 2 (bytesOf 16 7 ++ List.replicate 32 1) (by decide),
    .dvn 0 1 [9] (by decide),
    .executor 3 (bytesOf 2 1 ++ bytesOf 16 50000 ++ bytesOf 16 3) (by decide),
    .executor 4 [] (by decide)]

theorem standard_of_forall (h : ∀ record ∈ records, record.workerId = 1 →
    StandardLength record.option.1 record.option.2.length) : Standard records := by
  intro optionType params hparams
  obtain ⟨option, hoption, rfl⟩ := List.mem_map.mp hparams
  obtain ⟨hoption, htype⟩ := List.mem_filter.mp hoption
  obtain ⟨record, hrecord, rfl⟩ := List.mem_map.mp hoption
  obtain ⟨hrecord, hworker⟩ := List.mem_filter.mp hrecord
  rw [← of_decide_eq_true htype]
  exact h record hrecord (of_decide_eq_true hworker)

theorem standard_sample : Standard sample := by
  refine standard_of_forall fun record hrecord hworker => ?_
  simp only [sample, List.mem_cons, List.not_mem_nil, or_false] at hrecord
  rcases hrecord with rfl | rfl | rfl | rfl | rfl
  · exact .inl rfl
  · exact rfl
  · cases hworker
  · exact .inr rfl
  · trivial

theorem decodeRelayerOptions_exact_sample :
    decodeRelayerOptions .plain Base58.encode (encodeAll sample) "ethereum" true =
        .ok (summary .plain Base58.encode sample "ethereum" true) ∧
      decodeRelayerOptions .plain Base58.encode (encodeAll sample) "ethereum" true =
        decodeRelayerOptions .plain Base58.encode (encodeAll sample.reverse) "ethereum" true := by
  obtain ⟨-, -, -, -, hstandard, horder⟩ := decodeRelayerOptions_exact .plain Base58.encode
  refine ⟨(hstandard sample standard_sample "ethereum" true).trans (if_neg (by decide)), ?_⟩
  exact (horder sample _ (List.reverse_perm sample).symm standard_sample "ethereum" true).2 (by decide)

end Pillar.RelayerOptions
