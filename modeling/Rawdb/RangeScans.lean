import Rawdb.Store
import Rawdb.Types

/-!
# Range scans of the header family

`ReadAllHashes`, `ReadAllHashesInRange` and `ReadAllCanonicalHashes` read the keys under
`headerPrefix` with an iterator instead of point lookups. A header key is
`headerPrefix ‖ num ‖ hash` (41 bytes), a canonical-hash key is
`headerPrefix ‖ num ‖ headerHashSuffix` (10 bytes), and a total-difficulty key is 42 bytes
long; the scans tell them apart by length and suffix. The iterator returns keys in
ascending byte order, which on the keys of one family is ascending block number because
`num` is big-endian.

Each loop is modelled over the iterator's entries, with its `continue` and `break`s as
the source has them. Over a sorted store an early `break` cuts nothing that a filter
would keep, so each scan is a filter of one list, all headers of the store
(`storedHeaders`) or all its canonical mappings (`storedCanonical`), and the results
follow from splitting such a list by block number (`flatMap_filter_number`). No result
needs more of the store than its sortedness: keys that fit no family of the schema are
skipped, or end the scan, exactly as the code has it.

`ReadAllHashesInRange` first makes its result slice with capacity `1+last-first`, a
`uint64` that wraps around when `last + 1 < first`; `makeslice` then panics. An
allocation that `makeslice` accepts is assumed to succeed.
-/

namespace Rawdb

/-- `NumberHash`. -/
structure NumberHash where
  number : UInt64
  hash : Hash
deriving DecidableEq

/-- `binary.BigEndian.Uint64(key[len(headerPrefix) : len(headerPrefix)+8])`: the block
number a key of the header family carries. -/
def keyNumber (key : Bytes) : UInt64 :=
  bigEndianUint64 ((key.drop headerPrefix.length).take 8)

/-- `ReadAllHashes`: the hashes of the header keys under `headerKeyPrefix number`. -/
def readAllHashes (db : KeyValueStore) (number : UInt64) : List Hash :=
  (db.newIterator (headerKeyPrefix number) []).filterMap fun entry =>
    if entry.1.length = (headerKeyPrefix number).length + 32 then
      some (bytesToHash (entry.1.drop (entry.1.length - 32)))
    else none

/-- The header a key of `ReadAllHashesInRange`'s scan stands for; `none` for the keys of
another length, which the loop skips. -/
def headerEntry (key : Bytes) : Option NumberHash :=
  if key.length = headerPrefix.length + 8 + 32 then
    some ⟨keyNumber key, bytesToHash (key.drop (key.length - 32))⟩
  else none

/-- The loop of `ReadAllHashesInRange`: skip keys of another length, stop at the first
header above `last`. -/
def collectHeaders (last : UInt64) : List (Bytes × Bytes) → List NumberHash
  | [] => []
  | entry :: rest =>
      match headerEntry entry.1 with
      | none => collectHeaders last rest
      | some header => if header.number > last then [] else header :: collectHeaders last rest

/-- The Go runtime's `maxAlloc` on 64-bit Linux: the most bytes `makeslice` allocates. -/
def maxAlloc : Nat := 2 ^ 48

/-- Whether `make([]*NumberHash, 0, capacity)` returns: `makeslice` panics once the
capacity's 8-byte pointers exceed `maxAlloc`. A `uint64` capacity of `2^63` or more is a
negative `int` there and is refused as well. -/
def makeSliceFits (capacity : UInt64) : Bool :=
  8 * capacity.toNat ≤ maxAlloc

/-- `ReadAllHashesInRange`. -/
def readAllHashesInRange (db : KeyValueStore) (first last : UInt64) :
    Outcome (List NumberHash) :=
  if makeSliceFits (1 + last - first) then
    .returns (collectHeaders last (db.newIterator headerPrefix (encodeBlockNumber first)))
  else .panics

/-- The canonical mapping an entry of `ReadAllCanonicalHashes`' scan stands for; `none` for
the keys that are not 10 bytes ending in `headerHashSuffix`, which the loop skips. -/
def canonicalEntry (entry : Bytes × Bytes) : Option NumberHash :=
  if entry.1.length = headerPrefix.length + 8 + 1 ∧
      entry.1.drop (entry.1.length - 1) = headerHashSuffix then
    some ⟨keyNumber entry.1, bytesToHash entry.2⟩
  else none

/-- The loop of `ReadAllCanonicalHashes` with its accumulators: stop at the first key at or
past `endKey`, skip other keys, and stop once `limit` mappings are collected. -/
def collectCanonical (endKey : Bytes) (limit : Int) :
    List (Bytes × Bytes) → List UInt64 → List Hash → List UInt64 × List Hash
  | [], numbers, hashes => (numbers, hashes)
  | entry :: rest, numbers, hashes =>
      if endKey ≤ entry.1 then (numbers, hashes)
      else
        match canonicalEntry entry with
        | none => collectCanonical endKey limit rest numbers hashes
        | some mapping =>
            if limit ≤ (numbers ++ [mapping.number]).length then
              (numbers ++ [mapping.number], hashes ++ [mapping.hash])
            else
              collectCanonical endKey limit rest (numbers ++ [mapping.number])
                (hashes ++ [mapping.hash])

/-- `ReadAllCanonicalHashes`. -/
def readAllCanonicalHashes (db : KeyValueStore) («from» «to» : UInt64) (limit : Int) :
    List UInt64 × List Hash :=
  if limit = 0 then ([], [])
  else
    collectCanonical (headerHashKey «to») limit (db.newIterator [] (headerHashKey «from»)) [] []

/-! ## What the scans should return -/

/-- The heights `first, …, last`; none when `last < first`. -/
def heights (first last : UInt64) : List UInt64 :=
  (List.range' first.toNat (last.toNat + 1 - first.toNat)).map UInt64.ofNat

/-- The canonical mappings at the heights `from ≤ n < to`, ascending: one for each height
whose `headerHashKey` is stored. -/
def canonicalMappings (db : KeyValueStore) («from» «to» : UInt64) : List NumberHash :=
  (List.range' («from».toNat) («to».toNat - «from».toNat)).filterMap fun n =>
    (db.get (headerHashKey (UInt64.ofNat n))).map fun value =>
      ⟨UInt64.ofNat n, bytesToHash value⟩

/-- Every header of the store, in key order. -/
def storedHeaders (db : KeyValueStore) : List NumberHash :=
  db.entries.filterMap fun entry => if headerPrefix <+: entry.1 then headerEntry entry.1 else none

/-- Every canonical mapping of the store, in key order. -/
def storedCanonical (db : KeyValueStore) : List NumberHash :=
  db.entries.filterMap fun entry =>
    if entry.1 = headerHashKey (keyNumber entry.1) then
      some ⟨keyNumber entry.1, bytesToHash entry.2⟩
    else none

/-! ## Keys of the header family -/

theorem headerPrefix_eq : headerPrefix = [104] := rfl

theorem headerHashSuffix_eq : headerHashSuffix = [110] := rfl

theorem headerFamily_lt_iff {number number' : UInt64} {tail tail' : Bytes} :
    headerPrefix ++ encodeBlockNumber number ++ tail <
        headerPrefix ++ encodeBlockNumber number' ++ tail' ↔
      number < number' ∨ number = number' ∧ tail < tail' := by
  rw [List.append_assoc, List.append_assoc, Bytes.append_lt_append_iff rfl,
    Bytes.append_lt_append_iff (by simp)]
  simp

theorem headerFamily_le_iff {number number' : UInt64} {tail tail' : Bytes} :
    headerPrefix ++ encodeBlockNumber number ++ tail ≤
        headerPrefix ++ encodeBlockNumber number' ++ tail' ↔
      number < number' ∨ number = number' ∧ tail ≤ tail' := by
  rw [List.append_assoc, List.append_assoc, Bytes.append_le_append_iff rfl,
    Bytes.append_le_append_iff (by simp)]
  simp

@[simp]
theorem keyNumber_headerFamily (number : UInt64) (tail : Bytes) :
    keyNumber (headerPrefix ++ encodeBlockNumber number ++ tail) = number := by
  simp [keyNumber, List.take_left' (length_encodeBlockNumber number)]

@[simp]
theorem keyNumber_headerKey (number : UInt64) (hash : Hash) :
    keyNumber (headerKey number hash) = number :=
  keyNumber_headerFamily number hash.bytes

@[simp]
theorem keyNumber_headerHashKey (number : UInt64) : keyNumber (headerHashKey number) = number :=
  keyNumber_headerFamily number headerHashSuffix

theorem headerKey_lt_headerKey {number number' : UInt64} {hash hash' : Hash}
    (lt : headerKey number hash < headerKey number' hash') : number ≤ number' := by
  rcases headerFamily_lt_iff.mp lt with before | ⟨rfl, -⟩
  · exact UInt64.le_iff_toNat_le.mpr (UInt64.lt_iff_toNat_lt.mp before).le
  · exact UInt64.le_refl number

@[simp]
theorem headerHashKey_lt_headerHashKey_iff {number number' : UInt64} :
    headerHashKey number < headerHashKey number' ↔ number < number' := by
  rw [headerHashKey, headerHashKey, headerKeyPrefix, headerKeyPrefix, headerFamily_lt_iff]
  simp

@[simp]
theorem headerHashKey_le_headerHashKey_iff {number number' : UInt64} :
    headerHashKey number ≤ headerHashKey number' ↔ number ≤ number' := by
  rw [headerHashKey, headerHashKey, headerKeyPrefix, headerKeyPrefix, headerFamily_le_iff]
  simp only [le_refl, and_true, UInt64.le_iff_toNat_le, UInt64.lt_iff_toNat_lt,
    UInt64.eq_iff_toNat_eq]
  omega

@[simp]
theorem headerEntry_headerKey (number : UInt64) (hash : Hash) :
    headerEntry (headerKey number hash) = some ⟨number, hash⟩ := by
  have rest : (headerKey number hash).drop 9 = hash.bytes :=
    List.drop_left' (length_headerKeyPrefix number)
  simp [headerEntry, rest, headerPrefix_eq]

/-- A key under `headerPrefix` of a header key's length is a header key. -/
theorem exists_headerKey {key : Bytes} (underPrefix : headerPrefix <+: key)
    (length : key.length = headerPrefix.length + 8 + 32) :
    ∃ number hash, key = headerKey number hash := by
  obtain ⟨rest, rfl⟩ := underPrefix
  have restLength : rest.length = 40 := by simpa [headerPrefix_eq] using length
  refine ⟨bigEndianUint64 (rest.take 8), ⟨rest.drop 8, by simp [restLength]⟩, ?_⟩
  rw [headerKey, headerKeyPrefix, encodeBlockNumber_bigEndianUint64 (by simp [restLength]),
    List.append_assoc, List.take_append_drop]

theorem headerEntry_eq_some {key : Bytes} {header : NumberHash}
    (underPrefix : headerPrefix <+: key) :
    headerEntry key = some header ↔ key = headerKey header.number header.hash := by
  constructor
  · intro found
    have length : key.length = headerPrefix.length + 8 + 32 := by
      by_contra other
      simp [headerEntry, other] at found
    obtain ⟨number, hash, rfl⟩ := exists_headerKey underPrefix length
    obtain rfl : (⟨number, hash⟩ : NumberHash) = header := by simpa using found
    rfl
  · rintro rfl
    exact headerEntry_headerKey _ _

@[simp]
theorem canonicalEntry_headerHashKey (number : UInt64) (value : Bytes) :
    canonicalEntry (headerHashKey number, value) = some ⟨number, bytesToHash value⟩ := by
  have suffix : (headerHashKey number).drop 9 = headerHashSuffix :=
    List.drop_left' (length_headerKeyPrefix number)
  simp [canonicalEntry, suffix, headerPrefix_eq]

/-- A key between two canonical-hash keys with their length and suffix is the canonical-hash
key of the number it carries. -/
theorem eq_headerHashKey_of_between {key : Bytes} {lower upper : UInt64}
    (length : key.length = headerPrefix.length + 8 + 1)
    (suffix : key.drop (key.length - 1) = headerHashSuffix)
    (above : headerHashKey lower ≤ key) (below : key < headerHashKey upper) :
    key = headerHashKey (keyNumber key) := by
  obtain _ | ⟨byte, rest⟩ := key
  · simp at length
  have restLength : rest.length = 9 := by simpa [headerPrefix_eq] using length
  have last : rest.drop 8 = headerHashSuffix := by simpa [restLength] using suffix
  have first : byte = 104 := by
    simp only [headerHashKey, headerKeyPrefix, headerPrefix_eq, List.singleton_append,
      List.append_assoc] at above below
    rcases Bytes.cons_lt_cons_iff.mp below with smaller | ⟨same, -⟩
    · exact absurd (Bytes.cons_lt_cons_iff.mpr (.inl smaller)) (not_lt.mpr above)
    · exact same
  subst first
  have number : keyNumber (104 :: rest) = bigEndianUint64 (rest.take 8) := by
    simp [keyNumber, headerPrefix_eq]
  rw [number, headerHashKey, headerKeyPrefix,
    encodeBlockNumber_bigEndianUint64 (by simp [restLength]),
    ← last, List.append_assoc, List.take_append_drop, headerPrefix_eq, List.singleton_append]

/-- Between the scan's bounds, the entries `ReadAllCanonicalHashes` keeps are the canonical
mappings. -/
theorem canonicalEntry_of_between {entry : Bytes × Bytes} {lower upper : UInt64}
    (above : headerHashKey lower ≤ entry.1) (below : entry.1 < headerHashKey upper) :
    canonicalEntry entry =
      if entry.1 = headerHashKey (keyNumber entry.1) then
        some ⟨keyNumber entry.1, bytesToHash entry.2⟩
      else none := by
  split_ifs with canonical
  · obtain ⟨key, value⟩ := entry
    have stored := canonicalEntry_headerHashKey (keyNumber key) value
    rwa [← canonical] at stored
  · rw [canonicalEntry, if_neg]
    rintro ⟨length, suffix⟩
    exact canonical (eq_headerHashKey_of_between length suffix above below)

/-! ## The store's headers and canonical mappings, by block number -/

theorem eq_headerKey_of_mem {key : Bytes} {header : NumberHash}
    (found : header ∈ if headerPrefix <+: key then headerEntry key else none) :
    key = headerKey header.number header.hash := by
  split_ifs at found with underPrefix
  · exact (headerEntry_eq_some underPrefix).mp found
  · simp at found

theorem eq_headerHashKey_of_mem {entry : Bytes × Bytes} {mapping : NumberHash}
    (found : mapping ∈ if entry.1 = headerHashKey (keyNumber entry.1) then
      some ⟨keyNumber entry.1, bytesToHash entry.2⟩ else none) :
    entry.1 = headerHashKey mapping.number := by
  split_ifs at found with canonical
  · rw [Option.mem_def, Option.some.injEq] at found
    rwa [← found]
  · simp at found

theorem storedHeaders_sorted (db : KeyValueStore) :
    (storedHeaders db).Pairwise fun header header' => header.number ≤ header'.number :=
  db.sorted.filterMap _ fun _ _ lt _ found _ found' => by
    rw [eq_headerKey_of_mem found, eq_headerKey_of_mem found'] at lt
    exact headerKey_lt_headerKey lt

theorem storedCanonical_sorted (db : KeyValueStore) :
    (storedCanonical db).Pairwise fun mapping mapping' => mapping.number < mapping'.number :=
  db.sorted.filterMap _ fun _ _ lt _ found _ found' => by
    rw [eq_headerHashKey_of_mem found, eq_headerHashKey_of_mem found'] at lt
    exact headerHashKey_lt_headerHashKey_iff.mp lt

/-- The store's canonical mappings at one height are what `get` reads there. -/
theorem storedCanonical_filter_number (db : KeyValueStore) (number : UInt64) :
    (storedCanonical db).filter (fun mapping => mapping.number = number) =
      ((db.get (headerHashKey number)).map fun value => ⟨number, bytesToHash value⟩).toList := by
  rw [storedCanonical, List.filter_filterMap, ← KeyValueStore.filterMap_key_eq]
  congr 1
  funext entry
  obtain ⟨key, value⟩ := entry
  by_cases here : key = headerHashKey number
  · subst here
    simp
  · by_cases canonical : key = headerHashKey (keyNumber key)
    · have other : keyNumber key ≠ number := fun same => here (same ▸ canonical)
      simp only [if_pos canonical, if_neg here, Option.filter_some, other, decide_False]
      rfl
    · simp only [if_neg canonical, if_neg here, Option.filter_none]

section Split

variable (headers : List NumberHash)

/-- In a list ascending by block number where every number `p` keeps is below every number
`q` keeps, the entries kept by either are those kept by `p`, then those kept by `q`. -/
theorem filter_or_of_sorted (sorted : headers.Pairwise fun h h' => h.number ≤ h'.number)
    (p q : NumberHash → Bool) (below : ∀ h h', p h → q h' → h.number < h'.number) :
    headers.filter (fun h => p h || q h) = headers.filter p ++ headers.filter q := by
  induction headers with
  | nil => rfl
  | cons h rest ih =>
      rw [List.pairwise_cons] at sorted
      by_cases kept : p h
      · have skipped : q h = false := by
          by_contra taken
          exact UInt64.lt_irrefl _ (below h h kept (by simpa using taken))
        simp [List.filter_cons, kept, skipped, ih sorted.2]
      · by_cases taken : q h
        · have none : rest.filter p = [] := List.filter_eq_nil_iff.mpr fun h' mem kept' =>
            absurd (UInt64.le_iff_toNat_le.mp (sorted.1 h' mem))
              (Nat.not_le.mpr (UInt64.lt_iff_toNat_lt.mp (below h' h kept' taken)))
          simp [List.filter_cons, kept, taken, ih sorted.2, none]
        · simp [List.filter_cons, kept, taken, ih sorted.2]

/-- A list ascending by block number, split height by height over `a, …, a + count - 1`,
gives its entries in that range. -/
theorem flatMap_filter_number (sorted : headers.Pairwise fun h h' => h.number ≤ h'.number)
    (a count : Nat) (fits : a + count ≤ UInt64.size) :
    (List.range' a count).flatMap (fun n => headers.filter fun h => h.number = UInt64.ofNat n) =
      headers.filter fun h => a ≤ h.number.toNat ∧ h.number.toNat < a + count := by
  induction count generalizing a with
  | zero => simp
  | succ count ih =>
      have bound : a < UInt64.size := by omega
      have atA : ∀ h : NumberHash, h.number = UInt64.ofNat a ↔ h.number.toNat = a := fun h => by
        rw [UInt64.eq_iff_toNat_eq, UInt64.toNat_ofNat_of_lt bound]
      rw [List.range'_succ, List.flatMap_cons, ih (a + 1) (by omega),
        ← filter_or_of_sorted headers sorted _ _ fun h h' here later => by
          rw [decide_eq_true_eq, atA] at here
          rw [decide_eq_true_eq] at later
          exact UInt64.lt_iff_toNat_lt.mpr (by omega)]
      refine List.filter_congr fun h _ => ?_
      rw [Bool.eq_iff_iff, Bool.or_eq_true, decide_eq_true_eq, decide_eq_true_eq,
        decide_eq_true_eq, atA]
      omega

end Split

/-! ## The loops over a sorted store -/

/-- Over entries whose headers come in ascending block number, the loop of
`ReadAllHashesInRange` returns their headers up to `last`: its `break` cuts nothing. -/
theorem collectHeaders_eq (last : UInt64) (entries : List (Bytes × Bytes))
    (ordered : entries.Pairwise fun entry entry' => ∀ header ∈ headerEntry entry.1,
      ∀ header' ∈ headerEntry entry'.1, header.number ≤ header'.number) :
    collectHeaders last entries =
      (entries.filterMap fun entry => headerEntry entry.1).filter
        fun header => header.number ≤ last := by
  induction entries with
  | nil => rfl
  | cons entry rest ih =>
      rw [List.pairwise_cons] at ordered
      rcases found : headerEntry entry.1 with _ | header
      · simp [collectHeaders, found, ih ordered.2]
      · by_cases above : header.number > last
        · have none : (rest.filterMap fun entry => headerEntry entry.1).filter
              (fun header => header.number ≤ last) = [] := by
            refine List.filter_eq_nil_iff.mpr fun header' mem => ?_
            obtain ⟨entry', mem', found'⟩ := List.mem_filterMap.mp mem
            have ascending := UInt64.le_iff_toNat_le.mp
              (ordered.1 entry' mem' header found header' found')
            have beyond := UInt64.lt_iff_toNat_lt.mp above
            simpa [UInt64.le_iff_toNat_le] using by omega
          simp [collectHeaders, found, above, none]
        · have kept : header.number ≤ last :=
            UInt64.le_iff_toNat_le.mpr (Nat.le_of_not_lt (mt UInt64.lt_iff_toNat_lt.mpr above))
          simp [collectHeaders, found, above, kept, ih ordered.2]

/-- Over entries in ascending key order, the loop of `ReadAllCanonicalHashes` appends to its
accumulators the mappings before `endKey`, as many as `limit` leaves room for. -/
theorem collectCanonical_eq (endKey : Bytes) (limit : Int) (entries : List (Bytes × Bytes))
    (sorted : entries.Pairwise fun entry entry' => entry.1 < entry'.1)
    (numbers : List UInt64) (hashes : List Hash) (room : numbers.length < limit) :
    collectCanonical endKey limit entries numbers hashes =
      (numbers ++ (((entries.filter fun entry => entry.1 < endKey).filterMap
          canonicalEntry).take (limit.toNat - numbers.length)).map NumberHash.number,
        hashes ++ (((entries.filter fun entry => entry.1 < endKey).filterMap
          canonicalEntry).take (limit.toNat - numbers.length)).map NumberHash.hash) := by
  induction entries generalizing numbers hashes with
  | nil => simp [collectCanonical]
  | cons entry rest ih =>
      rw [List.pairwise_cons] at sorted
      by_cases stop : endKey ≤ entry.1
      · have none : rest.filter (fun entry => entry.1 < endKey) = [] :=
          List.filter_eq_nil_iff.mpr fun entry' mem => by
            simpa using (lt_of_le_of_lt stop (sorted.1 entry' mem)).le
        simp [collectCanonical, stop, none, not_lt.mpr stop]
      · have before : entry.1 < endKey := lt_of_not_le stop
        rcases found : canonicalEntry entry with _ | mapping
        · simp [collectCanonical, stop, before, found, ih sorted.2 numbers hashes room]
        · rw [collectCanonical, if_neg stop, found]
          dsimp only
          by_cases full : limit ≤ (numbers ++ [mapping.number]).length
          · have one : limit.toNat - numbers.length = 1 := by simp at full; omega
            rw [if_pos full]
            simp [before, found, one]
          · have room' : (numbers ++ [mapping.number]).length < limit := by omega
            have step : limit.toNat - numbers.length = limit.toNat - (numbers.length + 1) + 1 := by
              simp at room'; omega
            rw [if_neg full, ih sorted.2 _ _ room']
            simp [before, found, step]

/-! ## `ReadAllHashes` and `ReadAllHashesInRange` -/

theorem headerFamily_le_headerKey_iff {first number : UInt64} {hash : Hash} :
    headerPrefix ++ encodeBlockNumber first ≤ headerKey number hash ↔ first ≤ number := by
  rw [← List.append_nil (headerPrefix ++ encodeBlockNumber first), headerKey, headerKeyPrefix,
    headerFamily_le_iff]
  simp only [List.nil_le, and_true, UInt64.le_iff_toNat_le, UInt64.lt_iff_toNat_lt,
    UInt64.eq_iff_toNat_eq]
  omega

theorem newIterator_headers_ordered (db : KeyValueStore) (start : Bytes) :
    (db.newIterator headerPrefix start).Pairwise fun entry entry' =>
      ∀ header ∈ headerEntry entry.1, ∀ header' ∈ headerEntry entry'.1,
        header.number ≤ header'.number := by
  refine (db.sorted.filter _).imp_of_mem fun mem mem' lt header found header' found' => ?_
  simp only [KeyValueStore.newIterator, List.mem_filter, decide_eq_true_eq] at mem mem'
  rw [(headerEntry_eq_some mem.2.1).mp found, (headerEntry_eq_some mem'.2.1).mp found'] at lt
  exact headerKey_lt_headerKey lt

theorem headerKeyPrefix_prefix_headerKey (number : UInt64) (hash : Hash) :
    headerKeyPrefix number <+: headerKey number hash :=
  List.prefix_append _ _

theorem headerPrefix_prefix_headerKey (number : UInt64) (hash : Hash) :
    headerPrefix <+: headerKey number hash :=
  ⟨encodeBlockNumber number ++ hash.bytes, by simp [headerKey, headerKeyPrefix]⟩

/-- The headers of `ReadAllHashesInRange`'s iterator are the store's headers from `first`
on. -/
theorem filterMap_newIterator_headers (db : KeyValueStore) (first : UInt64) :
    (db.newIterator headerPrefix (encodeBlockNumber first)).filterMap
        (fun entry => headerEntry entry.1) =
      (storedHeaders db).filter fun header => first ≤ header.number := by
  rw [KeyValueStore.newIterator, List.filterMap_filter, storedHeaders, List.filter_filterMap]
  congr 1
  funext entry
  obtain ⟨key, value⟩ := entry
  by_cases underPrefix : headerPrefix <+: key
  · rcases found : headerEntry key with _ | header
    · simp [underPrefix, found]
    · obtain rfl := (headerEntry_eq_some underPrefix).mp found
      by_cases after : first ≤ header.number <;>
        simp [underPrefix, found, after, headerFamily_le_headerKey_iff, Option.filter_some]
  · simp [underPrefix]

/-- `ReadAllHashes` returns the hashes of the store's headers at `number`, in key order. -/
theorem readAllHashes_eq (db : KeyValueStore) (number : UInt64) :
    readAllHashes db number =
      ((storedHeaders db).filter fun header => header.number = number).map NumberHash.hash := by
  rw [readAllHashes, KeyValueStore.newIterator, List.filterMap_filter, storedHeaders,
    List.filter_filterMap, List.map_filterMap]
  congr 1
  funext entry
  obtain ⟨key, value⟩ := entry
  by_cases stored : ∃ hash, key = headerKey number hash
  · obtain ⟨hash, rfl⟩ := stored
    have rest : (headerKey number hash).drop 9 = hash.bytes :=
      List.drop_left' (length_headerKeyPrefix number)
    have atOrAfter : headerKeyPrefix number ≤ headerKey number hash := by
      simpa using (Bytes.append_le_append_iff rfl).mpr (.inr ⟨rfl, List.nil_le⟩ :
        headerKeyPrefix number < headerKeyPrefix number ∨
          headerKeyPrefix number = headerKeyPrefix number ∧ [] ≤ hash.bytes)
    simp [headerKeyPrefix_prefix_headerKey, headerPrefix_prefix_headerKey, atOrAfter, rest,
      Option.filter_some]
  · have left : ¬(headerKeyPrefix number <+: key ∧
        key.length = (headerKeyPrefix number).length + 32) := by
      rintro ⟨⟨rest, rfl⟩, length⟩
      exact stored ⟨⟨rest, by simp at length; omega⟩, rfl⟩
    have right : ∀ header ∈ (if headerPrefix <+: key then headerEntry key else none),
        header.number ≠ number := fun header found same =>
      stored ⟨header.hash, same ▸ eq_headerKey_of_mem found⟩
    have none : Option.map NumberHash.hash (Option.filter (fun header => header.number = number)
        (if headerPrefix <+: key then headerEntry key else none)) = none := by
      rcases kept : (if headerPrefix <+: key then headerEntry key else none) with _ | header
      · rfl
      · simp [Option.filter_some, right header kept]
    dsimp only
    rw [none]
    split_ifs with both length
    · exact absurd ⟨(of_decide_eq_true both).1, length⟩ left
    all_goals rfl

/-- `ReadAllHashes` at `number`, each hash paired with `number`: the store's headers there. -/
theorem map_readAllHashes (db : KeyValueStore) (number : UInt64) :
    (readAllHashes db number).map (NumberHash.mk number) =
      (storedHeaders db).filter fun header => header.number = number := by
  rw [readAllHashes_eq, List.map_map]
  conv_rhs => rw [← List.map_id ((storedHeaders db).filter _)]
  refine List.map_congr_left fun header mem => ?_
  simp only [List.mem_filter, decide_eq_true_eq] at mem
  simp [← mem.2]

/-- Whenever `makeslice` accepts the capacity `1+last-first`, `ReadAllHashesInRange`
returns `ReadAllHashes` of every height from `first` to `last`, in order, each hash paired
with its height; otherwise it panics. -/
theorem readAllHashesInRange_eq (db : KeyValueStore) (first last : UInt64) :
    readAllHashesInRange db first last =
      if makeSliceFits (1 + last - first) then
        .returns ((heights first last).flatMap fun number =>
          (readAllHashes db number).map (NumberHash.mk number))
      else .panics := by
  have fits : first.toNat + (last.toNat + 1 - first.toNat) ≤ UInt64.size := by
    have := first.toNat_lt_size
    have := last.toNat_lt_size
    omega
  have scan : collectHeaders last (db.newIterator headerPrefix (encodeBlockNumber first)) =
      (heights first last).flatMap fun number =>
        (readAllHashes db number).map (NumberHash.mk number) := by
    rw [collectHeaders_eq _ _ (newIterator_headers_ordered db _), filterMap_newIterator_headers,
      List.filter_filter, heights, List.flatMap_map]
    simp only [map_readAllHashes]
    rw [flatMap_filter_number _ (storedHeaders_sorted db) _ _ fits]
    refine List.filter_congr fun header _ => ?_
    rw [Bool.eq_iff_iff, Bool.and_eq_true, decide_eq_true_eq, decide_eq_true_eq,
      decide_eq_true_eq, UInt64.le_iff_toNat_le, UInt64.le_iff_toNat_le]
    omega
  rw [readAllHashesInRange, scan]

theorem readAllHashesInRange_reversed_panics (db : KeyValueStore) :
    readAllHashesInRange db 2 0 = .panics ∧
      (heights 2 0).flatMap (fun number => (readAllHashes db number).map (NumberHash.mk number)) =
        [] :=
  ⟨if_neg (by decide), rfl⟩

/-! ## `ReadAllCanonicalHashes` -/

/-- The canonical mappings before `headerHashKey to` in `ReadAllCanonicalHashes`' iterator
are the store's mappings at the heights `from ≤ n < to`. -/
theorem canonicalScan_eq (db : KeyValueStore) («from» «to» : UInt64) :
    ((db.newIterator [] (headerHashKey «from»)).filter fun entry =>
        entry.1 < headerHashKey «to»).filterMap canonicalEntry =
      (storedCanonical db).filter fun mapping =>
        «from» ≤ mapping.number ∧ mapping.number < «to» := by
  rw [KeyValueStore.newIterator, List.filter_filter, List.filterMap_filter, storedCanonical,
    List.filter_filterMap]
  congr 1
  funext entry
  obtain ⟨key, value⟩ := entry
  simp only [List.nil_prefix, true_and, List.nil_append, Bool.and_eq_true, decide_eq_true_eq]
  by_cases canonical : key = headerHashKey (keyNumber key)
  · have inRange : (key < headerHashKey «to» ∧ headerHashKey «from» ≤ key) ↔
        («from» ≤ keyNumber key ∧ keyNumber key < «to») := by
      rw [canonical]
      simp [and_comm]
    have stored := canonicalEntry_headerHashKey (keyNumber key) value
    rw [← canonical] at stored
    by_cases within : «from» ≤ keyNumber key ∧ keyNumber key < «to» <;>
      simp [canonical.symm, stored, inRange, within, Option.filter_some]
  · simp only [if_neg canonical, Option.filter_none]
    split_ifs with between
    · rw [canonicalEntry_of_between between.2 between.1, if_neg canonical]
    · rfl

/-- The canonical mappings at the heights `from ≤ n < to` are the store's mappings there. -/
theorem canonicalMappings_eq_filter (db : KeyValueStore) («from» «to» : UInt64) :
    canonicalMappings db «from» «to» =
      (storedCanonical db).filter fun mapping =>
        «from» ≤ mapping.number ∧ mapping.number < «to» := by
  have fits : «from».toNat + («to».toNat - «from».toNat) ≤ UInt64.size := by
    have := «from».toNat_lt_size
    have := «to».toNat_lt_size
    omega
  have ascending := (storedCanonical_sorted db).imp fun lt =>
    UInt64.le_iff_toNat_le.mpr (UInt64.lt_iff_toNat_lt.mp lt).le
  rw [canonicalMappings, List.filterMap_eq_flatMap_toList]
  simp only [← storedCanonical_filter_number]
  rw [flatMap_filter_number _ ascending _ _ fits]
  refine List.filter_congr fun mapping _ => ?_
  rw [Bool.eq_iff_iff, decide_eq_true_eq, decide_eq_true_eq, UInt64.le_iff_toNat_le,
    UInt64.lt_iff_toNat_lt]
  omega

/-- With a positive `limit`, `ReadAllCanonicalHashes` returns the first `limit` canonical
mappings of its range, split into numbers and hashes. -/
theorem readAllCanonicalHashes_eq_take (db : KeyValueStore) («from» «to» : UInt64) (limit : Int)
    (positive : 1 ≤ limit) :
    readAllCanonicalHashes db «from» «to» limit =
      (((canonicalMappings db «from» «to»).take limit.toNat).map NumberHash.number,
        ((canonicalMappings db «from» «to»).take limit.toNat).map NumberHash.hash) := by
  rw [readAllCanonicalHashes, if_neg (by omega),
    collectCanonical_eq _ _ (db.newIterator [] _) (db.sorted.filter _) [] [] (by simp; omega),
    canonicalScan_eq,
    canonicalMappings_eq_filter]
  simp

/-- In a list ascending by block number, the entries after the first `count` are those
above the last of them. -/
theorem drop_eq_filter_of_getLast {mappings : List NumberHash}
    (sorted : mappings.Pairwise fun m m' => m.number < m'.number) {count : Nat}
    {last : NumberHash} (lastTaken : (mappings.take count).getLast? = some last) :
    mappings.drop count = mappings.filter fun m => last.number < m.number := by
  obtain ⟨before, taken⟩ := List.getLast?_eq_some_iff.mp lastTaken
  have split := List.take_append_drop count mappings
  rw [taken] at split
  rw [← split, List.pairwise_append, List.pairwise_append] at sorted
  obtain ⟨⟨-, -, beforeLast⟩, -, across⟩ := sorted
  conv_rhs => rw [← split]
  rw [List.filter_append, List.filter_append,
    List.filter_eq_nil_iff.mpr fun m mem => by
      have := UInt64.lt_iff_toNat_lt.mp (beforeLast m mem last (List.mem_singleton_self _))
      simp [UInt64.lt_iff_toNat_lt]; omega,
    List.filter_eq_self.mpr fun m mem =>
      decide_eq_true (across last (List.mem_append_right _ (List.mem_singleton_self _)) m mem)]
  simp [UInt64.lt_irrefl]

/-- Resuming from the number after the last one returned, the canonical mappings left are
exactly those not returned yet. -/
theorem canonicalMappings_resume (db : KeyValueStore) («from» «to» : UInt64) (limit : Int)
    (positive : 1 ≤ limit) {last : UInt64}
    (lastReturned : (readAllCanonicalHashes db «from» «to» limit).1.getLast? = some last) :
    canonicalMappings db (last + 1) «to» =
      (canonicalMappings db «from» «to»).drop limit.toNat := by
  rw [readAllCanonicalHashes_eq_take db «from» «to» limit positive, List.getLast?_map,
    Option.map_eq_some'] at lastReturned
  obtain ⟨mapping, lastTaken, rfl⟩ := lastReturned
  have sorted :
      (canonicalMappings db «from» «to»).Pairwise fun m m' => m.number < m'.number := by
    rw [canonicalMappings_eq_filter]
    exact (storedCanonical_sorted db).filter _
  have within : «from» ≤ mapping.number ∧ mapping.number < «to» := by
    have mem := List.mem_of_mem_take (List.mem_of_getLast?_eq_some lastTaken)
    rw [canonicalMappings_eq_filter] at mem
    simpa using (List.mem_filter.mp mem).2
  have below := UInt64.lt_iff_toNat_lt.mp within.2
  have above := UInt64.le_iff_toNat_le.mp within.1
  have next : (mapping.number + 1).toNat = mapping.number.toNat + 1 := by
    have := «to».toNat_lt_size
    exact UInt64.toNat_add_one (by omega)
  rw [drop_eq_filter_of_getLast sorted lastTaken, canonicalMappings_eq_filter,
    canonicalMappings_eq_filter, List.filter_filter]
  refine List.filter_congr fun m _ => ?_
  rw [Bool.eq_iff_iff, Bool.and_eq_true, decide_eq_true_eq, decide_eq_true_eq, decide_eq_true_eq]
  simp only [UInt64.le_iff_toNat_le, UInt64.lt_iff_toNat_lt, next]
  omega

theorem readAllCanonicalHashes_returns_prefix (db : KeyValueStore) («from» «to» : UInt64) :
    (∀ limit : Int, 1 ≤ limit →
      readAllCanonicalHashes db «from» «to» limit =
        (((canonicalMappings db «from» «to»).take limit.toNat).map NumberHash.number,
          ((canonicalMappings db «from» «to»).take limit.toNat).map NumberHash.hash)) ∧
    readAllCanonicalHashes db «from» «to» 0 = ([], []) ∧
    («to» ≤ «from» → canonicalMappings db «from» «to» = []) ∧
    ∀ (limit : Int) (last : UInt64), 1 ≤ limit →
      (readAllCanonicalHashes db «from» «to» limit).1.getLast? = some last →
        canonicalMappings db (last + 1) «to» =
          (canonicalMappings db «from» «to»).drop limit.toNat :=
  ⟨readAllCanonicalHashes_eq_take db «from» «to», rfl,
    fun empty => by
      rw [canonicalMappings, Nat.sub_eq_zero_of_le (UInt64.le_iff_toNat_le.mp empty)]
      rfl,
    fun limit _ positive lastReturned =>
      canonicalMappings_resume db «from» «to» limit positive lastReturned⟩

/-- A store holding the canonical hash of block 1 alone: scanned from 0 to 10 with a limit
of 1, resumed after the block returned, and scanned over the empty range from 10 to 10. -/
theorem readAllCanonicalHashes_returns_prefix_sample :
    let db := KeyValueStore.empty.put (headerHashKey 1) Hash.zero.bytes
    (1 : Int) ≤ 1 ∧ (readAllCanonicalHashes db 0 10 1).1.getLast? = some 1 ∧
      readAllCanonicalHashes db 0 10 1 =
        (((canonicalMappings db 0 10).take 1).map NumberHash.number,
          ((canonicalMappings db 0 10).take 1).map NumberHash.hash) ∧
      canonicalMappings db (1 + 1) 10 = (canonicalMappings db 0 10).drop 1 ∧
      canonicalMappings db 10 10 = [] :=
  have scanned := readAllCanonicalHashes_returns_prefix
    (KeyValueStore.empty.put (headerHashKey 1) Hash.zero.bytes) 0 10
  have emptyRange := readAllCanonicalHashes_returns_prefix
    (KeyValueStore.empty.put (headerHashKey 1) Hash.zero.bytes) 10 10
  ⟨le_rfl, by decide, scanned.1 1 le_rfl, scanned.2.2.2 1 1 le_rfl (by decide),
    emptyRange.2.2.1 (by decide)⟩

end Rawdb
