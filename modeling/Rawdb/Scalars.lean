import Rawdb.RoundTrip

/-!
# Single-value records

Beside the records of blocks, the live store holds values under keys of their own: the
three head hashes, the sync counters and the hash-to-number mappings of
`WriteHeaderNumber`. Their readers come in families. `ReadHeaderNumber`,
`ReadTxIndexTail` and `ReadFastTxLookupLimit` decode an 8-byte big-endian number and
return `nil` for a value of any other length (`readNumberAt`). `ReadHeadHeaderHash`,
`ReadHeadBlockHash` and `ReadHeadFastBlockHash` return the zero hash for an empty value
(`readHashAt`). `ReadFastTrieProgress` is alone of its kind: its writer stores the bytes
of a `big.Int`, without leading zeros, so that zero is stored as the empty slice, which
the reader takes for "not found" and answers with zero all the same.

What these readers return is the record `Scalars`, read off a store by `scalars`. A
write under any key changes the record as `Scalars.put` says, and a delete as a write of
the empty slice (`scalars_put`, `scalars_delete`). Each writer of a single value sets its
own field to the value written and leaves the others (`scalars_after_writers`), zero and
the full 64-bit width included.

Over runs of the writers of `Rawdb.Writers`, the record has an abstract model: each call
changes it as its `onScalars` says, the head and counter writers setting their field and
the mapping writers, the header writers and their deleters mapping and unmapping a hash
(`scalars_call`). The keys of the other records lie outside the record (`OffScalars`), and
so must the randomness-cache keys, which are a parameter. After a whole run, the readers
return what the abstract run holds (`scalars_run`).

`ReadHeadHeader` and `ReadHeadBlock` follow a head hash to its number and read the header
or the block there. Where the freezer has not reached that number, they return what the
record and the block view of `Rawdb.RoundTrip` give, and so, after a run, what the two
abstract runs give (`readHead_run`).

`ReadLastPivotNumber` decodes with `rlp`, outside this repository; it is modelled with the
decoder as a parameter, beside the other caches, in `Rawdb.Caches`.
-/

namespace Rawdb

/-! ## The readers -/

/-- The value check of `ReadHeaderNumber`, `ReadTxIndexTail` and `ReadFastTxLookupLimit`:
the number an 8-byte value holds, else `nil`. -/
def numberValue (data : Bytes) : Option UInt64 :=
  if data.length ≠ 8 then none else some (bigEndianUint64 data)

/-- The shared body of `ReadTxIndexTail` and `ReadFastTxLookupLimit`, at the reader's key. -/
def readNumberAt (db : KeyValueStore) (key : Bytes) : Option UInt64 :=
  numberValue ((db.get key).getD [])

/-- `ReadHeaderNumber` is the same reader, at the hash-to-number key. -/
theorem readHeaderNumber_eq_readNumberAt (db : KeyValueStore) (hash : Hash) :
    readHeaderNumber db hash = readNumberAt db (headerNumberKey hash) := rfl

/-- `ReadTxIndexTail`. -/
def readTxIndexTail (db : KeyValueStore) : Option UInt64 :=
  readNumberAt db txIndexTailKey

/-- `ReadFastTxLookupLimit`. -/
def readFastTxLookupLimit (db : KeyValueStore) : Option UInt64 :=
  readNumberAt db fastTxLookupLimitKey

/-- The value check of the head-hash readers: the zero hash for an empty value, else the
value as a hash. -/
def hashValue (data : Bytes) : Hash :=
  if data.length = 0 then Hash.zero else bytesToHash data

/-- The shared body of `ReadHeadHeaderHash`, `ReadHeadBlockHash` and
`ReadHeadFastBlockHash`, at the reader's key. -/
def readHashAt (db : KeyValueStore) (key : Bytes) : Hash :=
  hashValue ((db.get key).getD [])

/-- `ReadHeadHeaderHash`. -/
def readHeadHeaderHash (db : KeyValueStore) : Hash :=
  readHashAt db headHeaderKey

/-- `ReadHeadBlockHash`. -/
def readHeadBlockHash (db : KeyValueStore) : Hash :=
  readHashAt db headBlockKey

/-- `ReadHeadFastBlockHash`. -/
def readHeadFastBlockHash (db : KeyValueStore) : Hash :=
  readHashAt db headFastBlockKey

/-- The value check of `ReadFastTrieProgress`: zero for an empty value, else the low 64
bits (`big.Int.Uint64`) of the big-endian number the value holds. -/
def progressValue (data : Bytes) : UInt64 :=
  if data.length = 0 then 0 else UInt64.ofNat (decodeBigEndian data)

/-- `ReadFastTrieProgress`. -/
def readFastTrieProgress (db : KeyValueStore) : UInt64 :=
  progressValue ((db.get fastTrieProgressKey).getD [])

/-! ## Round trips of the values -/

@[simp]
theorem numberValue_encodeBlockNumber (number : UInt64) :
    numberValue (encodeBlockNumber number) = some number := by
  simp [numberValue]

@[simp]
theorem hashValue_bytes (hash : Hash) : hashValue hash.bytes = hash := by
  simp [hashValue, hash.length_bytes]

@[simp]
theorem numberValue_nil : numberValue [] = none := rfl

@[simp]
theorem hashValue_nil : hashValue [] = Hash.zero := rfl

@[simp]
theorem progressValue_nil : progressValue [] = 0 := rfl

/-- Leading zero bytes do not change a big-endian number. -/
theorem decodeBigEndian_dropWhile_zero (data : Bytes) :
    decodeBigEndian (data.dropWhile fun byte => byte = 0) = decodeBigEndian data := by
  induction data with
  | nil => rfl
  | cons byte rest ih =>
      by_cases zero : byte = 0
      · simp [List.dropWhile_cons, zero, ih, decodeBigEndian]
      · simp [List.dropWhile_cons, zero]

theorem decodeBigEndian_bigIntBytes (value : UInt64) :
    decodeBigEndian (bigIntBytes value) = value.toNat := by
  rw [bigIntBytes, decodeBigEndian_dropWhile_zero, encodeBlockNumber,
    decodeBigEndian_bigEndian, Nat.mod_eq_of_lt (UInt64.toNat_lt_two_pow value)]

/-- `ReadFastTrieProgress` reads back what `WriteFastTrieProgress` stores: for zero the
empty slice takes the "not found" branch, which answers zero. -/
@[simp]
theorem progressValue_bigIntBytes (count : UInt64) :
    progressValue (bigIntBytes count) = count := by
  have fits := decodeBigEndian_bigIntBytes count ▸ count.toNat_lt_size
  apply UInt64.eq_iff_toNat_eq.mpr
  rw [← decodeBigEndian_bigIntBytes count, progressValue]
  split_ifs with empty
  · rw [List.length_eq_zero.mp empty]
    rfl
  · exact UInt64.toNat_ofNat_of_lt fits

example : bigIntBytes 0 = [] := by decide

example : (bigIntBytes 18446744073709551615).length = 8 := by decide

/-! ## The record the readers return -/

/-- What the single-value readers return. -/
@[ext]
structure Scalars where
  headHeaderHash : Hash
  headBlockHash : Hash
  headFastBlockHash : Hash
  headerNumber : Hash → Option UInt64
  fastTrieProgress : UInt64
  txIndexTail : Option UInt64
  fastTxLookupLimit : Option UInt64

/-- The record a live store gives. -/
def scalars (db : KeyValueStore) : Scalars where
  headHeaderHash := readHeadHeaderHash db
  headBlockHash := readHeadBlockHash db
  headFastBlockHash := readHeadFastBlockHash db
  headerNumber := readHeaderNumber db
  fastTrieProgress := readFastTrieProgress db
  txIndexTail := readTxIndexTail db
  fastTxLookupLimit := readFastTxLookupLimit db

/-- The record after `value` is written under `key`: the field read from `key`, if any,
holds what its reader makes of `value`. -/
def Scalars.put (view : Scalars) (key value : Bytes) : Scalars where
  headHeaderHash := if headHeaderKey = key then hashValue value else view.headHeaderHash
  headBlockHash := if headBlockKey = key then hashValue value else view.headBlockHash
  headFastBlockHash :=
    if headFastBlockKey = key then hashValue value else view.headFastBlockHash
  headerNumber hash :=
    if headerNumberKey hash = key then numberValue value else view.headerNumber hash
  fastTrieProgress :=
    if fastTrieProgressKey = key then progressValue value else view.fastTrieProgress
  txIndexTail := if txIndexTailKey = key then numberValue value else view.txIndexTail
  fastTxLookupLimit :=
    if fastTxLookupLimitKey = key then numberValue value else view.fastTxLookupLimit

/-- A store that reads as `db` except under `key`, where it reads `value`, gives the record
`Scalars.put` says. -/
theorem scalars_of_getD {db db' : KeyValueStore} {key value : Bytes}
    (reads : ∀ probe, (db'.get probe).getD [] =
      if probe = key then value else (db.get probe).getD []) :
    scalars db' = (scalars db).put key value := by
  ext1 <;> (try funext hash) <;>
    simp only [scalars, Scalars.put, readHeadHeaderHash, readHeadBlockHash,
      readHeadFastBlockHash, readFastTrieProgress, readTxIndexTail, readFastTxLookupLimit,
      readHashAt, readNumberAt, readHeaderNumber_eq_readNumberAt, reads] <;>
    split_ifs <;> rfl

/-- A write changes the record as `Scalars.put` says. -/
theorem scalars_put (db : KeyValueStore) (key value : Bytes) :
    scalars (db.put key value) = (scalars db).put key value :=
  scalars_of_getD fun probe => by
    simp only [KeyValueStore.get_put]
    split_ifs <;> rfl

/-- A delete changes the record as a write of the empty slice would: every reader takes
the empty slice for "not found". -/
theorem scalars_delete (db : KeyValueStore) (key : Bytes) :
    scalars (db.delete key) = (scalars db).put key [] :=
  scalars_of_getD fun probe => by
    simp only [KeyValueStore.get_delete]
    split_ifs <;> rfl

/-- No hash-to-number key is one of the fixed keys: they differ in length. -/
theorem headerNumberKey_ne_of_length {key : Bytes} (short : key.length ≠ 33) (hash : Hash) :
    headerNumberKey hash ≠ key := fun same => short (same ▸ length_headerNumberKey hash)

theorem ne_headerNumberKey_of_length {key : Bytes} (short : key.length ≠ 33) (hash : Hash) :
    key ≠ headerNumberKey hash :=
  (headerNumberKey_ne_of_length short hash).symm

/-! A write under a single-value key sets that key's field and no other. -/

section OwnKeys

variable (view : Scalars) (value : Bytes)

@[simp]
theorem Scalars.put_headHeaderKey :
    view.put headHeaderKey value = { view with headHeaderHash := hashValue value } := by
  ext1 <;> (try funext hash) <;> simp +decide [Scalars.put, headerNumberKey_ne_of_length]

@[simp]
theorem Scalars.put_headBlockKey :
    view.put headBlockKey value = { view with headBlockHash := hashValue value } := by
  ext1 <;> (try funext hash) <;> simp +decide [Scalars.put, headerNumberKey_ne_of_length]

@[simp]
theorem Scalars.put_headFastBlockKey :
    view.put headFastBlockKey value = { view with headFastBlockHash := hashValue value } := by
  ext1 <;> (try funext hash) <;> simp +decide [Scalars.put, headerNumberKey_ne_of_length]

@[simp]
theorem Scalars.put_fastTrieProgressKey :
    view.put fastTrieProgressKey value =
      { view with fastTrieProgress := progressValue value } := by
  ext1 <;> (try funext hash) <;> simp +decide [Scalars.put, headerNumberKey_ne_of_length]

@[simp]
theorem Scalars.put_txIndexTailKey :
    view.put txIndexTailKey value = { view with txIndexTail := numberValue value } := by
  ext1 <;> (try funext hash) <;> simp +decide [Scalars.put, headerNumberKey_ne_of_length]

@[simp]
theorem Scalars.put_fastTxLookupLimitKey :
    view.put fastTxLookupLimitKey value =
      { view with fastTxLookupLimit := numberValue value } := by
  ext1 <;> (try funext hash) <;> simp +decide [Scalars.put, headerNumberKey_ne_of_length]

@[simp]
theorem Scalars.put_headerNumberKey (hash : Hash) :
    view.put (headerNumberKey hash) value =
      { view with headerNumber := Function.update view.headerNumber hash (numberValue value) } := by
  ext1 <;> (try funext hash') <;>
    simp +decide [Scalars.put, Function.update_apply, ne_headerNumberKey_of_length]

end OwnKeys

/-- Each writer of a single value sets its own field of the record to the value written
and leaves every other field. -/
theorem scalars_after_writers (db : KeyValueStore) (hash : Hash) (value : UInt64) :
    scalars (applyWrites (writeHeaderNumber hash value) db) =
        { scalars db with
          headerNumber := Function.update (scalars db).headerNumber hash (some value) } ∧
      scalars (applyWrites (writeTxIndexTail value) db) =
        { scalars db with txIndexTail := some value } ∧
      scalars (applyWrites (writeFastTxLookupLimit value) db) =
        { scalars db with fastTxLookupLimit := some value } ∧
      scalars (applyWrites (writeFastTrieProgress value) db) =
        { scalars db with fastTrieProgress := value } := by
  simp only [writeHeaderNumber, writeTxIndexTail, writeFastTxLookupLimit,
    writeFastTrieProgress, applyWrites_cons, applyWrites_nil, Write.apply_put, scalars_put,
    Scalars.put_headerNumberKey, Scalars.put_txIndexTailKey, Scalars.put_fastTxLookupLimitKey,
    Scalars.put_fastTrieProgressKey, numberValue_encodeBlockNumber, progressValue_bigIntBytes,
    and_self]

/-! ## Runs of writer calls -/

/-- The fixed keys of the single-value records. -/
def scalarKeys : List Bytes :=
  [headHeaderKey, headBlockKey, headFastBlockKey, fastTrieProgressKey, txIndexTailKey,
    fastTxLookupLimitKey]

/-- A key no single-value reader reads. -/
def OffScalars (key : Bytes) : Prop :=
  key ∉ scalarKeys ∧ key.length ≠ 33

/-- A write under a key no reader reads leaves the record. -/
@[simp]
theorem Scalars.put_of_offScalars (view : Scalars) {key : Bytes} (off : OffScalars key)
    (value : Bytes) : view.put key value = view := by
  obtain ⟨notFixed, notNumber⟩ := off
  simp only [scalarKeys, List.mem_cons, List.mem_nil_iff, or_false, not_or] at notFixed
  ext1 <;> (try funext hash) <;>
    simp [Scalars.put, Ne.symm notFixed.1, Ne.symm notFixed.2.1, Ne.symm notFixed.2.2.1,
      Ne.symm notFixed.2.2.2.1, Ne.symm notFixed.2.2.2.2.1, Ne.symm notFixed.2.2.2.2.2,
      headerNumberKey_ne_of_length notNumber]

/-- The fixed keys have lengths 8, 9, 10, 20 and 26, and start with `L`, `T` or `F`. -/
theorem shape_of_mem_scalarKeys {key : Bytes} (mem : key ∈ scalarKeys) :
    key.length ∈ [8, 9, 10, 20, 26] ∧ key.head? ∈ [some 76, some 84, some 70] := by
  revert key
  decide

theorem offScalars_of_shape {key : Bytes}
    (notFixed : key.length ∉ [8, 9, 10, 20, 26] ∨ key.head? ∉ [some 76, some 84, some 70])
    (notNumber : key.length ≠ 33) : OffScalars key :=
  ⟨fun mem => by
    obtain ⟨length, head⟩ := shape_of_mem_scalarKeys mem
    rcases notFixed with notLength | notHead
    · exact notLength length
    · exact notHead head, notNumber⟩

/-! The keys of the other writers lie outside the record: by length, or by their first byte
where the length is a fixed key's. -/

@[simp]
theorem offScalars_headerKey (number : UInt64) (hash : Hash) :
    OffScalars (headerKey number hash) :=
  offScalars_of_shape (.inl (by simp)) (by simp)

@[simp]
theorem offScalars_headerTDKey (number : UInt64) (hash : Hash) :
    OffScalars (headerTDKey number hash) :=
  offScalars_of_shape (.inl (by simp)) (by simp)

@[simp]
theorem offScalars_headerHashKey (number : UInt64) : OffScalars (headerHashKey number) :=
  offScalars_of_shape (.inr (by rw [show (headerHashKey number).head? = some 104 from rfl]; decide))
    (by simp)

@[simp]
theorem offScalars_blockBodyKey (number : UInt64) (hash : Hash) :
    OffScalars (blockBodyKey number hash) :=
  offScalars_of_shape (.inl (by simp)) (by simp)

@[simp]
theorem offScalars_blockReceiptsKey (number : UInt64) (hash : Hash) :
    OffScalars (blockReceiptsKey number hash) :=
  offScalars_of_shape (.inl (by simp)) (by simp)

@[simp]
theorem offScalars_uptimeKey (epoch : UInt64) : OffScalars (uptimeKey epoch) :=
  offScalars_of_shape (.inl (by simp [uptimeKey, asciiBytes])) (by simp [uptimeKey, asciiBytes])

@[simp]
theorem offScalars_lastPivotKey : OffScalars lastPivotKey :=
  ⟨by decide, by decide⟩

@[simp]
theorem offScalars_badBlockKey : OffScalars badBlockKey :=
  ⟨by decide, by decide⟩

theorem scalars_applyWrites_of_offScalars (writes : List Write) (db : KeyValueStore)
    (off : ∀ write ∈ writes, OffScalars write.key) :
    scalars (applyWrites writes db) = scalars db := by
  induction writes generalizing db with
  | nil => rfl
  | cons write writes ih =>
      have offHead := off write (List.mem_cons_self _ _)
      rw [applyWrites_cons, ih _ fun write' mem => off write' (List.mem_cons_of_mem _ mem)]
      cases write with
      | put key value =>
          exact (scalars_put db key value).trans ((scalars db).put_of_offScalars offHead value)
      | delete key =>
          exact (scalars_delete db key).trans ((scalars db).put_of_offScalars offHead [])

/-- How a writer call changes the record: the writers of the head hashes and the counters
set their field, `WriteHeaderNumber`, `WriteHeader` and `WriteBlock` map a hash to a
number, `DeleteHeaderNumber`, `DeleteHeader` and `DeleteBlock` unmap it, and the other
writers leave the record. -/
def WriterCall.onScalars (codec : Codec) (call : WriterCall) (view : Scalars) : Scalars :=
  match call with
  | .writeHeaderNumber hash number =>
      { view with headerNumber := Function.update view.headerNumber hash (some number) }
  | .deleteHeaderNumber hash =>
      { view with headerNumber := Function.update view.headerNumber hash none }
  | .writeHeadHeaderHash hash => { view with headHeaderHash := hash }
  | .writeHeadBlockHash hash => { view with headBlockHash := hash }
  | .writeHeadFastBlockHash hash => { view with headFastBlockHash := hash }
  | .writeFastTrieProgress count => { view with fastTrieProgress := count }
  | .writeTxIndexTail number => { view with txIndexTail := some number }
  | .writeFastTxLookupLimit number => { view with fastTxLookupLimit := some number }
  | .writeHeader header =>
      { view with
        headerNumber := Function.update view.headerNumber (codec.hash header) (some header.number) }
  | .deleteHeader hash _ =>
      { view with headerNumber := Function.update view.headerNumber hash none }
  | .writeBlock block =>
      { view with
        headerNumber :=
          Function.update view.headerNumber (codec.hash block.header) (some block.header.number) }
  | .deleteBlock hash _ =>
      { view with headerNumber := Function.update view.headerNumber hash none }
  | _ => view

section Runs

variable (codec : Codec) (sortReverse : List BadBlock → List BadBlock)
  (location : Hash → Bytes) (offLocation : ∀ commitment, OffScalars (location commitment))

include offLocation in
/-- The writes of one call change the record as the call's `onScalars` says. -/
theorem scalars_call {call : WriterCall} {db : KeyValueStore} {writes : List Write}
    (issued : call.writes ⟨codec, sortReverse, location⟩ db = some writes) :
    scalars (applyWrites writes db) = call.onScalars codec (scalars db) := by
  cases call <;> simp only [WriterCall.writes, Option.some.injEq] at issued
  case writeBadBlock block =>
    exact scalars_applyWrites_of_offScalars writes db
      (fun write mem => key_of_mem_writeBadBlock issued write mem ▸ offScalars_badBlockKey)
  all_goals
    subst issued
    simp [WriterCall.onScalars, offLocation, Block.hash, scalars_put, scalars_delete]

include offLocation in
/-- After a run of writer calls that completes, the single-value readers return what the
record holds after the calls' `onScalars`, in order. -/
theorem scalars_run (calls : List WriterCall) {db final : KeyValueStore}
    (ran : WriterCall.run ⟨codec, sortReverse, location⟩ calls db = some final) :
    scalars final = calls.foldl (fun view call => call.onScalars codec view) (scalars db) := by
  induction calls generalizing db with
  | nil =>
      cases Option.some.inj ran
      rfl
  | cons call calls ih =>
      obtain ⟨writes, issued, ran⟩ := Option.bind_eq_some.mp ran
      rw [List.foldl_cons, ← scalars_call codec sortReverse location offLocation issued]
      exact ih ran

end Runs

/-- A hash's own 32 bytes, as the randomness-cache key, lie outside the record. -/
theorem offScalars_bytes (commitment : Hash) : OffScalars commitment.bytes :=
  offScalars_of_shape (.inl (by simp [commitment.length_bytes]))
    (by simp [commitment.length_bytes])

/-- Writing a block, making it the head block with no trie progress, then deleting its
header. -/
def scalarsSampleCalls : List WriterCall :=
  [.writeBlock roundTripSampleBlock, .writeHeadBlockHash (sampleHash roundTripSampleBlock.header),
    .writeFastTrieProgress 0, .deleteHeader (sampleHash roundTripSampleBlock.header) 0]

/-- The live store `scalarsSampleCalls` leave. -/
def scalarsSampleStore : KeyValueStore :=
  applyWrites (Rawdb.writeBlock sampleCodec.toCodec roundTripSampleBlock ++
      Rawdb.writeHeadBlockHash (sampleHash roundTripSampleBlock.header) ++
      Rawdb.writeFastTrieProgress 0 ++
      Rawdb.deleteHeader (sampleHash roundTripSampleBlock.header) 0)
    KeyValueStore.empty

/-- After the sample calls, the single-value readers return what the abstract run holds. -/
theorem scalars_run_sample :
    (∀ commitment, OffScalars (Hash.bytes commitment)) ∧
      WriterCall.run ⟨sampleCodec.toCodec, mergeSortReverse.sort, Hash.bytes⟩ scalarsSampleCalls
          KeyValueStore.empty = some scalarsSampleStore ∧
      scalars scalarsSampleStore =
        scalarsSampleCalls.foldl (fun view call => call.onScalars sampleCodec.toCodec view)
          (scalars KeyValueStore.empty) :=
  ⟨offScalars_bytes, rfl,
    scalars_run sampleCodec.toCodec mergeSortReverse.sort Hash.bytes offScalars_bytes
      scalarsSampleCalls rfl⟩

example : readHeadBlockHash scalarsSampleStore = sampleHash roundTripSampleBlock.header ∧
    readHeaderNumber scalarsSampleStore (sampleHash roundTripSampleBlock.header) = none ∧
    readFastTrieProgress scalarsSampleStore = 0 := by
  decide

/-! ## The head header and the head block -/

/-- `ReadHeadHeader`: the header the head-header hash names, at the number its mapping
holds; `nil` for the zero hash or a hash with no number. -/
def readHeadHeader (codec : HeaderCodec) : Probe (Option Header) := do
  let hash := hashValue (← Probe.getData headHeaderKey)
  if hash = Hash.zero then return none
  match numberValue (← Probe.getData (headerNumberKey hash)) with
  | none => return none
  | some number => readHeader codec hash number

/-- `ReadHeadBlock`: the block the head-block hash names, at the number its mapping holds. -/
def readHeadBlock (codec : Codec) : Probe (Option (Header × Body)) := do
  let hash := hashValue (← Probe.getData headBlockKey)
  if hash = Hash.zero then return none
  match numberValue (← Probe.getData (headerNumberKey hash)) with
  | none => return none
  | some number => readBlock codec hash number

/-- What `ReadHeadHeader` assembles from the record and the block view. -/
def headHeader (view : Scalars) (blocks : BlockView) : Option Header :=
  if view.headHeaderHash = Hash.zero then none
  else (view.headerNumber view.headHeaderHash).bind fun number =>
    blocks.header (view.headHeaderHash, number)

/-- What `ReadHeadBlock` assembles from the record and the block view. -/
def headBlock (view : Scalars) (blocks : BlockView) : Option (Header × Body) :=
  if view.headBlockHash = Hash.zero then none
  else (view.headerNumber view.headBlockHash).bind fun number =>
    blocks.block view.headBlockHash number

/-- The freezer has not reached the number the record maps `hash` to. -/
def Database.UnfrozenAt (db : Database) (view : Scalars) (hash : Hash) : Prop :=
  ∀ number, view.headerNumber hash = some number → db.Unfrozen number

theorem readHeader_of_unfrozen (codec : HeaderCodec) {db : Database} {number : UInt64}
    (unfrozen : db.Unfrozen number) (hash : Hash) :
    (readHeader codec hash number).eval db =
      decodeRaw codec.decodeHeader ((db.live.get (headerKey number hash)).getD []) := by
  rw [eval_readHeader, readHeaderRLP_of_unfrozen unfrozen]
  rfl

theorem eval_readHeadHeader (codec : HeaderCodec) (db : Database) :
    (readHeadHeader codec).eval db =
      if (scalars db.live).headHeaderHash = Hash.zero then none
      else ((scalars db.live).headerNumber (scalars db.live).headHeaderHash).bind fun number =>
        (readHeader codec (scalars db.live).headHeaderHash number).eval db := by
  simp only [readHeadHeader, Probe.bind_eq, Probe.pure_eq, Probe.done_bind, Probe.eval_bind,
    Probe.eval_getData, apply_ite (Probe.eval db), Probe.eval_done, scalars, readHeadHeaderHash,
    readHashAt, readHeaderNumber_eq_readNumberAt, readNumberAt]
  split_ifs
  · rfl
  · cases numberValue ((db.live.get (headerNumberKey
      (hashValue ((db.live.get headHeaderKey).getD [])))).getD []) <;> rfl

theorem eval_readHeadBlock (codec : Codec) (db : Database) :
    (readHeadBlock codec).eval db =
      if (scalars db.live).headBlockHash = Hash.zero then none
      else ((scalars db.live).headerNumber (scalars db.live).headBlockHash).bind fun number =>
        (readBlock codec (scalars db.live).headBlockHash number).eval db := by
  simp only [readHeadBlock, Probe.bind_eq, Probe.pure_eq, Probe.done_bind, Probe.eval_bind,
    Probe.eval_getData, apply_ite (Probe.eval db), Probe.eval_done, scalars, readHeadBlockHash,
    readHashAt, readHeaderNumber_eq_readNumberAt, readNumberAt]
  split_ifs
  · rfl
  · cases numberValue ((db.live.get (headerNumberKey
      (hashValue ((db.live.get headBlockKey).getD [])))).getD []) <;> rfl

/-- Where the freezer has not reached the head header's number, `ReadHeadHeader` returns the
header the live record and view give. -/
theorem readHeadHeader_of_unfrozen (codec : Codec) {db : Database}
    (unfrozen : db.UnfrozenAt (scalars db.live) (scalars db.live).headHeaderHash) :
    (readHeadHeader codec.toHeaderCodec).eval db =
      headHeader (scalars db.live) (liveBlocks codec db.live) := by
  rw [eval_readHeadHeader, headHeader]
  split_ifs
  · rfl
  · cases mapped : (scalars db.live).headerNumber (scalars db.live).headHeaderHash with
    | none => rfl
    | some number => exact readHeader_of_unfrozen _ (unfrozen number mapped) _

/-- Where the freezer has not reached the head block's number, `ReadHeadBlock` returns the
block the live record and view give. -/
theorem readHeadBlock_of_unfrozen (codec : Codec) {db : Database}
    (unfrozen : db.UnfrozenAt (scalars db.live) (scalars db.live).headBlockHash) :
    (readHeadBlock codec).eval db = headBlock (scalars db.live) (liveBlocks codec db.live) := by
  rw [eval_readHeadBlock, headBlock]
  split_ifs
  · rfl
  · cases mapped : (scalars db.live).headerNumber (scalars db.live).headBlockHash with
    | none => rfl
    | some number => exact readBlock_of_unfrozen _ (unfrozen number mapped) _

/-- After a run of writer calls that completes, `ReadHeadHeader` and `ReadHeadBlock` return
what the abstract record and block view of the run give, where the freezer has not reached
the heads' numbers. -/
theorem readHead_run (codec : EntityCodec) (sortReverse : List BadBlock → List BadBlock)
    (location : Hash → Bytes) (offBlocks : ∀ commitment, OffBlocks (location commitment))
    (offScalars : ∀ commitment, OffScalars (location commitment)) (db : Database)
    (calls : List WriterCall) (final : KeyValueStore)
    (ran : WriterCall.run ⟨codec.toCodec, sortReverse, location⟩ calls db.live = some final)
    (unfrozenHeader : db.UnfrozenAt
      (calls.foldl (fun view call => call.onScalars codec.toCodec view) (scalars db.live))
      (calls.foldl (fun view call => call.onScalars codec.toCodec view)
        (scalars db.live)).headHeaderHash)
    (unfrozenBlock : db.UnfrozenAt
      (calls.foldl (fun view call => call.onScalars codec.toCodec view) (scalars db.live))
      (calls.foldl (fun view call => call.onScalars codec.toCodec view)
        (scalars db.live)).headBlockHash) :
    (readHeadHeader codec.toHeaderCodec).eval { db with live := final } =
        headHeader (calls.foldl (fun view call => call.onScalars codec.toCodec view)
            (scalars db.live))
          (calls.foldl (fun view call => call.onBlocks codec.toCodec view)
            (liveBlocks codec.toCodec db.live)) ∧
      (readHeadBlock codec.toCodec).eval { db with live := final } =
        headBlock (calls.foldl (fun view call => call.onScalars codec.toCodec view)
            (scalars db.live))
          (calls.foldl (fun view call => call.onBlocks codec.toCodec view)
            (liveBlocks codec.toCodec db.live)) := by
  have views := scalars_run codec.toCodec sortReverse location offScalars calls ran
  have blocks := liveBlocks_run codec sortReverse location offBlocks calls ran
  rw [← views] at unfrozenHeader unfrozenBlock
  rw [← views, ← blocks]
  exact ⟨readHeadHeader_of_unfrozen codec.toCodec unfrozenHeader,
    readHeadBlock_of_unfrozen codec.toCodec unfrozenBlock⟩

/-- Writing the sample block and making it the head header and the head block. -/
def headSampleCalls : List WriterCall :=
  [.writeBlock roundTripSampleBlock, .writeHeadHeaderHash (sampleHash roundTripSampleBlock.header),
    .writeHeadBlockHash (sampleHash roundTripSampleBlock.header)]

/-- The live store `headSampleCalls` leave. -/
def headSampleStore : KeyValueStore :=
  applyWrites (Rawdb.writeBlock sampleCodec.toCodec roundTripSampleBlock ++
      Rawdb.writeHeadHeaderHash (sampleHash roundTripSampleBlock.header) ++
      Rawdb.writeHeadBlockHash (sampleHash roundTripSampleBlock.header))
    KeyValueStore.empty

/-- After the sample calls, the head readers return what the abstract run gives. -/
theorem readHead_run_sample :
    (∀ commitment, OffBlocks (Hash.bytes commitment)) ∧
      (∀ commitment, OffScalars (Hash.bytes commitment)) ∧
      WriterCall.run ⟨sampleEntityCodec.toCodec, mergeSortReverse.sort, Hash.bytes⟩
          headSampleCalls emptySample.live = some headSampleStore ∧
      emptySample.UnfrozenAt
        (headSampleCalls.foldl (fun view call => call.onScalars sampleEntityCodec.toCodec view)
          (scalars emptySample.live))
        (headSampleCalls.foldl (fun view call => call.onScalars sampleEntityCodec.toCodec view)
          (scalars emptySample.live)).headHeaderHash ∧
      emptySample.UnfrozenAt
        (headSampleCalls.foldl (fun view call => call.onScalars sampleEntityCodec.toCodec view)
          (scalars emptySample.live))
        (headSampleCalls.foldl (fun view call => call.onScalars sampleEntityCodec.toCodec view)
          (scalars emptySample.live)).headBlockHash ∧
      (readHeadHeader sampleEntityCodec.toHeaderCodec).eval
          { emptySample with live := headSampleStore } =
        headHeader (headSampleCalls.foldl
            (fun view call => call.onScalars sampleEntityCodec.toCodec view)
            (scalars emptySample.live))
          (headSampleCalls.foldl (fun view call => call.onBlocks sampleEntityCodec.toCodec view)
            (liveBlocks sampleEntityCodec.toCodec emptySample.live)) ∧
      (readHeadBlock sampleEntityCodec.toCodec).eval { emptySample with live := headSampleStore } =
        headBlock (headSampleCalls.foldl
            (fun view call => call.onScalars sampleEntityCodec.toCodec view)
            (scalars emptySample.live))
          (headSampleCalls.foldl (fun view call => call.onBlocks sampleEntityCodec.toCodec view)
            (liveBlocks sampleEntityCodec.toCodec emptySample.live)) :=
  ⟨offBlocks_bytes, offScalars_bytes, rfl, fun number _ => emptySample_unfrozen number,
    fun number _ => emptySample_unfrozen number,
    readHead_run sampleEntityCodec mergeSortReverse.sort Hash.bytes offBlocks_bytes
      offScalars_bytes emptySample headSampleCalls headSampleStore rfl
      (fun number _ => emptySample_unfrozen number) (fun number _ => emptySample_unfrozen number)⟩

example : (readHeadBlock sampleEntityCodec.toCodec).eval
    { emptySample with live := headSampleStore } =
      some (roundTripSampleBlock.header, roundTripSampleBlock.body) := by
  decide

end Rawdb
