import Rawdb.Records

/-!
# The pivot, uptime and randomness caches

Three families of single keys hold values other packages decode: the last pivot block of
fast sync under `lastPivotKey`, the accumulated uptime of each epoch under `uptimeKey`,
and the parent hash of each randomness commitment under the key
`istanbul.RandomnessCommitmentDBLocation` gives it. `ReadLastPivotNumber` and
`ReadAccumulatedEpochUptime` decode with `rlp`, which is not in this repository, so their
decoders are parameters, as the location already is for the writers.

`Caches` is what the three readers return, and `WriterCall.onCaches` how each writer call
changes it. After any run of writers that completes, the readers return what the calls'
`onCaches` leave (`caches_run`), provided the decoders read back what the codec writes and
the location gives each commitment a key of its own that no other writer uses
(`FreshKey`).
-/

namespace Rawdb

/-! ## The readers -/

/-- `ReadLastPivotNumber`: `nil` for an empty value, else its decoding. -/
def readLastPivotNumber (decodePivot : Bytes → Option UInt64) (db : KeyValueStore) :
    Option UInt64 :=
  decodeRaw decodePivot ((db.get lastPivotKey).getD [])

/-- `ReadRandomCommitmentCache`: the zero hash when the key is missing, else the hash the
stored bytes make. -/
def readRandomCommitmentCache (location : Hash → Bytes) (db : KeyValueStore)
    (commitment : Hash) : Hash :=
  match db.get (location commitment) with
  | none => Hash.zero
  | some parentHash => bytesToHash parentHash

/-- `ReadAccumulatedEpochUptime`: `nil` for an empty value, else its decoding. -/
def readAccumulatedEpochUptime (decodeUptime : Bytes → Option Uptime) (db : KeyValueStore)
    (epoch : UInt64) : Option Uptime :=
  decodeRaw decodeUptime ((db.get (uptimeKey epoch)).getD [])

/-! ## The view -/

/-- What the three readers return. -/
@[ext]
structure Caches where
  lastPivot : Option UInt64
  commitment : Hash → Hash
  uptime : UInt64 → Option Uptime

/-- The view of a live store. -/
def caches (decodePivot : Bytes → Option UInt64) (decodeUptime : Bytes → Option Uptime)
    (location : Hash → Bytes) (db : KeyValueStore) : Caches :=
  ⟨readLastPivotNumber decodePivot db, readRandomCommitmentCache location db,
    readAccumulatedEpochUptime decodeUptime db⟩

/-- How a writer call changes the view: the three cache writers set their entry, every
other call leaves the view. -/
def WriterCall.onCaches (call : WriterCall) (view : Caches) : Caches :=
  match call with
  | .writeLastPivotNumber pivot => { view with lastPivot := some pivot }
  | .writeRandomCommitmentCache commitment parentHash =>
      { view with commitment := Function.update view.commitment commitment parentHash }
  | .writeAccumulatedEpochUptime epoch uptime =>
      { view with uptime := Function.update view.uptime epoch (some uptime) }
  | _ => view

/-- A key of none of the three families. -/
def OffCaches (location : Hash → Bytes) (key : Bytes) : Prop :=
  key ≠ lastPivotKey ∧ (∀ epoch, key ≠ uptimeKey epoch) ∧
    ∀ commitment, key ≠ location commitment

/-- The single keys of the other writers of this file. -/
def otherFixedKeys : List Bytes :=
  [headHeaderKey, headBlockKey, headFastBlockKey, fastTrieProgressKey, txIndexTailKey,
    fastTxLookupLimitKey, badBlockKey]

/-- A randomness key no other writer of this file uses. -/
def FreshKey (key : Bytes) : Prop :=
  OffRecords key ∧ (∀ hash, key ≠ headerNumberKey hash) ∧
    (∀ epoch, key ≠ uptimeKey epoch) ∧ key ≠ lastPivotKey ∧ key ∉ otherFixedKeys

theorem uptimeKey_injective {epoch epoch' : UInt64} (same : uptimeKey epoch = uptimeKey epoch') :
    epoch = epoch' :=
  encodeBlockNumber_inj.mp (List.append_cancel_left same)

@[simp]
theorem length_uptimeKey (epoch : UInt64) : (uptimeKey epoch).length = 14 := by
  simp [uptimeKey, asciiBytes]

theorem lastPivotKey_ne_uptimeKey (epoch : UInt64) : lastPivotKey ≠ uptimeKey epoch :=
  fun same => by simpa [lastPivotKey, asciiBytes] using congrArg List.length same

/-! ## What each write does to the view -/

section Writes

variable (decodePivot : Bytes → Option UInt64) (decodeUptime : Bytes → Option Uptime)
  {location : Hash → Bytes} (db : KeyValueStore)

theorem caches_apply_of_off (write : Write) (off : OffCaches location write.key) :
    caches decodePivot decodeUptime location (write.apply db) =
      caches decodePivot decodeUptime location db := by
  ext1
  · simp only [caches, readLastPivotNumber, write.get_apply_of_ne db off.1.symm]
  · funext commitment
    simp only [caches, readRandomCommitmentCache,
      write.get_apply_of_ne db (off.2.2 commitment).symm]
  · funext epoch
    simp only [caches, readAccumulatedEpochUptime, write.get_apply_of_ne db (off.2.1 epoch).symm]

theorem caches_applyWrites_of_off (writes : List Write)
    (off : ∀ write ∈ writes, OffCaches location write.key) :
    caches decodePivot decodeUptime location (applyWrites writes db) =
      caches decodePivot decodeUptime location db := by
  induction writes generalizing db with
  | nil => rfl
  | cons write writes ih =>
      rw [applyWrites_cons, ih _ fun write' mem => off write' (List.mem_cons_of_mem _ mem),
        caches_apply_of_off decodePivot decodeUptime db write (off write (List.mem_cons_self _ _))]

@[simp]
theorem caches_put_of_off {key : Bytes} (off : OffCaches location key) (value : Bytes) :
    caches decodePivot decodeUptime location (db.put key value) =
      caches decodePivot decodeUptime location db :=
  caches_apply_of_off decodePivot decodeUptime db (.put key value) off

@[simp]
theorem caches_delete_of_off {key : Bytes} (off : OffCaches location key) :
    caches decodePivot decodeUptime location (db.delete key) =
      caches decodePivot decodeUptime location db :=
  caches_apply_of_off decodePivot decodeUptime db (.delete key) off

variable (fresh : ∀ commitment, FreshKey (location commitment))
include fresh

theorem caches_put_lastPivotKey (value : Bytes) :
    caches decodePivot decodeUptime location (db.put lastPivotKey value) =
      { caches decodePivot decodeUptime location db with
        lastPivot := decodeRaw decodePivot value } := by
  ext1
  · simp [caches, readLastPivotNumber]
  · funext commitment
    simp [caches, readRandomCommitmentCache, (fresh commitment).2.2.2.1]
  · funext epoch
    simp [caches, readAccumulatedEpochUptime, (lastPivotKey_ne_uptimeKey epoch).symm]

theorem caches_put_uptimeKey (epoch : UInt64) (value : Bytes) :
    caches decodePivot decodeUptime location (db.put (uptimeKey epoch) value) =
      { caches decodePivot decodeUptime location db with
        uptime := Function.update (caches decodePivot decodeUptime location db).uptime epoch
          (decodeRaw decodeUptime value) } := by
  ext1
  · simp [caches, readLastPivotNumber, lastPivotKey_ne_uptimeKey]
  · funext commitment
    simp [caches, readRandomCommitmentCache, (fresh commitment).2.2.1 epoch]
  · funext epoch'
    by_cases same : epoch' = epoch
    · subst same
      simp [caches, readAccumulatedEpochUptime]
    · have other : uptimeKey epoch' ≠ uptimeKey epoch := fun equal =>
        same (uptimeKey_injective equal)
      simp [caches, readAccumulatedEpochUptime, same, other]

theorem caches_put_location (injective : Function.Injective location) (commitment : Hash)
    (value : Bytes) :
    caches decodePivot decodeUptime location (db.put (location commitment) value) =
      { caches decodePivot decodeUptime location db with
        commitment := Function.update (caches decodePivot decodeUptime location db).commitment
          commitment (bytesToHash value) } := by
  ext1
  · simp [caches, readLastPivotNumber, Ne.symm (fresh commitment).2.2.2.1]
  · funext commitment'
    by_cases same : commitment' = commitment
    · subst same
      simp [caches, readRandomCommitmentCache]
    · simp [caches, readRandomCommitmentCache, same, injective.ne same]
  · funext epoch
    simp [caches, readAccumulatedEpochUptime, Ne.symm ((fresh commitment).2.2.1 epoch)]

/-! The keys of the other writers are off the caches. -/

theorem offCaches_recordKey (table : Table) (number : UInt64) (hash : Hash) :
    OffCaches location (recordKey table number hash) :=
  ⟨(offRecords_fixedKeys lastPivotKey (by simp) table number hash).symm,
    fun epoch => (offRecords_uptimeKey epoch table number hash).symm,
    fun commitment => ((fresh commitment).1 table number hash).symm⟩

theorem offCaches_headerNumberKey (hash : Hash) : OffCaches location (headerNumberKey hash) :=
  ⟨fun same => by simpa [lastPivotKey, asciiBytes] using congrArg List.length same,
    fun epoch same => by simpa using congrArg List.length same,
    fun commitment => ((fresh commitment).2.1 hash).symm⟩

theorem offCaches_otherFixedKeys : ∀ key ∈ otherFixedKeys, OffCaches location key := by
  have notPivot : lastPivotKey ∉ otherFixedKeys := by decide
  have notUptime : ∀ key ∈ otherFixedKeys, key.length ≠ 14 := by decide
  intro key mem
  exact ⟨fun same => notPivot (same ▸ mem),
    fun epoch same => notUptime key mem (by rw [same, length_uptimeKey]),
    fun commitment same => (fresh commitment).2.2.2.2 (same ▸ mem)⟩

end Writes

/-! ## Runs of writer calls -/

section Runs

variable (codec : Codec) (sortReverse : List BadBlock → List BadBlock) (location : Hash → Bytes)
  (decodePivot : Bytes → Option UInt64) (decodeUptime : Bytes → Option Uptime)
  (pivotRoundTrip : ∀ pivot, decodeRaw decodePivot (codec.encodePivot pivot) = some pivot)
  (uptimeRoundTrip : ∀ uptime, decodeRaw decodeUptime (codec.encodeUptime uptime) = some uptime)
  (injective : Function.Injective location) (fresh : ∀ commitment, FreshKey (location commitment))
include pivotRoundTrip uptimeRoundTrip injective fresh

/-- The writes of one call change the view as the call's `onCaches` says. -/
theorem caches_call {call : WriterCall} {db : KeyValueStore} {writes : List Write}
    (issued : call.writes ⟨codec, sortReverse, location⟩ db = some writes) :
    caches decodePivot decodeUptime location (applyWrites writes db) =
      call.onCaches (caches decodePivot decodeUptime location db) := by
  have fixed := offCaches_otherFixedKeys fresh
  cases call <;> simp only [WriterCall.writes, Option.some.injEq] at issued
  case writeBadBlock block =>
    exact caches_applyWrites_of_off decodePivot decodeUptime db writes fun write mem =>
      key_of_mem_writeBadBlock issued write mem ▸ fixed _ (by simp [otherFixedKeys])
  all_goals
    subst issued
    simp [WriterCall.onCaches, fixed, otherFixedKeys, offCaches_recordKey fresh,
      offCaches_headerNumberKey fresh, caches_put_lastPivotKey decodePivot decodeUptime _ fresh,
      caches_put_uptimeKey decodePivot decodeUptime _ fresh,
      caches_put_location decodePivot decodeUptime _ fresh injective, pivotRoundTrip,
      uptimeRoundTrip, headerHashKey_eq_recordKey, headerKey_eq_recordKey,
      blockBodyKey_eq_recordKey, blockReceiptsKey_eq_recordKey, headerTDKey_eq_recordKey]

/-- After a run of writer calls that completes, `ReadLastPivotNumber`,
`ReadRandomCommitmentCache` and `ReadAccumulatedEpochUptime` return what the view holds
after the calls' `onCaches`, in order: the last pivot, parent hash and uptime written, and
what the store held where none was. -/
theorem caches_run (calls : List WriterCall) {db final : KeyValueStore}
    (ran : WriterCall.run ⟨codec, sortReverse, location⟩ calls db = some final) :
    caches decodePivot decodeUptime location final =
      calls.foldl (fun view call => call.onCaches view)
        (caches decodePivot decodeUptime location db) := by
  induction calls generalizing db with
  | nil =>
      cases Option.some.inj ran
      rfl
  | cons call calls ih =>
      obtain ⟨writes, issued, ran⟩ := Option.bind_eq_some.mp ran
      rw [List.foldl_cons, ← caches_call codec sortReverse location decodePivot decodeUptime
        pivotRoundTrip uptimeRoundTrip injective fresh issued]
      exact ih ran

end Runs

/-- A hash's own 32 bytes, as the randomness key, are a key no other writer uses. -/
theorem freshKey_bytes (commitment : Hash) : FreshKey commitment.bytes := by
  have notThirtyTwo : ∀ key ∈ otherFixedKeys, key.length ≠ 32 := by decide
  refine ⟨offRecords_bytes commitment, fun hash same => ?_, fun epoch same => ?_, fun same => ?_,
    fun mem => notThirtyTwo _ mem commitment.length_bytes⟩ <;>
    simpa [commitment.length_bytes, lastPivotKey, asciiBytes] using congrArg List.length same

/-- The pivot decoder of the samples: the big-endian number `sampleCodec` writes. -/
def samplePivot (data : Bytes) : Option UInt64 :=
  some (bigEndianUint64 data)

theorem Format.encode_uptime_ne_nil (uptime : Uptime) : Format.uptime.encode uptime ≠ [] :=
  List.append_ne_nil_of_left_ne_nil (Format.encode_list_ne_nil _ _) _

/-- A sample uptime record. -/
def cachesSampleUptime : Uptime :=
  ⟨[(1, 2)], 3⟩

/-- Writing a pivot, a randomness entry and an uptime record, then a block. -/
def cachesSampleCalls : List WriterCall :=
  [.writeLastPivotNumber 7,
    .writeRandomCommitmentCache Hash.zero (sampleHash roundTripSampleBlock.header),
    .writeAccumulatedEpochUptime 3 cachesSampleUptime, .writeBlock roundTripSampleBlock]

/-- The live store `cachesSampleCalls` leave. -/
def cachesSampleStore : KeyValueStore :=
  applyWrites (Rawdb.writeLastPivotNumber sampleCodec.toCodec 7 ++
      Rawdb.writeRandomCommitmentCache Hash.bytes Hash.zero
        (sampleHash roundTripSampleBlock.header) ++
      Rawdb.writeAccumulatedEpochUptime sampleCodec.toCodec 3 cachesSampleUptime ++
      Rawdb.writeBlock sampleCodec.toCodec roundTripSampleBlock)
    KeyValueStore.empty

theorem caches_run_sample :
    (∀ pivot, decodeRaw samplePivot (sampleCodec.encodePivot pivot) = some pivot) ∧
      (∀ uptime, decodeRaw Format.uptime.decodeAll (sampleCodec.encodeUptime uptime) =
        some uptime) ∧
      Function.Injective Hash.bytes ∧ (∀ commitment, FreshKey (Hash.bytes commitment)) ∧
      WriterCall.run ⟨sampleCodec.toCodec, mergeSortReverse.sort, Hash.bytes⟩ cachesSampleCalls
          KeyValueStore.empty = some cachesSampleStore ∧
      caches samplePivot Format.uptime.decodeAll Hash.bytes cachesSampleStore =
        cachesSampleCalls.foldl (fun view call => call.onCaches view)
          (caches samplePivot Format.uptime.decodeAll Hash.bytes KeyValueStore.empty) :=
  have pivotRoundTrip (pivot : UInt64) :
      decodeRaw samplePivot (sampleCodec.encodePivot pivot) = some pivot := by
    have nonempty : encodeBlockNumber pivot ≠ [] := List.ne_nil_of_length_pos (by simp)
    simp [decodeRaw, samplePivot, sampleCodec, nonempty]
  have uptimeRoundTrip (uptime : Uptime) :
      decodeRaw Format.uptime.decodeAll (sampleCodec.encodeUptime uptime) = some uptime := by
    simp [decodeRaw, sampleCodec, Format.encode_uptime_ne_nil]
  have injective : Function.Injective Hash.bytes := fun _ _ same => Hash.ext same
  ⟨pivotRoundTrip, uptimeRoundTrip, injective, freshKey_bytes, rfl,
    caches_run sampleCodec.toCodec mergeSortReverse.sort Hash.bytes samplePivot
      Format.uptime.decodeAll pivotRoundTrip uptimeRoundTrip injective freshKey_bytes
      cachesSampleCalls rfl⟩

example : readLastPivotNumber samplePivot cachesSampleStore = some 7 ∧
    readRandomCommitmentCache Hash.bytes cachesSampleStore Hash.zero =
      sampleHash roundTripSampleBlock.header ∧
    readAccumulatedEpochUptime Format.uptime.decodeAll cachesSampleStore 3 =
      some cachesSampleUptime := by
  decide

end Rawdb
