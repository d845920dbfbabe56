import Rawdb.Linearizable

/-!
# The records the writers leave

At a height the freezer has not reached, each raw reader returns the live value under one
record key, and each existence check asks whether that key is present. The live store,
seen through those keys, is a `RecordView`: the raw record of each table for each number
and hash, the canonical-hash table kept by number alone. The writers act on it in three
ways. `WriteCanonicalHash`, `WriteHeader`, `WriteBodyRLP`, `WriteBody`, `WriteTd`,
`WriteReceipts` and `WriteBlock` set records; the matching deleters, `DeleteBlock` and
`DeleteBlockWithoutNumber` clear them; the head hashes, the sync markers, the
hash-to-number mappings, the bad-block list, the uptime records and the randomness cache
touch none, the last under the assumption that its keys are no record keys
(`OffRecords`). A run of writers therefore changes the view as the calls' `onRecords`,
in order, do (`liveRecords_run`), and every reader of a record, `ReadTd`, `ReadRawReceipts`
and `ReadReceipts` included, returns after the run what the abstract run holds
(`reads_after_run`).

Two things the view makes plain: `DeleteBlock` leaves the canonical hash, so a deleted
canonical block's hash is still returned by `ReadCanonicalHash`; and a record written
empty, say by `WriteBodyRLP` with no bytes, is present for `HasBody` and absent for
`ReadBodyRLP`.

`ReadTd`, `ReadRawReceipts` and `ReadReceipts` decode what their raw reader returns with
`rlp` and, for `ReadReceipts`, `Receipts.DeriveFields`, none of which is in this
repository; their decoders are parameters.
-/

namespace Rawdb

open Probe

/-! ## The decoding readers -/

/-- `ReadTd`: the total difficulty `decodeTd` reads from `ReadTdRLP`, `none` when absent or
undecodable. -/
def readTd (decodeTd : Bytes → Option Nat) (hash : Hash) (number : UInt64) :
    Probe (Option Nat) := do
  let data ← readTdRLP hash number
  if data.isEmpty then return none
  return decodeTd data

/-- `ReadRawReceipts`: the storage receipts `decodeReceipts` reads from `ReadReceiptsRLP`. -/
def readRawReceipts (decodeReceipts : Bytes → Option (List Receipt)) (hash : Hash)
    (number : UInt64) : Probe (Option (List Receipt)) := do
  let data ← readReceiptsRLP hash number
  if data.isEmpty then return none
  return decodeReceipts data

/-- `ReadReceipts`: the raw receipts with the fields `deriveFields` derives from the
block's transactions; `nil` when the receipts or the body are missing or the derivation
fails. -/
def readReceipts {α : Type} (codec : Codec) (decodeReceipts : Bytes → Option (List Receipt))
    (deriveFields : List Receipt → Hash → UInt64 → List Transaction → Option α)
    (hash : Hash) (number : UInt64) : Probe (Option α) := do
  let some receipts ← readRawReceipts decodeReceipts hash number | return none
  let some body ← readBody codec hash number | return none
  return deriveFields receipts hash number body.transactions

section Quiescent

variable (db : Database) (hash : Hash) (number : UInt64)

theorem eval_readTd (decodeTd : Bytes → Option Nat) :
    (readTd decodeTd hash number).eval db =
      decodeRaw decodeTd ((readTdRLP hash number).eval db) := by
  simp only [readTd, bind_eq, pure_eq, eval_bind, apply_ite (eval db), eval_done, decodeRaw,
    List.isEmpty_iff]

theorem eval_readRawReceipts (decodeReceipts : Bytes → Option (List Receipt)) :
    (readRawReceipts decodeReceipts hash number).eval db =
      decodeRaw decodeReceipts ((readReceiptsRLP hash number).eval db) := by
  simp only [readRawReceipts, bind_eq, pure_eq, eval_bind, apply_ite (eval db), eval_done,
    decodeRaw, List.isEmpty_iff]

theorem eval_readReceipts {α : Type} (codec : Codec)
    (decodeReceipts : Bytes → Option (List Receipt))
    (deriveFields : List Receipt → Hash → UInt64 → List Transaction → Option α) :
    (readReceipts codec decodeReceipts deriveFields hash number).eval db =
      ((readRawReceipts decodeReceipts hash number).eval db).bind fun receipts =>
        ((readBody codec hash number).eval db).bind fun body =>
          deriveFields receipts hash number body.transactions := by
  simp only [readReceipts, bind_eq, pure_eq, eval_bind]
  cases (readRawReceipts decodeReceipts hash number).eval db <;> simp only [eval_bind] <;>
    cases (readBody codec hash number).eval db <;> rfl

end Quiescent

/-! ## The view -/

/-- The raw records at heights the freezer has not reached: by table, number and hash,
the canonical-hash table's by number alone. -/
abbrev RecordView := Table → UInt64 → Hash → Option Bytes

namespace RecordView

/-- The view with the record of `table` for block (`hash`, `number`) set to `value`; on the
canonical-hash table, the record of `number` whatever the hash. -/
def set (view : RecordView) (table : Table) (number : UInt64) (hash : Hash)
    (value : Option Bytes) : RecordView :=
  fun table' number' hash' =>
    if table' = table ∧ number' = number ∧ (table' = .hashTable ∨ hash' = hash) then value
    else view table' number' hash'

/-- The view with the block's receipts, header, body and total difficulty cleared, in the
order `DeleteBlock` deletes them. -/
def clearBlock (view : RecordView) (number : UInt64) (hash : Hash) : RecordView :=
  (((view.set .receiptTable number hash none).set .headerTable number hash none).set
    .bodiesTable number hash none).set .difficultyTable number hash none

/-- What a raw reader returns for the record: its bytes, empty when absent. -/
def read (view : RecordView) (table : Table) (number : UInt64) (hash : Hash) : Bytes :=
  (view table number hash).getD []

end RecordView

/-- How a writer call changes the view. -/
def WriterCall.onRecords (codec : Codec) (call : WriterCall) (view : RecordView) : RecordView :=
  match call with
  | .writeCanonicalHash hash number => view.set .hashTable number Hash.zero (some hash.bytes)
  | .deleteCanonicalHash number => view.set .hashTable number Hash.zero none
  | .writeHeader header =>
      view.set .headerTable header.number (codec.hash header) (some (codec.encodeHeader header))
  | .deleteHeader hash number => view.set .headerTable number hash none
  | .writeBodyRLP hash number rlp => view.set .bodiesTable number hash (some rlp)
  | .writeBody hash number body => view.set .bodiesTable number hash (some (codec.encodeBody body))
  | .deleteBody hash number => view.set .bodiesTable number hash none
  | .writeTd hash number td => view.set .difficultyTable number hash (some (codec.encodeTd td))
  | .deleteTd hash number => view.set .difficultyTable number hash none
  | .writeReceipts hash number receipts =>
      view.set .receiptTable number hash (some (codec.encodeReceipts receipts))
  | .deleteReceipts hash number => view.set .receiptTable number hash none
  | .writeBlock block =>
      (view.set .bodiesTable block.header.number (codec.hash block.header)
        (some (codec.encodeBody block.body))).set .headerTable block.header.number
        (codec.hash block.header) (some (codec.encodeHeader block.header))
  | .deleteBlock hash number => view.clearBlock number hash
  | .deleteBlockWithoutNumber hash number => view.clearBlock number hash
  | _ => view

/-- The abstract run: `view` changed by each call's `onRecords` in turn. -/
def recordsAfter (codec : Codec) (calls : List WriterCall) (view : RecordView) : RecordView :=
  calls.foldl (fun view call => call.onRecords codec view) view

/-! ## The view of a live store -/

/-- The view a live store gives. -/
def liveRecords (db : KeyValueStore) : RecordView :=
  fun table number hash => db.get (recordKey table number hash)

/-- A key that is no record key. -/
def OffRecords (key : Bytes) : Prop :=
  ∀ table number hash, key ≠ recordKey table number hash

theorem recordKey_eq_iff {table table' : Table} {number number' : UInt64} {hash hash' : Hash} :
    recordKey table number hash = recordKey table' number' hash' ↔
      table = table' ∧ number = number' ∧ (table = .hashTable ∨ hash = hash') := by
  refine ⟨recordKey_eq_recordKey, ?_⟩
  rintro ⟨rfl, rfl, rfl | rfl⟩ <;> rfl

/-- A key whose length and first byte no record family has is off the records. -/
theorem offRecords_of_shape {key : Bytes}
    (notShape : ∀ table, (key.length, key.head?) ≠ recordShape table) : OffRecords key := by
  rintro table number hash rfl
  exact notShape table (shape_recordKey table number hash)

section LiveRecords

variable (db : KeyValueStore)

theorem liveRecords_put_recordKey (table : Table) (number : UInt64) (hash : Hash)
    (value : Bytes) :
    liveRecords (db.put (recordKey table number hash) value) =
      (liveRecords db).set table number hash (some value) := by
  funext table' number' hash'
  simp only [liveRecords, RecordView.set, KeyValueStore.get_put, recordKey_eq_iff]

theorem liveRecords_delete_recordKey (table : Table) (number : UInt64) (hash : Hash) :
    liveRecords (db.delete (recordKey table number hash)) =
      (liveRecords db).set table number hash none := by
  funext table' number' hash'
  simp only [liveRecords, RecordView.set, KeyValueStore.get_delete, recordKey_eq_iff]

theorem liveRecords_apply_of_off (write : Write) (off : OffRecords write.key) :
    liveRecords (write.apply db) = liveRecords db := by
  funext table number hash
  exact write.get_apply_of_ne db (off table number hash).symm

theorem liveRecords_applyWrites_of_off (writes : List Write)
    (off : ∀ write ∈ writes, OffRecords write.key) :
    liveRecords (applyWrites writes db) = liveRecords db := by
  induction writes generalizing db with
  | nil => rfl
  | cons write writes ih =>
      rw [applyWrites_cons, ih _ fun write' mem => off write' (List.mem_cons_of_mem _ mem),
        liveRecords_apply_of_off db write (off write (List.mem_cons_self _ _))]

end LiveRecords

/-! The keys of the other writers are no record keys: by length, or by their first byte
where the length is a record key's. -/

@[simp]
theorem offRecords_headerNumberKey (hash : Hash) : OffRecords (headerNumberKey hash) :=
  offRecords_of_shape fun table => by cases table <;> simp [recordShape]

@[simp]
theorem offRecords_uptimeKey (epoch : UInt64) : OffRecords (uptimeKey epoch) :=
  offRecords_of_shape fun table => by cases table <;> simp [recordShape, uptimeKey, asciiBytes]

theorem offRecords_fixedKeys :
    ∀ key ∈ [headHeaderKey, headBlockKey, headFastBlockKey, lastPivotKey, fastTrieProgressKey,
      txIndexTailKey, fastTxLookupLimitKey, badBlockKey], OffRecords key := by
  simp only [List.mem_cons, List.mem_nil_iff, or_false]
  rintro key (rfl | rfl | rfl | rfl | rfl | rfl | rfl | rfl) <;>
    exact offRecords_of_shape fun table => by cases table <;> decide

/-! The record keys of the schema, as `recordKey`s. -/

theorem headerHashKey_eq_recordKey (number : UInt64) :
    headerHashKey number = recordKey .hashTable number Hash.zero := rfl

theorem headerKey_eq_recordKey (number : UInt64) (hash : Hash) :
    headerKey number hash = recordKey .headerTable number hash := rfl

theorem blockBodyKey_eq_recordKey (number : UInt64) (hash : Hash) :
    blockBodyKey number hash = recordKey .bodiesTable number hash := rfl

theorem blockReceiptsKey_eq_recordKey (number : UInt64) (hash : Hash) :
    blockReceiptsKey number hash = recordKey .receiptTable number hash := rfl

theorem headerTDKey_eq_recordKey (number : UInt64) (hash : Hash) :
    headerTDKey number hash = recordKey .difficultyTable number hash := rfl

@[simp]
theorem liveRecords_put_of_off (db : KeyValueStore) {key : Bytes} (off : OffRecords key)
    (value : Bytes) : liveRecords (db.put key value) = liveRecords db :=
  liveRecords_apply_of_off db (.put key value) off

@[simp]
theorem liveRecords_delete_of_off (db : KeyValueStore) {key : Bytes} (off : OffRecords key) :
    liveRecords (db.delete key) = liveRecords db :=
  liveRecords_apply_of_off db (.delete key) off

/-! ## Runs of writer calls -/

section Runs

variable (codec : Codec) (sortReverse : List BadBlock → List BadBlock) (location : Hash → Bytes)
  (offLocation : ∀ commitment, OffRecords (location commitment))
include offLocation

/-- The writes of one call change the view as the call's `onRecords` says. -/
theorem liveRecords_call {call : WriterCall} {db : KeyValueStore} {writes : List Write}
    (issued : call.writes ⟨codec, sortReverse, location⟩ db = some writes) :
    liveRecords (applyWrites writes db) = call.onRecords codec (liveRecords db) := by
  have fixed := offRecords_fixedKeys
  cases call <;> simp only [WriterCall.writes, Option.some.injEq] at issued
  case writeBadBlock block =>
    exact liveRecords_applyWrites_of_off db writes
      (fun write mem => key_of_mem_writeBadBlock issued write mem ▸ fixed _ (by simp))
  all_goals
    subst issued
    simp [WriterCall.onRecords, RecordView.clearBlock, fixed, offLocation, Block.hash,
      headerHashKey_eq_recordKey, headerKey_eq_recordKey, blockBodyKey_eq_recordKey,
      blockReceiptsKey_eq_recordKey, headerTDKey_eq_recordKey, liveRecords_put_recordKey,
      liveRecords_delete_recordKey]

/-- A run that completes changes the view as its calls' `onRecords`, in order, do. -/
theorem liveRecords_run (calls : List WriterCall) {db final : KeyValueStore}
    (ran : WriterCall.run ⟨codec, sortReverse, location⟩ calls db = some final) :
    liveRecords final = recordsAfter codec calls (liveRecords db) := by
  induction calls generalizing db with
  | nil =>
      cases Option.some.inj ran
      rfl
  | cons call calls ih =>
      obtain ⟨writes, issued, ran⟩ := Option.bind_eq_some.mp ran
      rw [recordsAfter, List.foldl_cons, ← liveRecords_call codec sortReverse location offLocation
        issued]
      exact ih ran

end Runs

/-! ## The readers after a run -/

section Unfrozen

variable {db : Database} {number : UInt64} (unfrozen : db.Unfrozen number)
include unfrozen

theorem readCanonicalHash_of_unfrozen :
    (readCanonicalHash number).eval db =
      bytesToHash ((liveRecords db.live).read .hashTable number Hash.zero) := by
  rw [eval_readCanonicalHash, unfrozen .hashTable]
  by_cases empty : (db.live.get (headerHashKey number)).getD [] = []
  · simp only [Option.getD_none, ne_eq, not_true_eq_false, if_false, empty, if_false]
    simp only [RecordView.read, liveRecords, recordKey, empty, Hash.zero]
  · simp only [Option.getD_none, ne_eq, not_true_eq_false, if_false, empty, not_false_eq_true,
      if_true]
    rfl

theorem readCanonicalBodyRLP_of_unfrozen :
    (readCanonicalBodyRLP number).eval db = (liveRecords db.live).read .bodiesTable number
      (bytesToHash ((liveRecords db.live).read .hashTable number Hash.zero)) := by
  rw [eval_readCanonicalBodyRLP, readCanonicalHash_of_unfrozen unfrozen, unfrozen .bodiesTable]
  rfl

theorem hasAncientOrLive_of_unfrozen (key : Bytes) (hash : Hash) :
    (hasAncientOrLive key hash number).eval db = (db.live.get key).isSome := by
  simp [hasAncientOrLive, eval, unfrozen .hashTable, KeyValueStore.has_eq]

end Unfrozen

/-- After a run of writer calls that completes, at every height the freezer has not
reached, the readers return what the abstract run holds: the canonical hash and body, the
raw header, body, receipts and total difficulty, `ReadTd`, `ReadRawReceipts` and
`ReadReceipts` decoding them, and the existence checks, which ask only whether the record
is there. -/
theorem reads_after_run {α : Type} (codec : Codec) (sortReverse : List BadBlock → List BadBlock)
    (location : Hash → Bytes) (offLocation : ∀ commitment, OffRecords (location commitment))
    (decodeTd : Bytes → Option Nat) (decodeReceipts : Bytes → Option (List Receipt))
    (deriveFields : List Receipt → Hash → UInt64 → List Transaction → Option α)
    (db : Database) (calls : List WriterCall) (final : KeyValueStore)
    (ran : WriterCall.run ⟨codec, sortReverse, location⟩ calls db.live = some final)
    (number : UInt64) (unfrozen : db.Unfrozen number) (hash : Hash) :
    let view := recordsAfter codec calls (liveRecords db.live)
    let after : Database := { db with live := final }
    (readCanonicalHash number).eval after = bytesToHash (view.read .hashTable number Hash.zero) ∧
    (readCanonicalBodyRLP number).eval after =
      view.read .bodiesTable number (bytesToHash (view.read .hashTable number Hash.zero)) ∧
    (readHeaderRLP hash number).eval after = view.read .headerTable number hash ∧
    (readBodyRLP hash number).eval after = view.read .bodiesTable number hash ∧
    (readReceiptsRLP hash number).eval after = view.read .receiptTable number hash ∧
    (readTdRLP hash number).eval after = view.read .difficultyTable number hash ∧
    (readTd decodeTd hash number).eval after =
      decodeRaw decodeTd (view.read .difficultyTable number hash) ∧
    (readRawReceipts decodeReceipts hash number).eval after =
      decodeRaw decodeReceipts (view.read .receiptTable number hash) ∧
    (readReceipts codec decodeReceipts deriveFields hash number).eval after =
      ((decodeRaw decodeReceipts (view.read .receiptTable number hash)).bind fun receipts =>
        (decodeRaw codec.decodeBody (view.read .bodiesTable number hash)).bind fun body =>
          deriveFields receipts hash number body.transactions) ∧
    (hasHeader hash number).eval after = (view .headerTable number hash).isSome ∧
    (hasBody hash number).eval after = (view .bodiesTable number hash).isSome ∧
    (hasReceipts hash number).eval after = (view .receiptTable number hash).isSome := by
  intro view after
  have unfrozenAfter : after.Unfrozen number := unfrozen
  have live : liveRecords after.live = view :=
    liveRecords_run codec sortReverse location offLocation calls ran
  have body : (readBody codec hash number).eval after =
      decodeRaw codec.decodeBody ((liveRecords after.live).read .bodiesTable number hash) := by
    rw [eval_readBody, readBodyRLP, readCheckedRLP_of_unfrozen unfrozenAfter]
    rfl
  rw [← live]
  refine ⟨readCanonicalHash_of_unfrozen unfrozenAfter, readCanonicalBodyRLP_of_unfrozen
    unfrozenAfter, readHeaderRLP_of_unfrozen unfrozenAfter hash,
    readCheckedRLP_of_unfrozen unfrozenAfter hash _ _,
    readCheckedRLP_of_unfrozen unfrozenAfter hash _ _,
    readCheckedRLP_of_unfrozen unfrozenAfter hash _ _, ?_, ?_, ?_,
    hasAncientOrLive_of_unfrozen unfrozenAfter _ hash,
    hasAncientOrLive_of_unfrozen unfrozenAfter _ hash,
    hasAncientOrLive_of_unfrozen unfrozenAfter _ hash⟩
  · rw [eval_readTd, readTdRLP, readCheckedRLP_of_unfrozen unfrozenAfter]
    rfl
  · rw [eval_readRawReceipts, readReceiptsRLP, readCheckedRLP_of_unfrozen unfrozenAfter]
    rfl
  · rw [eval_readReceipts, eval_readRawReceipts, readReceiptsRLP,
      readCheckedRLP_of_unfrozen unfrozenAfter, body]
    rfl

/-- A hash's own 32 bytes, as the randomness-cache key, are no record key. -/
theorem offRecords_bytes (commitment : Hash) : OffRecords commitment.bytes :=
  offRecords_of_shape fun table => by cases table <;> simp [recordShape, commitment.length_bytes]

theorem reads_after_run_sample :
    (∀ commitment, OffRecords (Hash.bytes commitment)) ∧
      WriterCall.run ⟨sampleEntityCodec.toCodec, mergeSortReverse.sort, Hash.bytes⟩
          roundTripSampleCalls emptySample.live = some roundTripSampleStore ∧
      emptySample.Unfrozen 0 ∧
      (readHeaderRLP (sampleHash roundTripSampleBlock.header) 0).eval
          { emptySample with live := roundTripSampleStore } =
        (recordsAfter sampleEntityCodec.toCodec roundTripSampleCalls
          (liveRecords emptySample.live)).read .headerTable 0
          (sampleHash roundTripSampleBlock.header) :=
  ⟨offRecords_bytes, rfl, emptySample_unfrozen 0,
    (reads_after_run sampleEntityCodec.toCodec mergeSortReverse.sort Hash.bytes offRecords_bytes
      (fun _ => none) (fun _ => none) (fun _ _ _ _ => some ()) emptySample roundTripSampleCalls
      roundTripSampleStore rfl 0 (emptySample_unfrozen 0)
      (sampleHash roundTripSampleBlock.header)).2.2.1⟩

/-- `DeleteBlock` leaves the canonical hash: after the sample block is made canonical and
deleted, `ReadCanonicalHash` still returns its hash while its header is gone. -/
example :
    let hash := sampleHash roundTripSampleBlock.header
    let view := recordsAfter sampleEntityCodec.toCodec
      [.writeBlock roundTripSampleBlock, .writeCanonicalHash hash 0, .deleteBlock hash 0]
      (liveRecords KeyValueStore.empty)
    bytesToHash (view.read .hashTable 0 Hash.zero) = hash ∧
      view.read .headerTable 0 hash = [] := by
  decide

end Rawdb
