import Rawdb.Writers
import Rawdb.Logs
import Rawdb.Freezer

/-!
# Reading back what the writers stored

The block writers put encoded values under keys qualified by a block's number and hash,
and `ReadBlock`, `ReadHeader`, `ReadBody` and `ReadLogs` read them back. Every reader
asks the ancient store first, so what comes back is what was written only at a height
the freezer has not reached (`Database.Unfrozen`): there the ancient tables hold nothing
and the readers fall through to the live store.

The encodings are `rlp`'s, outside this repository, and reading back relies on three of
their properties, which `EntityCodec` collects: a stored header or body decodes to
itself, stored receipts decode to the consensus fields of their logs, and no encoding is
empty, which the readers would take for "not found".

What the readers see of headers and bodies has an abstract model, `BlockView`: two
partial maps keyed by hash and number, which each writer call updates as its `onBlocks`
says. `WriteBlock` sets both, `DeleteBlock` clears both, and the writers of the other
records leave them. `liveBlocks` reads the view off a live store; the writes of every
call change it as the call's `onBlocks` does (`liveBlocks_call`), so after a whole run
of calls `ReadBlock` returns what the abstract run holds (`readBlock_run`). While the
freezer migrates a block, `ReadBlock` still returns it, as each of its two raw readers
returns its record (`readBlock_during_migration`). After `WriteBlock` and
`WriteReceipts`, `ReadLogs` returns the written logs with their fields derived from the
block (`readLogs_writeReceipts`).

`ReadBlock` builds its block with `types.NewBlockWithHeader(header).WithBody(...)` from
the header and the three fields of the body, both outside this repository; it is
modelled as returning the header and the body.
-/

namespace Rawdb

open Probe

/-! ## The codec's round trip -/

/-- A log as `types.LogForStorage` keeps it: the consensus fields, the derived ones zero. -/
def Log.stored (log : Log) : Log :=
  ⟨log.address, log.topics, log.data, 0, Hash.zero, 0, Hash.zero, 0, false⟩

/-- A codec with the properties of `rlp` that reading back relies on. -/
structure EntityCodec extends Codec where
  encodeHeader_ne_nil : ∀ header, encodeHeader header ≠ []
  decodeBody_encodeBody : ∀ body, decodeBody (encodeBody body) = some body
  encodeBody_ne_nil : ∀ body, encodeBody body ≠ []
  decodeReceiptLogs_encodeReceipts : ∀ receipts,
    decodeReceiptLogs (encodeReceipts receipts) =
      some (receipts.map fun receipt => receipt.logs.map Log.stored)
  encodeReceipts_ne_nil : ∀ receipts, encodeReceipts receipts ≠ []

/-- What `ReadHeader` and `ReadBody` make of the bytes their raw readers return: `nil` for
an empty slice, else the decoding. -/
def decodeRaw {α : Type} (decode : Bytes → Option α) (data : Bytes) : Option α :=
  if data = [] then none else decode data

@[simp]
theorem decodeRaw_nil {α : Type} (decode : Bytes → Option α) : decodeRaw decode [] = none :=
  rfl

@[simp]
theorem decodeRaw_encodeHeader (codec : EntityCodec) (header : Header) :
    decodeRaw codec.decodeHeader (codec.encodeHeader header) = some header := by
  simp [decodeRaw, codec.encodeHeader_ne_nil, codec.decodeHeader_encodeHeader]

@[simp]
theorem decodeRaw_encodeBody (codec : EntityCodec) (body : Body) :
    decodeRaw codec.decodeBody (codec.encodeBody body) = some body := by
  simp [decodeRaw, codec.encodeBody_ne_nil, codec.decodeBody_encodeBody]

theorem Format.encode_body_ne_nil (body : Body) : Format.body.encode body ≠ [] :=
  List.append_ne_nil_of_left_ne_nil (Format.encode_list_ne_nil _ _) _

/-- `sampleCodec`, whose encodings round-trip as `rlp`'s do. -/
def sampleEntityCodec : EntityCodec where
  toCodec := sampleCodec.toCodec
  encodeHeader_ne_nil := Format.encode_header_ne_nil
  decodeBody_encodeBody := Format.body.decodeAll_encode
  encodeBody_ne_nil := Format.encode_body_ne_nil
  decodeReceiptLogs_encodeReceipts receipts := by
    simp [sampleCodec, Receipt.toStored, logOfStored, Log.stored, Function.comp_def]
  encodeReceipts_ne_nil _ := Format.encode_list_ne_nil _ _

/-! ## `ReadBlock` -/

/-- `ReadBlock`: the header and the body stored for (`hash`, `number`), `nil` when either
is missing or does not decode. -/
def readBlock (codec : Codec) (hash : Hash) (number : UInt64) :
    Probe (Option (Header × Body)) := do
  match ← readHeader codec.toHeaderCodec hash number with
  | none => return none
  | some header =>
      match ← readBody codec hash number with
      | none => return none
      | some body => return some (header, body)

section Quiescent

variable (codec : Codec) (hash : Hash) (number : UInt64) (db : Database)

theorem eval_readBody :
    (readBody codec hash number).eval db =
      decodeRaw codec.decodeBody ((readBodyRLP hash number).eval db) := by
  simp only [readBody, bind_eq, pure_eq, eval_bind, apply_ite (eval db), eval_done,
    List.isEmpty_iff, decodeRaw]

theorem eval_readBlock :
    (readBlock codec hash number).eval db =
      ((readHeader codec.toHeaderCodec hash number).eval db).bind fun header =>
        ((readBody codec hash number).eval db).map (header, ·) := by
  simp only [readBlock, bind_eq, pure_eq, eval_bind]
  cases (readHeader codec.toHeaderCodec hash number).eval db with
  | none => rfl
  | some header =>
      simp only [eval_bind]
      cases (readBody codec hash number).eval db <;> rfl

end Quiescent

/-! ## Heights the freezer has not reached -/

/-- The freezer has not reached `number`: no ancient table holds an item there. -/
def Database.Unfrozen (db : Database) (number : UInt64) : Prop :=
  ∀ table, db.ancientAt table number = none

section Unfrozen

variable {db : Database} {number : UInt64} (unfrozen : db.Unfrozen number) (hash : Hash)
include unfrozen

theorem readHeaderRLP_of_unfrozen :
    (readHeaderRLP hash number).eval db = (db.live.get (headerKey number hash)).getD [] := by
  simp [eval_readHeaderRLP, unfrozen .headerTable]

theorem readCheckedRLP_of_unfrozen (table : Table) (key : Bytes) :
    (readCheckedRLP table key hash number).eval db = (db.live.get key).getD [] := by
  simp [eval_readCheckedRLP, eval_ancientChecked, unfrozen table]

end Unfrozen

/-! ## The abstract view of headers and bodies -/

/-- The headers and the bodies the readers return, by hash and number. -/
@[ext]
structure BlockView where
  header : Hash × UInt64 → Option Header
  body : Hash × UInt64 → Option Body

namespace BlockView

/-- The view with the header of block `key` set to `header`. -/
def setHeader (view : BlockView) (key : Hash × UInt64) (header : Option Header) : BlockView :=
  { view with header := Function.update view.header key header }

/-- The view with the body of block `key` set to `body`. -/
def setBody (view : BlockView) (key : Hash × UInt64) (body : Option Body) : BlockView :=
  { view with body := Function.update view.body key body }

/-- What `ReadBlock` assembles from the view: the header and the body, if both are
there. -/
def block (view : BlockView) (hash : Hash) (number : UInt64) : Option (Header × Body) :=
  (view.header (hash, number)).bind fun header => (view.body (hash, number)).map (header, ·)

end BlockView

/-- How a writer call changes the view: a write sets what it stores, a delete clears it,
and the writers of other records leave the view. -/
def WriterCall.onBlocks (codec : Codec) (call : WriterCall) (view : BlockView) : BlockView :=
  match call with
  | .writeHeader header =>
      view.setHeader (codec.hash header, header.number) (some header)
  | .deleteHeader hash number => view.setHeader (hash, number) none
  | .writeBodyRLP hash number rlp => view.setBody (hash, number) (decodeRaw codec.decodeBody rlp)
  | .writeBody hash number body => view.setBody (hash, number) (some body)
  | .deleteBody hash number => view.setBody (hash, number) none
  | .writeBlock block =>
      (view.setBody (codec.hash block.header, block.header.number) (some block.body)).setHeader
        (codec.hash block.header, block.header.number) (some block.header)
  | .deleteBlock hash number => (view.setHeader (hash, number) none).setBody (hash, number) none
  | .deleteBlockWithoutNumber hash number =>
      (view.setHeader (hash, number) none).setBody (hash, number) none
  | _ => view

/-! ## The view of a live store -/

/-- The view a live store gives at heights the freezer has not reached. -/
def liveBlocks (codec : Codec) (db : KeyValueStore) : BlockView where
  header key := decodeRaw codec.decodeHeader ((db.get (headerKey key.2 key.1)).getD [])
  body key := decodeRaw codec.decodeBody ((db.get (blockBodyKey key.2 key.1)).getD [])

/-- At a height the freezer has not reached, `ReadBlock` returns the live view's block. -/
theorem readBlock_of_unfrozen (codec : Codec) {db : Database} {number : UInt64}
    (unfrozen : db.Unfrozen number) (hash : Hash) :
    (readBlock codec hash number).eval db = (liveBlocks codec db.live).block hash number := by
  rw [eval_readBlock, eval_readHeader, eval_readBody, readHeaderRLP_of_unfrozen unfrozen,
    readBodyRLP, readCheckedRLP_of_unfrozen unfrozen]
  rfl

/-- A key that is neither a header key nor a body key. -/
def OffBlocks (key : Bytes) : Prop :=
  ∀ number hash, key ≠ headerKey number hash ∧ key ≠ blockBodyKey number hash

theorem offBlocks_of_shape {key : Bytes}
    (notHeader : key.length ≠ 41 ∨ key.head? ≠ some 104)
    (notBody : key.length ≠ 41 ∨ key.head? ≠ some 98) : OffBlocks key := by
  intro number hash
  constructor <;> rintro rfl <;> simp_all

/-! The keys of the other writers lie outside the view: by length, or by their first byte
where the length is a header key's. -/

@[simp]
theorem offBlocks_headerHashKey (number : UInt64) : OffBlocks (headerHashKey number) :=
  offBlocks_of_shape (.inl (by simp)) (.inl (by simp))

@[simp]
theorem offBlocks_headerNumberKey (hash : Hash) : OffBlocks (headerNumberKey hash) :=
  offBlocks_of_shape (.inl (by simp)) (.inl (by simp))

@[simp]
theorem offBlocks_headerTDKey (number : UInt64) (hash : Hash) :
    OffBlocks (headerTDKey number hash) :=
  offBlocks_of_shape (.inl (by simp)) (.inl (by simp))

@[simp]
theorem offBlocks_blockReceiptsKey (number : UInt64) (hash : Hash) :
    OffBlocks (blockReceiptsKey number hash) :=
  offBlocks_of_shape (.inr (by simp)) (.inr (by simp))

@[simp]
theorem offBlocks_uptimeKey (epoch : UInt64) : OffBlocks (uptimeKey epoch) :=
  offBlocks_of_shape (.inl (by simp [uptimeKey, asciiBytes]))
    (.inl (by simp [uptimeKey, asciiBytes]))

theorem offBlocks_fixedKeys :
    ∀ key ∈ [headHeaderKey, headBlockKey, headFastBlockKey, lastPivotKey, fastTrieProgressKey,
      txIndexTailKey, fastTxLookupLimitKey, badBlockKey], OffBlocks key := by
  simp only [List.mem_cons, List.mem_nil_iff, or_false]
  rintro key (rfl | rfl | rfl | rfl | rfl | rfl | rfl | rfl) <;>
    exact offBlocks_of_shape (.inl (by decide)) (.inl (by decide))

section LiveBlocks

variable (codec : Codec) (db : KeyValueStore)

theorem liveBlocks_apply_of_offBlocks (write : Write) (off : OffBlocks write.key) :
    liveBlocks codec (write.apply db) = liveBlocks codec db := by
  have header (key : Hash × UInt64) := write.get_apply_of_ne db (off key.2 key.1).1.symm
  have body (key : Hash × UInt64) := write.get_apply_of_ne db (off key.2 key.1).2.symm
  simp only [liveBlocks, header, body]

theorem liveBlocks_applyWrites_of_offBlocks (writes : List Write)
    (off : ∀ write ∈ writes, OffBlocks write.key) :
    liveBlocks codec (applyWrites writes db) = liveBlocks codec db := by
  induction writes generalizing db with
  | nil => rfl
  | cons write writes ih =>
      rw [applyWrites_cons, ih _ fun write' mem => off write' (List.mem_cons_of_mem _ mem),
        liveBlocks_apply_of_offBlocks codec db write (off write (List.mem_cons_self _ _))]

@[simp]
theorem liveBlocks_put_of_offBlocks {key : Bytes} (off : OffBlocks key) (value : Bytes) :
    liveBlocks codec (db.put key value) = liveBlocks codec db :=
  liveBlocks_apply_of_offBlocks codec db (.put key value) off

@[simp]
theorem liveBlocks_delete_of_offBlocks {key : Bytes} (off : OffBlocks key) :
    liveBlocks codec (db.delete key) = liveBlocks codec db :=
  liveBlocks_apply_of_offBlocks codec db (.delete key) off

/-- A store that differs from `db` only under `keyOf key` decodes differently only at
`key`, when `keyOf` is injective. -/
theorem decodeRaw_get_update {α : Type} (decode : Bytes → Option α)
    {keyOf : Hash × UInt64 → Bytes} (injective : Function.Injective keyOf) (key : Hash × UInt64)
    {db' : KeyValueStore}
    (others : ∀ probe, probe ≠ keyOf key → db'.get probe = db.get probe) :
    (fun key' => decodeRaw decode ((db'.get (keyOf key')).getD [])) =
      Function.update (fun key' => decodeRaw decode ((db.get (keyOf key')).getD [])) key
        (decodeRaw decode ((db'.get (keyOf key)).getD [])) := by
  funext key'
  by_cases same : key' = key
  · subst same
    simp
  · simp [Function.update_noteq same, others _ (injective.ne same)]

/-- Header keys, as a function of hash and number, are injective. -/
theorem headerKey_injective' :
    Function.Injective fun key : Hash × UInt64 => headerKey key.2 key.1 :=
  fun _ _ same => Prod.ext (headerKey_injective same).2 (headerKey_injective same).1

/-- Body keys, as a function of hash and number, are injective. -/
theorem blockBodyKey_injective' :
    Function.Injective fun key : Hash × UInt64 => blockBodyKey key.2 key.1 :=
  fun _ _ same => Prod.ext (blockBodyKey_injective same).2 (blockBodyKey_injective same).1

/-- A store that differs from `db` only under one header key shows that block's header. -/
theorem liveBlocks_headerKey (number : UInt64) (hash : Hash) {db' : KeyValueStore}
    (others : ∀ key, key ≠ headerKey number hash → db'.get key = db.get key) :
    liveBlocks codec db' = (liveBlocks codec db).setHeader (hash, number)
      (decodeRaw codec.decodeHeader ((db'.get (headerKey number hash)).getD [])) :=
  BlockView.ext (decodeRaw_get_update db _ headerKey_injective' (hash, number) others)
    (funext fun _ => by simp [liveBlocks, BlockView.setHeader, others])

/-- A store that differs from `db` only under one body key shows that block's body. -/
theorem liveBlocks_blockBodyKey (number : UInt64) (hash : Hash) {db' : KeyValueStore}
    (others : ∀ key, key ≠ blockBodyKey number hash → db'.get key = db.get key) :
    liveBlocks codec db' = (liveBlocks codec db).setBody (hash, number)
      (decodeRaw codec.decodeBody ((db'.get (blockBodyKey number hash)).getD [])) :=
  BlockView.ext (funext fun _ => by simp [liveBlocks, BlockView.setBody, others])
    (decodeRaw_get_update db _ blockBodyKey_injective' (hash, number) others)

@[simp]
theorem liveBlocks_put_headerKey (number : UInt64) (hash : Hash) (value : Bytes) :
    liveBlocks codec (db.put (headerKey number hash) value) =
      (liveBlocks codec db).setHeader (hash, number) (decodeRaw codec.decodeHeader value) := by
  have others (key : Bytes) (other : key ≠ headerKey number hash) :
      (db.put (headerKey number hash) value).get key = db.get key := by simp [other]
  simpa using liveBlocks_headerKey codec db number hash others

@[simp]
theorem liveBlocks_delete_headerKey (number : UInt64) (hash : Hash) :
    liveBlocks codec (db.delete (headerKey number hash)) =
      (liveBlocks codec db).setHeader (hash, number) none := by
  have others (key : Bytes) (other : key ≠ headerKey number hash) :
      (db.delete (headerKey number hash)).get key = db.get key := by simp [other]
  simpa using liveBlocks_headerKey codec db number hash others

@[simp]
theorem liveBlocks_put_blockBodyKey (number : UInt64) (hash : Hash) (value : Bytes) :
    liveBlocks codec (db.put (blockBodyKey number hash) value) =
      (liveBlocks codec db).setBody (hash, number) (decodeRaw codec.decodeBody value) := by
  have others (key : Bytes) (other : key ≠ blockBodyKey number hash) :
      (db.put (blockBodyKey number hash) value).get key = db.get key := by simp [other]
  simpa using liveBlocks_blockBodyKey codec db number hash others

@[simp]
theorem liveBlocks_delete_blockBodyKey (number : UInt64) (hash : Hash) :
    liveBlocks codec (db.delete (blockBodyKey number hash)) =
      (liveBlocks codec db).setBody (hash, number) none := by
  have others (key : Bytes) (other : key ≠ blockBodyKey number hash) :
      (db.delete (blockBodyKey number hash)).get key = db.get key := by simp [other]
  simpa using liveBlocks_blockBodyKey codec db number hash others

end LiveBlocks

/-! ## Runs of writer calls -/

/-- The live store a run of calls leaves, or `none` when a call exits through
`log.Crit`. -/
def WriterCall.run (setting : WriterSetting) :
    List WriterCall → KeyValueStore → Option KeyValueStore
  | [], db => some db
  | call :: calls, db =>
      (call.writes setting db).bind fun writes =>
        WriterCall.run setting calls (applyWrites writes db)

section Runs

variable (codec : EntityCodec) (sortReverse : List BadBlock → List BadBlock)
  (location : Hash → Bytes) (offLocation : ∀ commitment, OffBlocks (location commitment))

include offLocation in
/-- The writes of one call change the live view as the call's `onBlocks` says. -/
theorem liveBlocks_call {call : WriterCall} {db : KeyValueStore} {writes : List Write}
    (issued : call.writes ⟨codec.toCodec, sortReverse, location⟩ db = some writes) :
    liveBlocks codec.toCodec (applyWrites writes db) =
      call.onBlocks codec.toCodec (liveBlocks codec.toCodec db) := by
  have fixed := offBlocks_fixedKeys
  cases call <;> simp only [WriterCall.writes, Option.some.injEq] at issued
  case writeBadBlock block =>
    exact liveBlocks_applyWrites_of_offBlocks _ db writes
      (fun write mem => key_of_mem_writeBadBlock issued write mem ▸ fixed _ (by simp))
  all_goals
    subst issued
    simp [WriterCall.onBlocks, fixed, offLocation, Block.hash]

include offLocation in
/-- A run that completes changes the live view as its calls' `onBlocks`, in order, do. -/
theorem liveBlocks_run (calls : List WriterCall) {db final : KeyValueStore}
    (ran : WriterCall.run ⟨codec.toCodec, sortReverse, location⟩ calls db = some final) :
    liveBlocks codec.toCodec final =
      calls.foldl (fun view call => call.onBlocks codec.toCodec view)
        (liveBlocks codec.toCodec db) := by
  induction calls generalizing db with
  | nil =>
      cases Option.some.inj ran
      rfl
  | cons call calls ih =>
      obtain ⟨writes, issued, ran⟩ := Option.bind_eq_some.mp ran
      rw [List.foldl_cons, ← liveBlocks_call codec sortReverse location offLocation issued]
      exact ih ran

end Runs

/-- After a run of writer calls that completes, at a height the freezer has not reached,
`ReadBlock` returns the block of the abstract run: the view the live store started with,
changed by each call's `onBlocks` in turn. -/
theorem readBlock_run (codec : EntityCodec) (sortReverse : List BadBlock → List BadBlock)
    (location : Hash → Bytes) (offLocation : ∀ commitment, OffBlocks (location commitment))
    (db : Database) (calls : List WriterCall) (final : KeyValueStore)
    (ran : WriterCall.run ⟨codec.toCodec, sortReverse, location⟩ calls db.live = some final)
    (hash : Hash) (number : UInt64) (unfrozen : db.Unfrozen number) :
    (readBlock codec.toCodec hash number).eval { db with live := final } =
      (calls.foldl (fun view call => call.onBlocks codec.toCodec view)
        (liveBlocks codec.toCodec db.live)).block hash number := by
  have unfrozenFinal : Database.Unfrozen { db with live := final } number := unfrozen
  rw [readBlock_of_unfrozen codec.toCodec unfrozenFinal,
    liveBlocks_run codec sortReverse location offLocation calls ran]

/-! ## Samples -/

/-- An empty live store and empty ancient tables. -/
def emptySample : Database :=
  ⟨KeyValueStore.empty, fun _ => []⟩

theorem emptySample_unfrozen (number : UInt64) : emptySample.Unfrozen number := fun _ => rfl

/-- A block at height 0 with one transaction. -/
def roundTripSampleBlock : Block :=
  ⟨⟨0, Hash.zero, []⟩, ⟨[⟨Hash.zero⟩], [], []⟩, 0⟩

/-- Writing the sample block, then deleting another block at its height. -/
def roundTripSampleCalls : List WriterCall :=
  [.writeBlock roundTripSampleBlock, .deleteBlock Hash.zero 0]

/-- The live store `roundTripSampleCalls` leave. -/
def roundTripSampleStore : KeyValueStore :=
  applyWrites (Rawdb.deleteBlock Hash.zero 0)
    (applyWrites (Rawdb.writeBlock sampleEntityCodec.toCodec roundTripSampleBlock)
      KeyValueStore.empty)

/-- A hash's own 32 bytes, as the randomness-cache key, lie outside the view. -/
theorem offBlocks_bytes (commitment : Hash) : OffBlocks commitment.bytes :=
  offBlocks_of_shape (.inl (by simp [commitment.length_bytes]))
    (.inl (by simp [commitment.length_bytes]))

/-- After the sample calls, the sample block reads back as the abstract run holds it. -/
theorem readBlock_run_sample :
    (∀ commitment, OffBlocks (Hash.bytes commitment)) ∧
      WriterCall.run ⟨sampleEntityCodec.toCodec, mergeSortReverse.sort, Hash.bytes⟩
          roundTripSampleCalls emptySample.live = some roundTripSampleStore ∧
      emptySample.Unfrozen 0 ∧
      (readBlock sampleEntityCodec.toCodec (sampleHash roundTripSampleBlock.header) 0).eval
          { emptySample with live := roundTripSampleStore } =
        (roundTripSampleCalls.foldl (fun view call => call.onBlocks sampleEntityCodec.toCodec view)
          (liveBlocks sampleEntityCodec.toCodec emptySample.live)).block
          (sampleHash roundTripSampleBlock.header) 0 :=
  ⟨offBlocks_bytes, rfl, emptySample_unfrozen 0,
    readBlock_run sampleEntityCodec mergeSortReverse.sort Hash.bytes offBlocks_bytes emptySample
      roundTripSampleCalls roundTripSampleStore rfl _ _ (emptySample_unfrozen 0)⟩

example : (readBlock sampleEntityCodec.toCodec (sampleHash roundTripSampleBlock.header) 0).eval
    { emptySample with live := roundTripSampleStore } =
      some (roundTripSampleBlock.header, roundTripSampleBlock.body) := by
  decide

/-! ## `ReadBlock` while the freezer migrates the block -/

section Migration

open Relation

/-- A run of a reader that decodes what a raw reader returns, as `ReadHeader` and `ReadBody`
do: a run of the raw reader, then the decoding of what it read. -/
theorem runs_decodeRaw {env : Database → Database → Prop} {db final : Database} {α : Type}
    {call : Probe Bytes} {decode : Bytes → Option α} {result : Option α}
    (run : Runs env db (call.bind fun data =>
      if data.isEmpty = true then done none else done (decode data)) result final) :
    ∃ data, Runs env db call data final ∧ result = decodeRaw decode data := by
  obtain ⟨data, middle, first, rest⟩ := runs_bind_iff.mp run
  split at rest <;> obtain ⟨rfl, rfl⟩ := runs_done_iff.mp rest <;>
    exact ⟨data, first, by simp_all [decodeRaw]⟩

/-- `ReadBlock`, started while the block's header and body are live, returns the block
whatever steps of the block's migration come between its probes. -/
theorem readBlock_during_migration (codec : EntityCodec) (block : FrozenBlock)
    (start : Database) {header : Header} {body : Body} (unfrozen : block.Unfrozen start)
    (headerLive : block.Live start .headerTable) (bodyLive : block.Live start .bodiesTable)
    (encodedHeader : block.header = codec.encodeHeader header)
    (encodedBody : block.body = codec.encodeBody body) (result : Option (Header × Body))
    (final : Database)
    (run : Runs (MigrationStep block) start (readBlock codec.toCodec block.hash block.number)
      result final) :
    result = some (header, body) := by
  simp only [readBlock, bind_eq, pure_eq, runs_bind_iff] at run
  obtain ⟨headerRead, middle, headerRun, run⟩ := run
  obtain ⟨headerData, headerRawRun, rfl⟩ := runs_decodeRaw headerRun
  rw [readHeaderRLP_during unfrozen headerLive .refl headerRawRun, encodedHeader,
    decodeRaw_encodeHeader] at run
  obtain ⟨bodyRead, _, bodyRun, run⟩ := runs_bind_iff.mp run
  obtain ⟨bodyData, bodyRawRun, rfl⟩ := runs_decodeRaw bodyRun
  rw [readCheckedRLP_during unfrozen bodyLive headerRun.reach bodyRawRun] at run
  simp only [FrozenBlock.entry, encodedBody, decodeRaw_encodeBody] at run
  exact (runs_done_iff.mp run).1

end Migration

/-- The sample block as the freezer moves it, its header and body encoded. -/
def migratingSampleBlock : FrozenBlock :=
  ⟨sampleHash roundTripSampleBlock.header, 0,
    sampleEntityCodec.encodeHeader roundTripSampleBlock.header,
    sampleEntityCodec.encodeBody roundTripSampleBlock.body, [3], [4]⟩

/-- A live store holding the migrating block's header and body, and an empty freezer. -/
def migratingSampleStart : Database :=
  ⟨(KeyValueStore.empty.put (migratingSampleBlock.liveKey .headerTable)
      migratingSampleBlock.header).put (migratingSampleBlock.liveKey .bodiesTable)
      migratingSampleBlock.body,
    fun _ => []⟩

/-- `ReadBlock` of the sample block, interleaved with any steps of its migration. -/
theorem readBlock_during_migration_sample :
    migratingSampleBlock.Unfrozen migratingSampleStart ∧
      migratingSampleBlock.Live migratingSampleStart .headerTable ∧
      migratingSampleBlock.Live migratingSampleStart .bodiesTable ∧
      migratingSampleBlock.header = sampleEntityCodec.encodeHeader roundTripSampleBlock.header ∧
      migratingSampleBlock.body = sampleEntityCodec.encodeBody roundTripSampleBlock.body ∧
      ∀ result final, Runs (MigrationStep migratingSampleBlock) migratingSampleStart
        (readBlock sampleEntityCodec.toCodec migratingSampleBlock.hash
          migratingSampleBlock.number) result final →
        result = some (roundTripSampleBlock.header, roundTripSampleBlock.body) :=
  ⟨fun _ => rfl, by decide, by decide, rfl, rfl,
    readBlock_during_migration sampleEntityCodec migratingSampleBlock migratingSampleStart
      (fun _ => rfl) (by decide) (by decide) rfl rfl⟩

/-! ## Logs -/

/-- After `WriteBlock` and `WriteReceipts` at a height the freezer has not reached,
`ReadLogs` returns `nil` when the stored receipts do not match the block's transactions
in number, and otherwise the logs of the receipts with their fields derived from the
block. -/
theorem readLogs_writeReceipts (codec : EntityCodec) (db : Database) (block : Block)
    (receipts : List Receipt) (unfrozen : db.Unfrozen block.header.number) :
    let hash := block.hash codec.toHeaderCodec
    let stored := receipts.map fun receipt => receipt.logs.map Log.stored
    let written : Database := { db with live := applyWrites (writeBlock codec.toCodec block ++
      writeReceipts codec.toCodec hash block.header.number receipts) db.live }
    (¬CountsMatch stored block.body.transactions →
        (readLogs codec.toCodec hash block.header.number).eval written = .returns none) ∧
      (CountsMatch stored block.body.transactions → ∃ logs,
        (readLogs codec.toCodec hash block.header.number).eval written = .returns (some logs) ∧
        Derived stored hash block.header.number block.body.transactions logs) := by
  intro hash stored written
  have unfrozenWritten : written.Unfrozen block.header.number := unfrozen
  have receiptsRead : (readReceiptsRLP hash block.header.number).eval written =
      codec.encodeReceipts receipts := by
    rw [readReceiptsRLP, readCheckedRLP_of_unfrozen unfrozenWritten]
    simp [written]
  have bodyRead : (readBody codec.toCodec hash block.header.number).eval written =
      some block.body := by
    rw [eval_readBody, readBodyRLP, readCheckedRLP_of_unfrozen unfrozenWritten]
    simp [written, hash]
  have read : (readLogs codec.toCodec hash block.header.number).eval written =
      match deriveLogFields stored hash block.header.number block.body.transactions with
      | (logs, .returns none) => .returns (some logs)
      | (_, .returns (some _)) => .returns none
      | (_, .panics) => .panics := by
    simp only [readLogs, bind_eq, pure_eq, eval_bind, receiptsRead, bodyRead,
      List.isEmpty_iff, codec.encodeReceipts_ne_nil, if_false,
      codec.decodeReceiptLogs_encodeReceipts, stored]
    split <;> rename_i found <;> simp only [found, eval_done]
  refine ⟨fun mismatch => ?_, fun counts => ⟨_, ?_, derived_deriveFrom ..⟩⟩
  · rw [read, deriveLogFields_of_not_countsMatch _ _ _ _ mismatch]
  · rw [read, deriveLogFields_of_countsMatch _ _ _ _ counts]

/-- One receipt, for the sample block's one transaction, with two logs. -/
def roundTripSampleReceipts : List Receipt :=
  [⟨[1], 21000, [⟨[7], [], [], 0, Hash.zero, 0, Hash.zero, 0, false⟩,
    ⟨[8], [Hash.zero], [2], 0, Hash.zero, 0, Hash.zero, 0, false⟩]⟩]

/-- Writing the sample block and its receipts into the empty store: `ReadLogs` returns the
logs derived. -/
theorem readLogs_writeReceipts_sample :
    emptySample.Unfrozen roundTripSampleBlock.header.number ∧
      let hash := roundTripSampleBlock.hash sampleEntityCodec.toHeaderCodec
      let stored := roundTripSampleReceipts.map fun receipt => receipt.logs.map Log.stored
      let written : Database := { emptySample with
        live := applyWrites (writeBlock sampleEntityCodec.toCodec roundTripSampleBlock ++
          writeReceipts sampleEntityCodec.toCodec hash roundTripSampleBlock.header.number
            roundTripSampleReceipts) emptySample.live }
      (¬CountsMatch stored roundTripSampleBlock.body.transactions →
          (readLogs sampleEntityCodec.toCodec hash roundTripSampleBlock.header.number).eval
            written = .returns none) ∧
        (CountsMatch stored roundTripSampleBlock.body.transactions → ∃ logs,
          (readLogs sampleEntityCodec.toCodec hash roundTripSampleBlock.header.number).eval
            written = .returns (some logs) ∧
          Derived stored hash roundTripSampleBlock.header.number
            roundTripSampleBlock.body.transactions logs) :=
  ⟨emptySample_unfrozen _, readLogs_writeReceipts sampleEntityCodec emptySample
    roundTripSampleBlock roundTripSampleReceipts (emptySample_unfrozen _)⟩

end Rawdb
