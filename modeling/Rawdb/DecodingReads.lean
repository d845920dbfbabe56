import Rawdb.Records
import Rawdb.Scalars

/-!
# The decoding readers while the freezer migrates a block

`ReadHeader`, `ReadBody`, `ReadBlock`, `ReadTd`, `ReadRawReceipts`, `ReadReceipts` and
`ReadLogs` call raw readers one after another and decode what those return; they hold no
lock across the calls, so the freezer may move the block's records between them. A
sequence of linearizable calls is linearizable (`Linearizable.bind`): each call returns
its start result wherever in the migration it runs, and the next starts from a database
the migration reaches. The decoding readers therefore inherit linearizability from the
raw readers of `Rawdb.Linearizable`, under the same exceptions
(`decoding_reads_linearizable_during_migration`).

`ReadHeadHeader` and `ReadHeadBlock` first read the head hash and the number it maps to,
keys the migration never touches, so the header or block they go on to read is the one the
start database names (`Linearizable.bind_start`); they are linearizable unless that head
is another header at the migrating block's number
(`head_reads_linearizable_during_migration`).
-/

namespace Rawdb

open Probe Relation

/-! ## Sequences of linearizable calls -/

section Composition

variable {α β : Type} {block : FrozenBlock} {start : Database}

theorem linearizable_done (value : α) : Linearizable block start (done value) :=
  fun _ _ _ _ run => (runs_done_iff.mp run).1

/-- A linearizable call followed by a call linearizable at the value the first returns on
the start database is linearizable. -/
theorem Linearizable.bind_start {call : Probe α} {rest : α → Probe β}
    (first : Linearizable block start call)
    (second : Linearizable block start (rest (call.eval start))) :
    Linearizable block start (call.bind rest) := by
  intro db result final reach run
  obtain ⟨value, middle, firstRun, restRun⟩ := runs_bind_iff.mp run
  obtain rfl := first db value middle reach firstRun
  rw [eval_bind]
  exact second middle result final (reach.trans firstRun.reach) restRun

/-- A linearizable call followed by calls that are linearizable whatever the first returned
is linearizable. -/
theorem Linearizable.bind {call : Probe α} {rest : α → Probe β}
    (first : Linearizable block start call)
    (second : ∀ value, Linearizable block start (rest value)) :
    Linearizable block start (call.bind rest) :=
  first.bind_start (second _)

theorem Linearizable.ite {condition : Prop} [Decidable condition] {yes no : Probe α}
    (linearizableYes : Linearizable block start yes)
    (linearizableNo : Linearizable block start no) :
    Linearizable block start (if condition then yes else no) := by
  split <;> assumption

end Composition

/-! ## The decoding readers -/

section Decoding

variable {block : FrozenBlock} {start : Database} (unfrozen : block.Unfrozen start)
  (live : ∀ table, block.Live start table) {hash : Hash} (nonzero : hash ≠ Hash.zero)
  (number : UInt64)
include unfrozen live nonzero

theorem readBody_linearizable (codec : Codec) :
    Linearizable block start (readBody codec hash number) :=
  (readCheckedRLP_linearizable unfrozen live .bodiesTable (by decide) nonzero number).bind
    fun _ => .ite (linearizable_done _) (linearizable_done _)

theorem readTd_linearizable (decodeTd : Bytes → Option Nat) :
    Linearizable block start (readTd decodeTd hash number) :=
  (readCheckedRLP_linearizable unfrozen live .difficultyTable (by decide) nonzero number).bind
    fun _ => .ite (linearizable_done _) (linearizable_done _)

theorem readLogs_linearizable (codec : Codec) :
    Linearizable block start (readLogs codec hash number) := by
  refine (readCheckedRLP_linearizable unfrozen live .receiptTable (by decide) nonzero number).bind
    fun data => ?_
  simp only [bind_eq, pure_eq]
  split
  · exact linearizable_done _
  split
  · exact linearizable_done _
  refine (readBody_linearizable unfrozen live nonzero number codec).bind fun body => ?_
  split
  · exact linearizable_done _
  split <;> exact linearizable_done _

theorem readRawReceipts_linearizable (decodeReceipts : Bytes → Option (List Receipt)) :
    Linearizable block start (readRawReceipts decodeReceipts hash number) :=
  (readCheckedRLP_linearizable unfrozen live .receiptTable (by decide) nonzero number).bind
    fun _ => .ite (linearizable_done _) (linearizable_done _)

theorem readReceipts_linearizable {α : Type} (codec : Codec)
    (decodeReceipts : Bytes → Option (List Receipt))
    (deriveFields : List Receipt → Hash → UInt64 → List Transaction → Option α) :
    Linearizable block start (readReceipts codec decodeReceipts deriveFields hash number) := by
  refine (readRawReceipts_linearizable unfrozen live nonzero number decodeReceipts).bind
    fun receipts => ?_
  split
  · refine (readBody_linearizable unfrozen live nonzero number codec).bind fun body => ?_
    split <;> exact linearizable_done _
  · exact linearizable_done _

end Decoding

section Header

variable {block : FrozenBlock} {start : Database} (unfrozen : block.Unfrozen start)
  (live : ∀ table, block.Live start table) {hash : Hash} {number : UInt64}
  (away : hash = block.hash ∨ number ≠ block.number)
include unfrozen live away

theorem readHeader_linearizable (codec : HeaderCodec) :
    Linearizable block start (readHeader codec hash number) :=
  (readHeaderRLP_linearizable unfrozen live away).bind fun _ =>
    .ite (linearizable_done _) (linearizable_done _)

theorem readBlock_linearizable (nonzero : hash ≠ Hash.zero) (codec : Codec) :
    Linearizable block start (readBlock codec hash number) := by
  refine (readHeader_linearizable unfrozen live away codec.toHeaderCodec).bind fun header => ?_
  split
  · exact linearizable_done _
  · refine (readBody_linearizable unfrozen live nonzero number codec).bind fun body => ?_
    split <;> exact linearizable_done _

end Header

/-! ## The head readers -/

/-- A key that is no record key holds none of the block's records. -/
theorem FrozenBlock.off_of_offRecords (block : FrozenBlock) {key : Bytes} (off : OffRecords key) :
    block.Off key :=
  fun table same => off table block.number block.hash (same.trans (block.liveKey_eq table))

/-- A read of a key that is no record key is linearizable. -/
theorem getData_linearizable {block : FrozenBlock} {start : Database} {key : Bytes}
    (off : OffRecords key) : Linearizable block start (getData key) :=
  (avoids_getData (block.off_of_offRecords off)).linearizable

section Head

variable {block : FrozenBlock} {start : Database} (unfrozen : block.Unfrozen start)
  (live : ∀ table, block.Live start table)
include unfrozen live

theorem readHeadHeader_linearizable (codec : HeaderCodec)
    (away : ∀ number, (scalars start.live).headerNumber (scalars start.live).headHeaderHash =
      some number → (scalars start.live).headHeaderHash = block.hash ∨ number ≠ block.number) :
    Linearizable block start (readHeadHeader codec) := by
  simp only [readHeadHeader, bind_eq, pure_eq]
  refine (getData_linearizable (offRecords_fixedKeys _ (by simp))).bind_start ?_
  rw [eval_getData]
  split
  · exact linearizable_done _
  refine (getData_linearizable (offRecords_headerNumberKey _)).bind_start ?_
  rw [eval_getData]
  split
  · exact linearizable_done _
  · exact readHeader_linearizable unfrozen live (away _ ‹_›) codec

theorem readHeadBlock_linearizable (codec : Codec)
    (away : ∀ number, (scalars start.live).headerNumber (scalars start.live).headBlockHash =
      some number → (scalars start.live).headBlockHash = block.hash ∨ number ≠ block.number) :
    Linearizable block start (readHeadBlock codec) := by
  simp only [readHeadBlock, bind_eq, pure_eq]
  refine (getData_linearizable (offRecords_fixedKeys _ (by simp))).bind_start ?_
  rw [eval_getData]
  split
  · exact linearizable_done _
  next nonzero =>
  refine (getData_linearizable (offRecords_headerNumberKey _)).bind_start ?_
  rw [eval_getData]
  split
  · exact linearizable_done _
  · exact readBlock_linearizable unfrozen live (away _ ‹_›) nonzero codec

end Head

/-- While the freezer migrates a block whose records are all live, `ReadHeadHeader` and
`ReadHeadBlock` are linearizable unless the head they name is mapped to the block's number
under another hash: their reads of the head hash and of its number touch no record of the
block, so the header or block they then read is the one the start database names. -/
theorem head_reads_linearizable_during_migration (codec : Codec) (block : FrozenBlock)
    (start : Database) (unfrozen : block.Unfrozen start) (live : ∀ table, block.Live start table) :
    let view := scalars start.live
    ((∀ number, view.headerNumber view.headHeaderHash = some number →
        view.headHeaderHash = block.hash ∨ number ≠ block.number) →
      Linearizable block start (readHeadHeader codec.toHeaderCodec)) ∧
    ((∀ number, view.headerNumber view.headBlockHash = some number →
        view.headBlockHash = block.hash ∨ number ≠ block.number) →
      Linearizable block start (readHeadBlock codec)) :=
  ⟨readHeadHeader_linearizable unfrozen live codec.toHeaderCodec,
    readHeadBlock_linearizable unfrozen live codec⟩

/-- `sampleStart` with the sample block as head header, mapped to its number. -/
def headSampleStart : Database :=
  { sampleStart with
    live := (sampleStart.live.put headHeaderKey sampleBlock.hash.bytes).put
      (headerNumberKey sampleBlock.hash) (encodeBlockNumber sampleBlock.number) }

theorem head_reads_linearizable_during_migration_sample :
    sampleBlock.Unfrozen headSampleStart ∧ (∀ table, sampleBlock.Live headSampleStart table) ∧
      (∀ number, (scalars headSampleStart.live).headerNumber
          (scalars headSampleStart.live).headHeaderHash = some number →
        (scalars headSampleStart.live).headHeaderHash = sampleBlock.hash ∨
          number ≠ sampleBlock.number) ∧
      Linearizable sampleBlock headSampleStart (readHeadHeader sampleCodec.toHeaderCodec) :=
  have unfrozen : sampleBlock.Unfrozen headSampleStart := fun _ => rfl
  have live : ∀ table, sampleBlock.Live headSampleStart table := by
    intro table; cases table <;> decide
  have head : (scalars headSampleStart.live).headHeaderHash = sampleBlock.hash := by decide
  ⟨unfrozen, live, fun _ _ => .inl head,
    (head_reads_linearizable_during_migration sampleCodec.toCodec sampleBlock headSampleStart
      unfrozen live).1 fun _ _ => .inl head⟩

/-- While the freezer migrates a block whose records are all live, the decoding readers are
linearizable: `ReadBody`, `ReadTd`, `ReadRawReceipts`, `ReadReceipts` and `ReadLogs` at
every hash but the zero hash, and `ReadHeader`, and with a hash other than the zero hash
`ReadBlock`, for the block's own hash or another number. -/
theorem decoding_reads_linearizable_during_migration {α : Type} (codec : Codec)
    (decodeTd : Bytes → Option Nat) (decodeReceipts : Bytes → Option (List Receipt))
    (deriveFields : List Receipt → Hash → UInt64 → List Transaction → Option α)
    (block : FrozenBlock) (start : Database) (unfrozen : block.Unfrozen start)
    (live : ∀ table, block.Live start table) :
    (∀ hash number, hash ≠ Hash.zero →
      Linearizable block start (readBody codec hash number) ∧
      Linearizable block start (readTd decodeTd hash number) ∧
      Linearizable block start (readRawReceipts decodeReceipts hash number) ∧
      Linearizable block start (readReceipts codec decodeReceipts deriveFields hash number) ∧
      Linearizable block start (readLogs codec hash number)) ∧
    (∀ hash number, hash = block.hash ∨ number ≠ block.number →
      Linearizable block start (readHeader codec.toHeaderCodec hash number) ∧
      (hash ≠ Hash.zero → Linearizable block start (readBlock codec hash number))) :=
  ⟨fun _ number nonzero =>
      ⟨readBody_linearizable unfrozen live nonzero number codec,
        readTd_linearizable unfrozen live nonzero number decodeTd,
        readRawReceipts_linearizable unfrozen live nonzero number decodeReceipts,
        readReceipts_linearizable unfrozen live nonzero number codec decodeReceipts deriveFields,
        readLogs_linearizable unfrozen live nonzero number codec⟩,
    fun _ _ away =>
      ⟨readHeader_linearizable unfrozen live away codec.toHeaderCodec,
        fun nonzero => readBlock_linearizable unfrozen live away nonzero codec⟩⟩

theorem decoding_reads_linearizable_during_migration_sample :
    sampleBlock.Unfrozen sampleStart ∧ (∀ table, sampleBlock.Live sampleStart table) ∧
      ∀ hash number, hash ≠ Hash.zero →
        Linearizable sampleBlock sampleStart (readLogs sampleCodec.toCodec hash number) :=
  ⟨sampleStart_unfrozen, sampleStart_live, fun hash number nonzero =>
    ((decoding_reads_linearizable_during_migration sampleCodec.toCodec (fun _ => none)
      (fun _ => none) (fun _ _ _ _ => some ()) sampleBlock sampleStart sampleStart_unfrozen
      sampleStart_live).1 hash number nonzero).2.2.2.2⟩

end Rawdb
