import Rawdb.AncientWrite
import Rawdb.DecodingReads

/-!
# The freezer's cycle, carried out by the accessors

`Rawdb.Freezer` and `Rawdb.Linearizable` follow the readers through the migration of a
block given as atomic steps (`MigrationStep`): appends to the ancient tables, one at a time
and at the block's number, then, once all five tables hold the block, deletes of its live
records. The freezer's loop is not in this repository, but what it calls from
`accessors_chain.go` is: `WriteAncientBlocks`, whose batch `ModifyAncients` commits, and
`DeleteBlockWithoutNumber` and `DeleteCanonicalHash`, which issue the live deletes one at a
time.

A committed batch is, block after block, the appends of each block's migration, and it
leaves every block of the batch in the tables (`writeAncientBlocks_refines_migration`);
the migrated block is the one `FrozenBlock.ofBlock` makes of what `writeAncientBlock` hands
the freezer. `FreezerStep` is one step of the cycle for one block: the commit of its batch
at the tables' common length, or one of the deletes once the tables hold the block. Each
step is a run of migration steps (`FreezerStep.reach`), so every reader the migration
leaves linearizable stays linearizable under the cycle the code carries out, and the cycle,
with a freezer that accepts its appends, moves the block (`freezer_refines_migration`).
-/

namespace Rawdb

open Probe Relation

/-! ## The blocks the batch writes -/

/-- What `writeAncientBlock` hands the freezer for `block`, with its receipts and total
difficulty, as the block the migration moves. -/
def FrozenBlock.ofBlock (codec : Codec) (block : Block) (receipts : List Receipt)
    (total : Nat) : FrozenBlock :=
  ⟨block.hash codec.toHeaderCodec, block.header.number, codec.encodeHeader block.header,
    codec.encodeBody block.body, codec.encodeReceipts receipts, codec.encodeTd total⟩

@[simp]
theorem FrozenBlock.number_ofBlock (codec : Codec) (block : Block) (receipts : List Receipt)
    (total : Nat) : (ofBlock codec block receipts total).number = block.header.number :=
  rfl

@[simp]
theorem FrozenBlock.hash_ofBlock (codec : Codec) (block : Block) (receipts : List Receipt)
    (total : Nat) : (ofBlock codec block receipts total).hash = block.hash codec.toHeaderCodec :=
  rfl

theorem FrozenBlock.entry_ofBlock (codec : Codec) (block : Block) (receipts : List Receipt)
    (total : Nat) (table : Table) :
    (ofBlock codec block receipts total).entry table =
      tableItem codec table block receipts total := by
  cases table <;> rfl

/-- The blocks of a batch, each with its receipts and running total difficulty. -/
def frozenBatch (codec : Codec) (blocks : List Block) (receipts : List (List Receipt))
    (td : Nat) : List FrozenBlock :=
  (blocks.zip receipts).enum.map fun (i, block, blockReceipts) =>
    FrozenBlock.ofBlock codec block blockReceipts (runningTotal td blocks i)

theorem ancientBatch_singleton (codec : HeaderCodec) (block : Block) (receipts : List Receipt)
    (td : Nat) :
    ancientBatch codec [block] [receipts] td = ancientBlockAppends codec block receipts td := by
  simp [ancientBatch, runningTotal]

theorem commitAppends_append (codec : Codec) (db : Database)
    (appends appends' : List AncientAppend) :
    db.commitAppends codec (appends ++ appends') =
      (db.commitAppends codec appends).commitAppends codec appends' :=
  List.foldl_append _ _ _ _

theorem issueAppends_acceptingOp (issued appends : List AncientAppend) :
    issueAppends acceptingOp issued appends = (issued ++ appends, none) := by
  induction appends generalizing issued with
  | nil => simp [issueAppends]
  | cons append appends ih => simp [issueAppends, acceptingOp, ih]

/-- A freezer that accepts every append is handed the whole batch, without error. -/
theorem writeAncientBlocks_acceptingOp (codec : HeaderCodec) {blocks : List Block}
    {receipts : List (List Receipt)} (enough : blocks.length ≤ receipts.length) (td : Nat) :
    writeAncientBlocks codec acceptingOp blocks receipts td =
      (ancientBatch codec blocks receipts td, .returns none) := by
  simpa [issueAppends_acceptingOp] using
    writeAncientLoop_eq codec acceptingOp td enough blocks 0 [] [] rfl

/-! ## A committed batch is the appends of the migration -/

section Commit

variable (codec : Codec)

/-- Appends to distinct tables, each at its table's end at the block's number and each of
the block's entry for its table, are steps of the block's migration. -/
theorem reach_commitAppends {frozen : FrozenBlock} (appends : List AncientAppend)
    (distinct : (appends.map (·.table)).Nodup) {db : Database}
    (each : ∀ append ∈ appends, (db.ancient append.table).length = frozen.number.toNat ∧
      append.item.encode codec = frozen.entry append.table) :
    ReflTransGen (MigrationStep frozen) db (db.commitAppends codec appends) := by
  induction appends generalizing db with
  | nil => exact .refl
  | cons append appends ih =>
      rw [List.map_cons, List.nodup_cons] at distinct
      obtain ⟨atEnd, entry⟩ := each append (List.mem_cons_self _ _)
      have first : MigrationStep frozen db
          (db.appendAncient append.table (append.item.encode codec)) :=
        entry ▸ .append append.table atEnd
      refine .head first (ih distinct.2 fun other mem => ?_)
      have apart : other.table ≠ append.table :=
        fun same => distinct.1 (same ▸ List.mem_map_of_mem _ mem)
      simpa only [Database.appendAncient, Function.update_noteq apart] using
        each other (List.mem_cons_of_mem _ mem)

/-- The appends of one block, committed at the tables' common length, are the appends of
the block's migration. -/
theorem reach_commit_ancientBlockAppends {db : Database} (block : Block)
    (receipts : List Receipt) (total : Nat)
    (level : ∀ table, (db.ancient table).length = block.header.number.toNat) :
    ReflTransGen (MigrationStep (FrozenBlock.ofBlock codec block receipts total)) db
      (db.commitAppends codec (ancientBlockAppends codec.toHeaderCodec block receipts total)) :=
  reach_commitAppends codec (ancientBlockAppends codec.toHeaderCodec block receipts total)
    (show [Table.hashTable, .headerTable, .bodiesTable, .receiptTable, .difficultyTable].Nodup by
      decide) fun append mem => by
    simp only [ancientBlockAppends, List.mem_cons, List.not_mem_nil, or_false] at mem
    rcases mem with rfl | rfl | rfl | rfl | rfl <;> exact ⟨level _, rfl⟩

theorem length_commit_ancientBlockAppends (db : Database) (block : Block)
    (receipts : List Receipt) (total : Nat) (table : Table) :
    ((db.commitAppends codec (ancientBlockAppends codec.toHeaderCodec block receipts total)).ancient
      table).length = (db.ancient table).length + 1 := by
  rw [ancient_commitAppends]
  cases table <;> simp [ancientBlockAppends]

/-- The appends of blocks numbered on from the tables' common length, committed in order,
are the appends of each block's migration, one block after the other. -/
theorem reach_commit_entries (total : Nat → Nat) (entries : List (Nat × Block × List Receipt))
    {db : Database} {length : Nat} (level : ∀ table, (db.ancient table).length = length)
    (numbered : ∀ k (valid : k < entries.length),
      entries[k].2.1.header.number.toNat = length + k) :
    ReflTransGen (fun db db' => ∃ frozen ∈ entries.map fun (i, block, blockReceipts) =>
        FrozenBlock.ofBlock codec block blockReceipts (total i), MigrationStep frozen db db') db
      (db.commitAppends codec (entries.map fun (i, block, blockReceipts) =>
        ancientBlockAppends codec.toHeaderCodec block blockReceipts (total i)).flatten) := by
  induction entries generalizing db length with
  | nil => exact .refl
  | cons entry entries ih =>
      obtain ⟨i, block, blockReceipts⟩ := entry
      simp only [List.map_cons, List.flatten_cons, commitAppends_append]
      have atLevel : block.header.number.toNat = length := by simpa using numbered 0 (by simp)
      have first := reach_commit_ancientBlockAppends codec block blockReceipts (total i)
        fun table => (level table).trans atLevel.symm
      have levelAfter (table : Table) : ((db.commitAppends codec (ancientBlockAppends
          codec.toHeaderCodec block blockReceipts (total i))).ancient table).length =
            length + 1 := by
        rw [length_commit_ancientBlockAppends, level]
      have rest := ih levelAfter fun k valid => by
        simpa [Nat.add_assoc, Nat.add_comm 1] using numbered (k + 1) (by simpa)
      exact (first.mono fun _ _ step => ⟨_, List.mem_cons_self _ _, step⟩).trans
        (rest.mono fun _ _ ⟨frozen, mem, step⟩ =>
          ⟨frozen, List.mem_cons_of_mem _ mem, step⟩)

/-- The appends of one block, committed at the tables' common length, leave the block in
the tables. -/
theorem appended_commit_ancientBlockAppends {db : Database} (block : Block)
    (receipts : List Receipt) (total : Nat)
    (level : ∀ table, (db.ancient table).length = block.header.number.toNat) :
    (FrozenBlock.ofBlock codec block receipts total).Appended
      (db.commitAppends codec (ancientBlockAppends codec.toHeaderCodec block receipts total)) :=
  fun table => by
    rw [FrozenBlock.entry_ofBlock, ← ancientBatch_singleton]
    exact ancientAt_commit_ancientBatch codec level (by simp : [block].length ≤ [receipts].length)
      total (by simp : 0 < [block].length) rfl table

end Commit

/-- Written at the tables' common length with the blocks numbered on from it, the batch
`WriteAncientBlocks` hands `ModifyAncients` is, as committed, a run of migration steps of
the batch's blocks, one block after the other, whatever the freezer answers; and when it
returns no error, every block of the batch is in the tables. -/
theorem writeAncientBlocks_refines_migration (codec : Codec) (op : AncientWriteOp)
    {db : Database} {length : Nat} (level : ∀ table, (db.ancient table).length = length)
    (blocks : List Block) (receipts : List (List Receipt)) (td : Nat)
    (enough : blocks.length ≤ receipts.length)
    (numbered : ∀ i (valid : i < blocks.length), blocks[i].header.number.toNat = length + i) :
    let committedDb :=
      modifyAncients codec db (writeAncientBlocks codec.toHeaderCodec op blocks receipts td)
    ReflTransGen (fun db db' => ∃ frozen ∈ frozenBatch codec blocks receipts td,
        MigrationStep frozen db db') db committedDb ∧
      ((writeAncientBlocks codec.toHeaderCodec op blocks receipts td).2 = .returns none →
        ∀ frozen ∈ frozenBatch codec blocks receipts td, frozen.Appended committedDb) := by
  intro committedDb
  have entriesNumbered : ∀ k (valid : k < ((blocks.zip receipts).enum).length),
      ((blocks.zip receipts).enum)[k].2.1.header.number.toNat = length + k := by
    intro k valid
    simp only [List.enum_length, List.length_zip, Nat.lt_min] at valid
    simpa using numbered k valid.1
  by_cases committed : (writeAncientBlocks codec.toHeaderCodec op blocks receipts td).2 =
    .returns none
  · have isCommit : committedDb =
        db.commitAppends codec (ancientBatch codec.toHeaderCodec blocks receipts td) := by
      simp only [committedDb, modifyAncients, committed,
        writeAncientBlocks_committed codec.toHeaderCodec op enough committed]
    rw [isCommit]
    refine ⟨reach_commit_entries codec (runningTotal td blocks) _ level entriesNumbered,
      fun _ frozen mem table => ?_⟩
    obtain ⟨⟨i, block, blockReceipts⟩, atIndex, rfl⟩ := List.mem_map.mp mem
    have atZip : blocks[i]? = some block ∧ receipts[i]? = some blockReceipts :=
      List.getElem?_zip_eq_some.mp (List.mem_enum_iff_getElem?.mp atIndex)
    obtain ⟨valid, rfl⟩ := List.getElem?_eq_some_iff.mp atZip.1
    obtain ⟨-, rfl⟩ := List.getElem?_eq_some_iff.mp atZip.2
    dsimp only
    rw [FrozenBlock.entry_ofBlock]
    exact ancientAt_commit_ancientBatch codec level enough td valid (numbered i valid) table
  · have unchanged : committedDb = db := by
      simp only [committedDb, modifyAncients]
    exact ⟨unchanged ▸ .refl, fun done => absurd done committed⟩

/-- The two sample blocks, committed to the empty freezer, are both in its tables. -/
theorem writeAncientBlocks_refines_migration_sample :
    (∀ table, (emptySample.ancient table).length = 0) ∧
      ancientSampleBlocks.length ≤ [([] : List Receipt), []].length ∧
      (∀ i (valid : i < ancientSampleBlocks.length),
        ancientSampleBlocks[i].header.number.toNat = 0 + i) ∧
      ∀ frozen ∈ frozenBatch sampleCodec.toCodec ancientSampleBlocks [[], []] 5,
        frozen.Appended (modifyAncients sampleCodec.toCodec emptySample
          (writeAncientBlocks sampleCodec.toHeaderCodec acceptingOp ancientSampleBlocks
            [[], []] 5)) :=
  ⟨fun _ => rfl, by decide, by decide,
    (writeAncientBlocks_refines_migration sampleCodec.toCodec acceptingOp (fun _ => rfl)
      ancientSampleBlocks [[], []] 5 (by decide) (by decide)).2 rfl⟩

/-! ## The cycle for one block -/

/-- One step of the freezer's cycle for `block`, as the accessors carry it out: the batch
`WriteAncientBlocks` hands `ModifyAncients` for the block alone, at the tables' common
length and whatever the freezer answers; or, once the tables hold the block, one of the
deletes `DeleteBlockWithoutNumber` and `DeleteCanonicalHash` issue for it. -/
inductive FreezerStep (codec : Codec) (block : Block) (receipts : List Receipt) (td : Nat) :
    Database → Database → Prop
  | commit {db : Database} (op : AncientWriteOp) :
      (∀ table, (db.ancient table).length = block.header.number.toNat) →
      FreezerStep codec block receipts td db
        (modifyAncients codec db (writeAncientBlocks codec.toHeaderCodec op [block] [receipts] td))
  | delete {db : Database} {write : Write} :
      write ∈ deleteBlockWithoutNumber (block.hash codec.toHeaderCodec) block.header.number ++
          deleteCanonicalHash block.header.number →
      (FrozenBlock.ofBlock codec block receipts td).Appended db →
      FreezerStep codec block receipts td db { db with live := write.apply db.live }

/-- A run under an environment each of whose steps is a run of `env'` steps is a run under
`env'`. -/
theorem Probe.Runs.mono {α : Type} {env env' : Database → Database → Prop}
    (coarser : ∀ db db', env db db' → ReflTransGen env' db db') {db final : Database}
    {call : Probe α} {result : α} (run : Runs env db call result final) :
    Runs env' db call result final := by
  induction run with
  | done => exact .done
  | ancient reach _ ih => exact .ancient (reach.lift' id coarser) ih
  | get reach _ ih => exact .get (reach.lift' id coarser) ih
  | has reach _ ih => exact .has (reach.lift' id coarser) ih

/-- The store after deletes of `keys`: each of them absent, every other key as it was. -/
theorem get_applyWrites_deletes (keys : List Bytes) (live : KeyValueStore) (key : Bytes) :
    (applyWrites (keys.map .delete) live).get key =
      if key ∈ keys then none else live.get key := by
  induction keys generalizing live with
  | nil => simp
  | cons first keys ih =>
      rw [List.map_cons, applyWrites_cons, ih, Write.apply_delete, KeyValueStore.get_delete]
      by_cases later : key ∈ keys <;> by_cases here : key = first <;> simp [here, later]

/-- The deletes the cycle issues are those of the block's five live keys. -/
theorem cycleDeletes_eq (codec : Codec) (block : Block) (receipts : List Receipt) (td : Nat) :
    deleteBlockWithoutNumber (block.hash codec.toHeaderCodec) block.header.number ++
        deleteCanonicalHash block.header.number =
      ([Table.receiptTable, .headerTable, .bodiesTable, .difficultyTable, .hashTable].map
        (FrozenBlock.ofBlock codec block receipts td).liveKey).map .delete :=
  rfl

section Cycle

variable {codec : Codec} {block : Block} {receipts : List Receipt} {td : Nat}

/-- Each step of the cycle is a run of steps of the block's migration. -/
theorem FreezerStep.reach {db db' : Database} (step : FreezerStep codec block receipts td db db') :
    ReflTransGen (MigrationStep (FrozenBlock.ofBlock codec block receipts td)) db db' := by
  cases step with
  | commit op level =>
      unfold modifyAncients
      split
      next committed =>
        rw [writeAncientBlocks_committed codec.toHeaderCodec op (by simp) committed,
          ancientBatch_singleton]
        exact reach_commit_ancientBlockAppends codec block receipts td level
      · exact .refl
  | delete issued appended =>
      rw [cycleDeletes_eq codec block receipts td, List.mem_map] at issued
      obtain ⟨key, mem, rfl⟩ := issued
      obtain ⟨table, -, rfl⟩ := List.mem_map.mp mem
      exact .single (.delete table appended)

/-- A reader the block's migration leaves linearizable is linearizable under the cycle. -/
theorem Linearizable.freezer {α : Type} {start : Database} {call : Probe α}
    (linearizable : Linearizable (FrozenBlock.ofBlock codec block receipts td) start call)
    {db final : Database} {result : α}
    (reach : ReflTransGen (FreezerStep codec block receipts td) start db)
    (run : Runs (FreezerStep codec block receipts td) db call result final) :
    result = call.eval start :=
  linearizable db result final (reach.lift' id fun _ _ step => step.reach)
    (run.mono fun _ _ step => step.reach)

/-- Deletes the cycle issues, from a database whose tables hold the block, are steps of the
cycle. -/
theorem reach_deletes {db : Database}
    (appended : (FrozenBlock.ofBlock codec block receipts td).Appended db) (writes : List Write)
    (issued : ∀ write ∈ writes, write ∈ deleteBlockWithoutNumber
      (block.hash codec.toHeaderCodec) block.header.number ++
        deleteCanonicalHash block.header.number) :
    ReflTransGen (FreezerStep codec block receipts td) db
      { db with live := applyWrites writes db.live } := by
  induction writes generalizing db with
  | nil => exact .refl
  | cons write writes ih =>
      have stillAppended : (FrozenBlock.ofBlock codec block receipts td).Appended
          { db with live := write.apply db.live } := appended
      exact .head (.delete (issued write (List.mem_cons_self _ _)) appended)
        (ih stillAppended fun other mem => issued other (List.mem_cons_of_mem _ mem))

/-- With a freezer that accepts every append, the cycle moves the block: it reaches a
database whose tables hold the block and whose live store holds none of its records. -/
theorem freezer_cycle_moves {db : Database}
    (level : ∀ table, (db.ancient table).length = block.header.number.toNat) :
    ∃ final, ReflTransGen (FreezerStep codec block receipts td) db final ∧
      (FrozenBlock.ofBlock codec block receipts td).Appended final ∧
      ∀ table,
        final.live.get ((FrozenBlock.ofBlock codec block receipts td).liveKey table) = none := by
  have commit := @FreezerStep.commit codec block receipts td db acceptingOp level
  simp only [writeAncientBlocks_acceptingOp codec.toHeaderCodec
    (by simp : [block].length ≤ [receipts].length), modifyAncients,
    ancientBatch_singleton] at commit
  have appended := appended_commit_ancientBlockAppends codec block receipts td level
  have deletes := reach_deletes appended _ fun write mem => mem
  refine ⟨_, .head commit deletes, appended, fun table => ?_⟩
  rw [cycleDeletes_eq codec block receipts td, get_applyWrites_deletes, if_pos (List.mem_map_of_mem _ (by
    cases table <;> decide))]

end Cycle

/-- The freezer's cycle for a block, as the accessors carry it out, refines the migration of
what `writeAncientBlock` hands the freezer for it: each step is a run of migration steps;
so a reader the migration leaves linearizable returns, under any interleaving with the
cycle, what it returns on the database the cycle started from; and from tables at the
block's number, with a freezer that accepts every append, the cycle reaches a database
whose tables hold the block and whose live store holds none of its records. -/
theorem freezer_refines_migration (codec : Codec) (block : Block) (receipts : List Receipt)
    (td : Nat) :
    let frozen := FrozenBlock.ofBlock codec block receipts td
    (∀ db db', FreezerStep codec block receipts td db db' →
      ReflTransGen (MigrationStep frozen) db db') ∧
    (∀ {α : Type} (start : Database) (call : Probe α), Linearizable frozen start call →
      ∀ db result final, ReflTransGen (FreezerStep codec block receipts td) start db →
        Runs (FreezerStep codec block receipts td) db call result final →
          result = call.eval start) ∧
    (∀ db : Database, (∀ table, (db.ancient table).length = block.header.number.toNat) →
      ∃ final, ReflTransGen (FreezerStep codec block receipts td) db final ∧
        frozen.Appended final ∧ ∀ table, final.live.get (frozen.liveKey table) = none) :=
  ⟨fun _ _ step => step.reach,
    fun _ _ linearizable _ _ _ reach run => linearizable.freezer reach run,
    fun _ level => freezer_cycle_moves level⟩

/-- The live store after `WriteBlock`, `WriteReceipts`, `WriteTd` and `WriteCanonicalHash`
of the sample block, over an empty freezer. -/
def freezerSampleStart : Database :=
  let hash := ancientSampleBlock.hash sampleCodec.toHeaderCodec
  let number := ancientSampleBlock.header.number
  ⟨applyWrites (writeBlock sampleCodec.toCodec ancientSampleBlock ++
      writeReceipts sampleCodec.toCodec hash number [] ++
      writeTd sampleCodec.toCodec hash number 1 ++ writeCanonicalHash hash number)
      KeyValueStore.empty,
    fun _ => []⟩

/-- `ReadBlock` of the sample block, run against the freezer's cycle for it from
`freezerSampleStart`, returns what it returns at the start. -/
theorem freezer_refines_migration_sample :
    ancientSampleBlock.hash sampleCodec.toHeaderCodec ≠ Hash.zero ∧
      ∀ db result final,
        ReflTransGen (FreezerStep sampleCodec.toCodec ancientSampleBlock [] 1)
          freezerSampleStart db →
        Runs (FreezerStep sampleCodec.toCodec ancientSampleBlock [] 1) db
            (readBlock sampleCodec.toCodec (ancientSampleBlock.hash sampleCodec.toHeaderCodec)
              ancientSampleBlock.header.number) result final →
          result = (readBlock sampleCodec.toCodec
            (ancientSampleBlock.hash sampleCodec.toHeaderCodec)
            ancientSampleBlock.header.number).eval freezerSampleStart :=
  have nonzero : ancientSampleBlock.hash sampleCodec.toHeaderCodec ≠ Hash.zero := by decide
  have unfrozen : (FrozenBlock.ofBlock sampleCodec.toCodec ancientSampleBlock [] 1).Unfrozen
      freezerSampleStart := fun _ => rfl
  have live : ∀ table, (FrozenBlock.ofBlock sampleCodec.toCodec ancientSampleBlock [] 1).Live
      freezerSampleStart table := by
    intro table
    cases table <;> decide
  ⟨nonzero, (freezer_refines_migration sampleCodec.toCodec ancientSampleBlock [] 1).2.1
    freezerSampleStart _ (readBlock_linearizable unfrozen live (.inl rfl) nonzero _)⟩

end Rawdb
