import Rawdb.ReadPath

/-!
# Reading while the freezer migrates a block

The freezer moves a canonical block from the live store to the ancient store without
coordinating with readers. It appends the block's hash, header, body, receipts and total
difficulty to the ancient tables at the block's number, each append becoming visible on
its own and the tables in any order; only when all five are visible does it delete the
block's live entries, again one key at a time. `MigrationStep` is one such step.

A reader started while the record is live may see the first ancient probe miss, the
record deleted from the live store by the time it gets there, and then the record in the
ancient store on its third probe. `Migrating` says what any database reachable by the
migration looks like relative to where it started; the lemmas after it say what each
probe can return during the migration, and the reader results are assembled from them.

The existence checks have no third probe: `hasHeader_misses_during_migration` is a run
in which the whole migration falls between `HasHeader`'s two probes.
-/

namespace Rawdb

open Probe Relation

/-- The canonical block the freezer moves: its hash and number, and the encodings it
copies from the live store. -/
structure FrozenBlock where
  hash : Hash
  number : UInt64
  header : Bytes
  body : Bytes
  receipts : Bytes
  difficulty : Bytes

namespace FrozenBlock

/-- What the freezer appends to `table` for the block. -/
def entry (block : FrozenBlock) : Table → Bytes
  | .hashTable => block.hash.bytes
  | .headerTable => block.header
  | .bodiesTable => block.body
  | .receiptTable => block.receipts
  | .difficultyTable => block.difficulty

/-- The live key of the record the freezer copies to `table`. -/
def liveKey (block : FrozenBlock) : Table → Bytes
  | .hashTable => headerHashKey block.number
  | .headerTable => headerKey block.number block.hash
  | .bodiesTable => blockBodyKey block.number block.hash
  | .receiptTable => blockReceiptsKey block.number block.hash
  | .difficultyTable => headerTDKey block.number block.hash

/-- Every ancient table holds the block at its number. -/
def Appended (block : FrozenBlock) (db : Database) : Prop :=
  ∀ table, db.ancientAt table block.number = some (block.entry table)

/-- No ancient table holds an item at the block's number yet. -/
def Unfrozen (block : FrozenBlock) (db : Database) : Prop :=
  ∀ table, db.ancientAt table block.number = none

/-- The live store holds the block's `table` record, non-empty and byte-identical to
what the freezer appends. -/
def Live (block : FrozenBlock) (db : Database) (table : Table) : Prop :=
  db.live.get (block.liveKey table) = some (block.entry table) ∧ block.entry table ≠ []

instance (block : FrozenBlock) (db : Database) (table : Table) :
    Decidable (block.Live db table) :=
  inferInstanceAs (Decidable (_ ∧ _))

end FrozenBlock

/-- One atomic step of the freezer's migration of `block`. -/
inductive MigrationStep (block : FrozenBlock) : Database → Database → Prop
  | append {db : Database} (table : Table) :
      (db.ancient table).length = block.number.toNat →
      MigrationStep block db (db.appendAncient table (block.entry table))
  | delete {db : Database} (table : Table) :
      block.Appended db →
      MigrationStep block db (db.deleteLive (block.liveKey table))

/-! ## The migration's invariant -/

theorem ancientAt_appendAncient (db : Database) (table table' : Table) (item : Bytes)
    (number : UInt64) :
    (db.appendAncient table item).ancientAt table' number =
      if table' = table ∧ number.toNat = (db.ancient table).length then some item
      else db.ancientAt table' number := by
  by_cases same : table' = table
  · subst same
    simp only [Database.appendAncient, Database.ancientAt, Function.update_same, true_and]
    rcases Nat.lt_or_ge number.toNat (db.ancient table').length with inside | outside
    · rw [List.getElem?_append_left inside, if_neg (by omega)]
    · rw [List.getElem?_append_right outside, List.getElem?_eq_none outside]
      split_ifs with atEnd
      · simp [atEnd]
      · rw [List.getElem?_eq_none (by simp; omega)]
  · simp [Database.appendAncient, Database.ancientAt, Function.update_noteq same, same]

section Migration

variable {block : FrozenBlock} {start db db' : Database}

/-- What the migration of `block`, started on `start`, can have done by `db`: each table
holds nothing or the block's entry at the block's number, and each live value is the one
`start` had, or has been deleted after every table came to hold the block. -/
structure Migrating (block : FrozenBlock) (start db : Database) : Prop where
  ancient_entry : ∀ table, db.ancientAt table block.number = none ∨
    db.ancientAt table block.number = some (block.entry table)
  live_value : ∀ key, db.live.get key = start.live.get key ∨
    (db.live.get key = none ∧ block.Appended db)

theorem MigrationStep.appended (step : MigrationStep block db db')
    (appended : block.Appended db) : block.Appended db' := by
  cases step with
  | append table atEnd =>
      intro table'
      rw [ancientAt_appendAncient, if_neg]
      · exact appended table'
      · rintro ⟨rfl, -⟩
        have present := appended table'
        simp [Database.ancientAt, List.getElem?_eq_none, atEnd] at present
  | delete table _ => exact appended

theorem MigrationStep.migrating (step : MigrationStep block db db')
    (migrating : Migrating block start db) : Migrating block start db' := by
  cases step with
  | append table atEnd =>
      refine ⟨fun table' => ?_, fun key => ?_⟩
      · rw [ancientAt_appendAncient]
        split_ifs with here
        · exact .inr (by rw [here.1])
        · exact migrating.ancient_entry table'
      · rcases migrating.live_value key with same | ⟨gone, appended⟩
        · exact .inl same
        · exact .inr ⟨gone, (MigrationStep.append table atEnd).appended appended⟩
  | delete table appended =>
      refine ⟨migrating.ancient_entry, fun key => ?_⟩
      simp only [Database.deleteLive, KeyValueStore.get_delete]
      split_ifs
      · exact .inr ⟨rfl, appended⟩
      · exact migrating.live_value key

theorem migrating_of_reach (unfrozen : block.Unfrozen start)
    (reach : ReflTransGen (MigrationStep block) start db) : Migrating block start db := by
  induction reach with
  | refl => exact ⟨fun table => .inl (unfrozen table), fun _ => .inl rfl⟩
  | tail _ step ih => exact step.migrating ih

theorem appended_of_reach (reach : ReflTransGen (MigrationStep block) db db')
    (appended : block.Appended db) : block.Appended db' := by
  induction reach with
  | refl => exact appended
  | tail _ step ih => exact step.appended ih

/-- During the migration an ancient probe at the block's number sees nothing or the
block's entry. -/
theorem Migrating.ancientData (migrating : Migrating block start db) (table : Table) :
    (db.ancientAt table block.number).getD [] = [] ∨
      (db.ancientAt table block.number).getD [] = block.entry table := by
  rcases migrating.ancient_entry table with seen | seen <;> simp [seen]

/-- During the migration a live probe of one of the block's records sees it, or finds it
deleted once every table holds the block. -/
theorem Migrating.liveData (migrating : Migrating block start db) {table : Table}
    (live : block.Live start table) :
    (db.live.get (block.liveKey table)).getD [] = block.entry table ∨
      ((db.live.get (block.liveKey table)).getD [] = [] ∧ block.Appended db) := by
  rcases migrating.live_value (block.liveKey table) with same | ⟨gone, appended⟩
  · exact .inl (by simp [same, live.1])
  · exact .inr ⟨by simp [gone], appended⟩

/-! ## Readers during the migration -/

/-- The plan shared by the readers: a first probe, then the live record, then a last
probe. If the first probe sees nothing or the record, the live probe sees the record or
finds it deleted after every table holds the block, and the last probe sees the record
once every table holds the block, then the reader returns the record. -/
theorem runs_fallback {first last : Probe Bytes} {key record result : Bytes}
    (firstSeen : ∀ {db db' : Database} {seen : Bytes},
      ReflTransGen (MigrationStep block) start db →
      Runs (MigrationStep block) db first seen db' → seen = [] ∨ seen = record)
    (liveSeen : ∀ {db : Database}, ReflTransGen (MigrationStep block) start db →
      (db.live.get key).getD [] = record ∨
        ((db.live.get key).getD [] = [] ∧ block.Appended db))
    (lastSeen : ∀ {db db' : Database} {seen : Bytes}, block.Appended db →
      Runs (MigrationStep block) db last seen db' → seen = record)
    (nonempty : record ≠ []) (reach : ReflTransGen (MigrationStep block) start db)
    (run : Runs (MigrationStep block) db
      (first.bind fun data => if (!data.isEmpty) = true then done data else
        (getData key).bind fun data => if (!data.isEmpty) = true then done data else last)
      result db') :
    result = record := by
  obtain ⟨seen, probed, firstRun, run⟩ := runs_bind_iff.mp run
  rcases firstSeen reach firstRun with rfl | rfl
  · simp only [List.isEmpty_nil, Bool.not_true, Bool.false_eq_true, if_false,
      runs_bind_iff, runs_getData_iff] at run
    obtain ⟨_, probed', ⟨toLive, rfl⟩, run⟩ := run
    rcases liveSeen ((reach.trans firstRun.reach).trans toLive) with
      seenLive | ⟨empty, appended⟩
    · exact (by simpa [seenLive, nonempty, runs_done_iff] using run : _ ∧ _).1
    · rw [empty] at run
      exact lastSeen appended (by simpa using run)
  · exact (by simpa [nonempty, runs_done_iff] using run : _ ∧ _).1

theorem readHeaderRLP_during (unfrozen : block.Unfrozen start)
    (live : block.Live start .headerTable) (reach : ReflTransGen (MigrationStep block) start db)
    {result : Bytes} (run : Runs (MigrationStep block) db (readHeaderRLP block.hash block.number)
      result db') :
    result = block.header := by
  simp only [readHeaderRLP, bind_eq, pure_eq, done_bind] at run
  refine runs_fallback (fun reach' firstRun => ?_) (fun reach' => ?_) (fun appended lastRun => ?_)
    live.2 reach run
  · obtain ⟨toProbe, rfl⟩ := runs_ancientData_iff.mp firstRun
    exact (migrating_of_reach unfrozen (reach'.trans toProbe)).ancientData .headerTable
  · exact (migrating_of_reach unfrozen reach').liveData live
  · obtain ⟨_, probed, ancientRun, lastRun⟩ := runs_bind_iff.mp lastRun
    obtain ⟨toProbe, rfl⟩ := runs_ancientData_iff.mp ancientRun
    have seen : (probed.ancientAt .headerTable block.number).getD [] = block.header := by
      simp [appended_of_reach toProbe appended .headerTable, FrozenBlock.entry]
    have nonempty : block.header ≠ [] := live.2
    exact (by simpa [seen, nonempty, runs_done_iff] using lastRun : _ ∧ _).1

/-- `ancientChecked` returns nothing or what its first probe saw. -/
theorem ancientChecked_seen {env : Database → Database → Prop} {table : Table} {hash : Hash}
    {number : UInt64} {seen : Bytes}
    (run : Runs env db (ancientChecked table hash number) seen db') :
    ∃ probed, ReflTransGen env db probed ∧
      (seen = [] ∨ seen = (probed.ancientAt table number).getD []) := by
  simp only [ancientChecked, bind_eq, pure_eq, done_bind, runs_bind_iff,
    runs_ancientData_iff] at run
  obtain ⟨_, probed, ⟨toProbe, rfl⟩, rest⟩ := run
  refine ⟨probed, toProbe, ?_⟩
  by_cases empty : (probed.ancientAt table number).getD [] = []
  · simp_all [runs_done_iff]
  · simp only [empty, List.isEmpty_eq_false.mpr empty, Bool.not_false, if_true,
      runs_bind_iff, runs_ancientData_iff] at rest
    obtain ⟨_, _, -, rest⟩ := rest
    split_ifs at rest <;> simp_all [runs_done_iff]

theorem ancientChecked_during (unfrozen : block.Unfrozen start) (table : Table)
    (reach : ReflTransGen (MigrationStep block) start db) {seen : Bytes}
    (run : Runs (MigrationStep block) db (ancientChecked table block.hash block.number) seen
      db') :
    seen = [] ∨ seen = block.entry table := by
  obtain ⟨probed, toProbe, empty | rfl⟩ := ancientChecked_seen run
  · exact .inl empty
  · exact (migrating_of_reach unfrozen (reach.trans toProbe)).ancientData table

theorem ancientChecked_appended {table : Table} (nonempty : block.entry table ≠ [])
    (appended : block.Appended db) {seen : Bytes}
    (run : Runs (MigrationStep block) db (ancientChecked table block.hash block.number) seen
      db') :
    seen = block.entry table := by
  simp only [ancientChecked, bind_eq, pure_eq, done_bind, runs_bind_iff,
    runs_ancientData_iff] at run
  obtain ⟨_, probed, ⟨toProbe, rfl⟩, run⟩ := run
  simp only [appended_of_reach toProbe appended table, Option.getD_some,
    List.isEmpty_eq_false.mpr nonempty, Bool.not_false, if_true, runs_bind_iff,
    runs_ancientData_iff] at run
  obtain ⟨_, probed', ⟨toHash, rfl⟩, run⟩ := run
  simp only [appended_of_reach (toProbe.trans toHash) appended .hashTable, Option.getD_some,
    FrozenBlock.entry, bytesToHash_bytes, if_true, runs_done_iff] at run
  exact run.1

theorem readCheckedRLP_during (unfrozen : block.Unfrozen start) {table : Table}
    (live : block.Live start table) (reach : ReflTransGen (MigrationStep block) start db)
    {result : Bytes}
    (run : Runs (MigrationStep block) db
      (readCheckedRLP table (block.liveKey table) block.hash block.number) result db') :
    result = block.entry table := by
  simp only [readCheckedRLP, bind_eq, pure_eq, done_bind] at run
  exact runs_fallback (fun reach' firstRun => ancientChecked_during unfrozen table reach' firstRun)
    (fun reach' => (migrating_of_reach unfrozen reach').liveData live)
    (fun appended lastRun => ancientChecked_appended live.2 appended lastRun) live.2 reach run

theorem readCanonicalHash_during (unfrozen : block.Unfrozen start)
    (live : block.Live start .hashTable) (reach : ReflTransGen (MigrationStep block) start db)
    {result : Hash}
    (run : Runs (MigrationStep block) db (readCanonicalHash block.number) result db') :
    result = block.hash := by
  simp only [readCanonicalHash, bind_eq, pure_eq, done_bind, runs_bind_iff,
    runs_ancientData_iff] at run
  obtain ⟨_, probed, ⟨toProbe, rfl⟩, run⟩ := run
  have migrating := migrating_of_reach unfrozen (reach.trans toProbe)
  rcases migrating.ancientData .hashTable with empty | seen
  · simp only [empty, List.isEmpty_nil, if_true, runs_bind_iff, runs_getData_iff] at run
    obtain ⟨_, probed', ⟨toLive, rfl⟩, run⟩ := run
    rcases (migrating_of_reach unfrozen ((reach.trans toProbe).trans toLive)).liveData live
      with seenLive | ⟨emptyLive, appended⟩
    · simp only [FrozenBlock.liveKey, FrozenBlock.entry] at seenLive
      simp [seenLive, runs_done_iff] at run
      exact run.1
    · simp only [FrozenBlock.liveKey] at emptyLive
      simp only [emptyLive, List.isEmpty_nil, if_true, runs_bind_iff, runs_ancientData_iff] at run
      obtain ⟨_, probed'', ⟨toLast, rfl⟩, run⟩ := run
      simp [appended_of_reach toLast appended .hashTable, FrozenBlock.entry, runs_done_iff] at run
      exact run.1
  · simp only [FrozenBlock.entry] at seen
    simp [seen, runs_done_iff] at run
    exact run.1

theorem readCanonicalBodyRLP_during (unfrozen : block.Unfrozen start)
    (canonical : block.Live start .hashTable) (live : block.Live start .bodiesTable)
    (reach : ReflTransGen (MigrationStep block) start db) {result : Bytes}
    (run : Runs (MigrationStep block) db (readCanonicalBodyRLP block.number) result db') :
    result = block.body := by
  have nonempty : block.body ≠ [] := live.2
  simp only [readCanonicalBodyRLP, bind_eq, pure_eq, done_bind, runs_bind_iff,
    runs_ancientData_iff] at run
  obtain ⟨_, probed, ⟨toProbe, rfl⟩, run⟩ := run
  have reachProbe := reach.trans toProbe
  rcases (migrating_of_reach unfrozen reachProbe).ancientData .bodiesTable with empty | seen
  · simp only [empty, List.isEmpty_nil, if_true, runs_bind_iff] at run
    obtain ⟨hash, probed', hashRun, run⟩ := run
    cases readCanonicalHash_during unfrozen canonical reachProbe hashRun
    simp only [runs_bind_iff, runs_getData_iff] at run
    obtain ⟨_, probed'', ⟨toLive, rfl⟩, run⟩ := run
    rcases (migrating_of_reach unfrozen ((reachProbe.trans hashRun.reach).trans toLive)).liveData
      live with seenLive | ⟨emptyLive, appended⟩
    · simp only [FrozenBlock.liveKey, FrozenBlock.entry] at seenLive
      simp [seenLive, nonempty, runs_done_iff] at run
      exact run.1
    · simp only [FrozenBlock.liveKey] at emptyLive
      simp only [emptyLive, List.isEmpty_nil, if_true, runs_bind_iff, runs_ancientData_iff] at run
      obtain ⟨_, probed''', ⟨toLast, rfl⟩, run⟩ := run
      simp [appended_of_reach toLast appended .bodiesTable, FrozenBlock.entry, runs_done_iff] at run
      exact run.1
  · simp only [FrozenBlock.entry] at seen
    simp [seen, nonempty, runs_done_iff] at run
    exact run.1

end Migration

/-- A reader started while the block's record is live returns that record, whatever the
steps of the block's migration between its probes: the canonical hash, the header, body,
receipts and total difficulty under the block's hash, and the canonical body. -/
theorem reads_return_record_during_migration (block : FrozenBlock) (start : Database)
    (unfrozen : block.Unfrozen start) :
    (block.Live start .hashTable → ∀ result final,
      Runs (MigrationStep block) start (readCanonicalHash block.number) result final →
        result = block.hash) ∧
    (block.Live start .headerTable → ∀ result final,
      Runs (MigrationStep block) start (readHeaderRLP block.hash block.number) result final →
        result = block.header) ∧
    (block.Live start .bodiesTable → ∀ result final,
      Runs (MigrationStep block) start (readBodyRLP block.hash block.number) result final →
        result = block.body) ∧
    (block.Live start .receiptTable → ∀ result final,
      Runs (MigrationStep block) start (readReceiptsRLP block.hash block.number) result final →
        result = block.receipts) ∧
    (block.Live start .difficultyTable → ∀ result final,
      Runs (MigrationStep block) start (readTdRLP block.hash block.number) result final →
        result = block.difficulty) ∧
    (block.Live start .hashTable → block.Live start .bodiesTable → ∀ result final,
      Runs (MigrationStep block) start (readCanonicalBodyRLP block.number) result final →
        result = block.body) :=
  ⟨fun live _ _ run => readCanonicalHash_during unfrozen live .refl run,
    fun live _ _ run => readHeaderRLP_during unfrozen live .refl run,
    fun live _ _ run => readCheckedRLP_during unfrozen live .refl run,
    fun live _ _ run => readCheckedRLP_during unfrozen live .refl run,
    fun live _ _ run => readCheckedRLP_during unfrozen live .refl run,
    fun canonical live _ _ run => readCanonicalBodyRLP_during unfrozen canonical live .refl run⟩

/-- A block at number 0 with one-byte records. -/
def sampleBlock : FrozenBlock :=
  ⟨⟨List.replicate 32 7, rfl⟩, 0, [1], [2], [3], [4]⟩

/-- The live store holding all of `sampleBlock`'s records, and an empty freezer. -/
def sampleStart : Database :=
  ⟨[Table.hashTable, .headerTable, .bodiesTable, .receiptTable, .difficultyTable].foldl
      (fun live table => live.put (sampleBlock.liveKey table) (sampleBlock.entry table))
      KeyValueStore.empty,
    fun _ => []⟩

theorem reads_return_record_during_migration_sample :
    sampleBlock.Unfrozen sampleStart ∧
      (∀ table, sampleBlock.Live sampleStart table) ∧
      ∀ result final, Runs (MigrationStep sampleBlock) sampleStart
        (readBodyRLP sampleBlock.hash sampleBlock.number) result final →
          result = sampleBlock.body :=
  have unfrozen : sampleBlock.Unfrozen sampleStart := fun _ => rfl
  ⟨unfrozen, fun table => by cases table <;> decide,
    (reads_return_record_during_migration sampleBlock sampleStart unfrozen).2.2.1
      (by decide)⟩

/-- `sampleStart` after the whole migration of `sampleBlock` up to the deletion of its
header key. -/
def sampleMigrated : Database :=
  ((((((sampleStart.appendAncient .hashTable (sampleBlock.entry .hashTable)).appendAncient
    .headerTable (sampleBlock.entry .headerTable)).appendAncient .bodiesTable
    (sampleBlock.entry .bodiesTable)).appendAncient .receiptTable
    (sampleBlock.entry .receiptTable)).appendAncient .difficultyTable
    (sampleBlock.entry .difficultyTable)).deleteLive (sampleBlock.liveKey .headerTable))

/-- `HasHeader` can report a live header missing: its ancient probe runs before the
migration and its live probe after it, and there is no third probe. -/
theorem hasHeader_misses_during_migration :
    sampleBlock.Live sampleStart .headerTable ∧
      Runs (MigrationStep sampleBlock) sampleStart
        (hasHeader sampleBlock.hash sampleBlock.number) false sampleMigrated := by
  refine ⟨by decide, ?_⟩
  have migration : ReflTransGen (MigrationStep sampleBlock) sampleStart sampleMigrated :=
    ((((((ReflTransGen.refl.tail (.append .hashTable rfl)).tail (.append .headerTable rfl)).tail
      (.append .bodiesTable rfl)).tail (.append .receiptTable rfl)).tail
      (.append .difficultyTable rfl)).tail (.delete .headerTable fun table => by
        cases table <;> rfl))
  have gone : sampleMigrated.live.has (headerKey sampleBlock.number sampleBlock.hash) = false := by
    decide
  exact .ancient .refl (gone ▸ .has migration .done)

end Rawdb
