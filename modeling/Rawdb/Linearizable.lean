import Rawdb.Quiescent
import Rawdb.RoundTrip

/-!
# The freezer seen by every reader

`Rawdb.Freezer` follows the readers of the block the freezer migrates. This file follows
all the others. The migration appends at one number and deletes the block's own live
keys, so a reader whose every probe looks elsewhere (`Probe.Avoids`) cannot tell that it
ran (`Avoids.linearizable`). A hash-checked reader of another block at the migrated
number does look at the moving tables, but its hash check turns away what it finds there,
unless it asks for the zero hash, the hash `BytesToHash` makes of a missing ancient item.

Together with the block's own readers this makes the hash-checked readers, the canonical
hash and body readers, `ReadHeaderRLP` away from forks of the migrated number and the
existence checks of every other record linearizable: whatever the interleaving, a run
returns what the reader returns on the database the migration started from
(`reads_linearizable_during_migration`). The quiescent readers never see the migration
at all, the existence checks of the block's own records included
(`migration_preserves_reads`).
-/

namespace Rawdb

open Probe Relation

/-! ## Record keys -/

/-- The length and first byte that tell the record families apart. -/
def recordShape : Table → Nat × Option (Fin 256)
  | .hashTable => (10, some 104)
  | .headerTable => (41, some 104)
  | .bodiesTable => (41, some 98)
  | .receiptTable => (41, some 114)
  | .difficultyTable => (42, some 104)

theorem recordShape_injective : Function.Injective recordShape := by
  intro table table' same
  cases table <;> cases table' <;> first | rfl | cases same

theorem shape_recordKey (table : Table) (number : UInt64) (hash : Hash) :
    ((recordKey table number hash).length, (recordKey table number hash).head?) =
      recordShape table := by
  cases table <;> exact Prod.ext (by simp [recordKey, recordShape]) rfl

theorem headerHashKey_injective {number number' : UInt64}
    (same : headerHashKey number = headerHashKey number') : number = number' :=
  encodeBlockNumber_inj.mp (List.append_cancel_left (List.append_inj_left' same rfl))

theorem headerTDKey_injective {number number' : UInt64} {hash hash' : Hash}
    (same : headerTDKey number hash = headerTDKey number' hash') :
    number = number' ∧ hash = hash' :=
  headerKey_injective (List.append_inj_left' same rfl)

theorem blockReceiptsKey_injective {number number' : UInt64} {hash hash' : Hash}
    (same : blockReceiptsKey number hash = blockReceiptsKey number' hash') :
    number = number' ∧ hash = hash' := by
  simp only [blockReceiptsKey, List.append_assoc] at same
  have numbers := List.append_inj_left (List.append_cancel_left same) (by simp)
  have hashes := List.append_inj_right (List.append_cancel_left same) (by simp)
  exact ⟨encodeBlockNumber_inj.mp numbers, Hash.ext hashes⟩

/-- Two record keys are one only for one table and number, and, but for the canonical
hash key, one hash. -/
theorem recordKey_eq_recordKey {table table' : Table} {number number' : UInt64}
    {hash hash' : Hash} (same : recordKey table number hash = recordKey table' number' hash') :
    table = table' ∧ number = number' ∧ (table = .hashTable ∨ hash = hash') := by
  obtain rfl := recordShape_injective ((shape_recordKey table number hash).symm.trans
    ((congrArg (fun key => (key.length, key.head?)) same).trans (shape_recordKey _ _ _)))
  cases table with
  | hashTable => exact ⟨rfl, headerHashKey_injective same, .inl rfl⟩
  | headerTable => exact ⟨rfl, (headerKey_injective same).1, .inr (headerKey_injective same).2⟩
  | bodiesTable =>
      exact ⟨rfl, (blockBodyKey_injective same).1, .inr (blockBodyKey_injective same).2⟩
  | receiptTable =>
      exact ⟨rfl, (blockReceiptsKey_injective same).1, .inr (blockReceiptsKey_injective same).2⟩
  | difficultyTable =>
      exact ⟨rfl, (headerTDKey_injective same).1, .inr (headerTDKey_injective same).2⟩

theorem FrozenBlock.liveKey_eq (block : FrozenBlock) (table : Table) :
    block.liveKey table = recordKey table block.number block.hash := by
  cases table <;> rfl

/-! ## What the migration leaves alone -/

namespace FrozenBlock

/-- A live key that holds none of the block's records. -/
def Off (block : FrozenBlock) (key : Bytes) : Prop :=
  ∀ table, key ≠ block.liveKey table

/-- The record keys of other numbers, and of other hashes at the block's number, are off
the block. -/
theorem off_recordKey (block : FrozenBlock) {table : Table} {number : UInt64} {hash : Hash}
    (other : number ≠ block.number ∨ table ≠ .hashTable ∧ hash ≠ block.hash) :
    block.Off (recordKey table number hash) := by
  intro table' same
  rw [liveKey_eq] at same
  obtain ⟨rfl, rfl, hashTable | rfl⟩ := recordKey_eq_recordKey same <;> simp_all

/-- `db'` holds what `db` holds at every number but the block's and under every live key
off the block. -/
structure Untouched (block : FrozenBlock) (db db' : Database) : Prop where
  ancient : ∀ table number, number ≠ block.number →
    db'.ancientAt table number = db.ancientAt table number
  live : ∀ key, block.Off key → db'.live.get key = db.live.get key

theorem Untouched.trans {block : FrozenBlock} {db db' db'' : Database}
    (first : block.Untouched db db') (second : block.Untouched db' db'') :
    block.Untouched db db'' :=
  ⟨fun table number other => (second.ancient table number other).trans
      (first.ancient table number other),
    fun key off => (second.live key off).trans (first.live key off)⟩

end FrozenBlock

section Frame

variable {block : FrozenBlock} {start db db' : Database}

theorem MigrationStep.untouched (step : MigrationStep block db db') : block.Untouched db db' := by
  cases step with
  | append table atEnd =>
      refine ⟨fun table' number other => ?_, fun _ _ => rfl⟩
      rw [ancientAt_appendAncient, if_neg]
      rintro ⟨-, atNumber⟩
      exact other (UInt64.toNat.inj (atNumber.trans atEnd))
  | delete table _ =>
      refine ⟨fun _ _ _ => rfl, fun key off => ?_⟩
      simp only [Database.deleteLive, KeyValueStore.get_delete, if_neg (off table)]

theorem untouched_of_reach (reach : ReflTransGen (MigrationStep block) start db) :
    block.Untouched start db := by
  induction reach with
  | refl => exact ⟨fun _ _ _ => rfl, fun _ _ => rfl⟩
  | tail _ step ih => exact ih.trans step.untouched

end Frame

/-! ## Readers that look elsewhere -/

/-- Every run of `call` interleaved with the migration of `block`, started anywhere in
it, returns what `call` returns on the database the migration started from. -/
def Linearizable {α : Type} (block : FrozenBlock) (start : Database) (call : Probe α) : Prop :=
  ∀ db result final, ReflTransGen (MigrationStep block) start db →
    Runs (MigrationStep block) db call result final → result = call.eval start

namespace Probe

variable {α β : Type} {block : FrozenBlock}

/-- Every probe of `call` reads an ancient item at a number other than the block's, or a
live key off the block. -/
def Avoids (block : FrozenBlock) : Probe α → Prop
  | done _ => True
  | ancient _ number next => number ≠ block.number ∧ ∀ item, (next item).Avoids block
  | get key next => block.Off key ∧ ∀ value, (next value).Avoids block
  | has key next => block.Off key ∧ ∀ present, (next present).Avoids block

theorem Avoids.bind {call : Probe α} {rest : α → Probe β} (first : call.Avoids block)
    (second : ∀ value, (rest value).Avoids block) : (call.bind rest).Avoids block := by
  induction call with
  | done value => exact second value
  | ancient _ _ _ ih => exact ⟨first.1, fun item => ih item (first.2 item)⟩
  | get _ _ ih => exact ⟨first.1, fun value => ih value (first.2 value)⟩
  | has _ _ ih => exact ⟨first.1, fun present => ih present (first.2 present)⟩

theorem avoids_ancientData {table : Table} {number : UInt64} (other : number ≠ block.number) :
    (ancientData table number).Avoids block :=
  ⟨other, fun _ => trivial⟩

theorem avoids_getData {key : Bytes} (off : block.Off key) : (getData key).Avoids block :=
  ⟨off, fun _ => trivial⟩

theorem Avoids.ite {condition : Prop} [Decidable condition] {yes no : Probe α}
    (avoidsYes : yes.Avoids block) (avoidsNo : no.Avoids block) :
    (if condition then yes else no).Avoids block := by
  split <;> assumption

/-- A call that looks only where the migration writes nothing returns its result on the
start database, whatever the interleaving. -/
theorem Avoids.linearizable {start : Database} {call : Probe α} (avoids : call.Avoids block) :
    Linearizable block start call := by
  intro db result final reach run
  induction run with
  | done => rfl
  | ancient toProbe _ ih =>
      rw [ih (avoids.2 _) (reach.trans toProbe),
        (untouched_of_reach (reach.trans toProbe)).ancient _ _ avoids.1]
      rfl
  | get toProbe _ ih =>
      rw [ih (avoids.2 _) (reach.trans toProbe),
        (untouched_of_reach (reach.trans toProbe)).live _ avoids.1]
      rfl
  | has toProbe _ ih =>
      rw [ih (avoids.2 _) (reach.trans toProbe), KeyValueStore.has_eq,
        (untouched_of_reach (reach.trans toProbe)).live _ avoids.1]
      rfl

end Probe

/-! ## Readers of other numbers -/

section Avoiding

variable {block : FrozenBlock} {number : UInt64} (other : number ≠ block.number)
include other

/-- Every record key of another number is off the block. -/
theorem off_of_number (table : Table) (hash : Hash) : block.Off (recordKey table number hash) :=
  block.off_recordKey (.inl other)

theorem ancientChecked_avoids (table : Table) (hash : Hash) :
    (ancientChecked table hash number).Avoids block :=
  (avoids_ancientData other).bind fun _ =>
    .ite ((avoids_ancientData other).bind fun _ => .ite trivial trivial) trivial

theorem readCheckedRLP_avoids (table : Table) {key : Bytes} (off : block.Off key) (hash : Hash) :
    (readCheckedRLP table key hash number).Avoids block :=
  (ancientChecked_avoids other table hash).bind fun _ =>
    .ite trivial ((avoids_getData off).bind fun _ =>
      .ite trivial (ancientChecked_avoids other table hash))

theorem readHeaderRLP_avoids (hash : Hash) : (readHeaderRLP hash number).Avoids block :=
  (avoids_ancientData other).bind fun _ => .ite trivial
    ((avoids_getData (off_of_number other .headerTable hash)).bind fun _ =>
      .ite trivial ((avoids_ancientData other).bind fun _ => .ite trivial trivial))

theorem readCanonicalHash_avoids : (readCanonicalHash number).Avoids block :=
  (avoids_ancientData other).bind fun _ => .ite
    ((avoids_getData (off_of_number other .hashTable Hash.zero)).bind fun _ =>
      .ite ((avoids_ancientData other).bind fun _ => .ite trivial trivial) (.ite trivial trivial))
    (.ite trivial trivial)

theorem readCanonicalBodyRLP_avoids : (readCanonicalBodyRLP number).Avoids block :=
  (avoids_ancientData other).bind fun _ => .ite
    ((readCanonicalHash_avoids other).bind fun hash =>
      (avoids_getData (off_of_number other .bodiesTable hash)).bind
        fun _ => .ite ((avoids_ancientData other).bind fun _ => trivial) trivial)
    trivial

theorem hasAncientOrLive_avoids {key : Bytes} (off : block.Off key) (hash : Hash) :
    (hasAncientOrLive key hash number).Avoids block :=
  ⟨other, fun _ => .ite trivial ⟨off, fun _ => trivial⟩⟩

end Avoiding

/-! ## Other hashes at the block's number -/

section Moving

variable {block : FrozenBlock} {start db db' : Database} (unfrozen : block.Unfrozen start)
include unfrozen

/-- At the block's number a hash-checked probe for another hash, other than the zero hash,
finds nothing: the ancient hash there is missing or the block's. -/
theorem ancientChecked_other {table : Table} {hash : Hash} (other : hash ≠ block.hash)
    (nonzero : hash ≠ Hash.zero) (reach : ReflTransGen (MigrationStep block) start db)
    {seen : Bytes}
    (run : Runs (MigrationStep block) db (ancientChecked table hash block.number) seen db') :
    seen = [] := by
  simp only [ancientChecked, bind_eq, pure_eq, done_bind, runs_bind_iff,
    runs_ancientData_iff] at run
  obtain ⟨_, probed, ⟨toProbe, rfl⟩, run⟩ := run
  split_ifs at run
  · simp only [runs_bind_iff, runs_ancientData_iff] at run
    obtain ⟨_, probed', ⟨toHash, rfl⟩, run⟩ := run
    have mismatch : bytesToHash ((probed'.ancientAt .hashTable block.number).getD []) ≠ hash := by
      rcases (migrating_of_reach unfrozen ((reach.trans toProbe).trans toHash)).ancientData
        .hashTable with empty | seenHash
      · rw [empty]
        exact nonzero.symm
      · rw [seenHash, FrozenBlock.entry, bytesToHash_bytes]
        exact other.symm
    rw [if_neg mismatch] at run
    exact (runs_done_iff.mp run).1
  · exact (runs_done_iff.mp run).1

/-- `ReadBodyRLP`, `ReadReceiptsRLP` and `ReadTdRLP` of another hash at the block's
number, other than the zero hash, return the live record the migration never touches. -/
theorem readCheckedRLP_linearizable_other {table : Table} (notHash : table ≠ .hashTable)
    {hash : Hash} (other : hash ≠ block.hash) (nonzero : hash ≠ Hash.zero) :
    Linearizable block start
      (readCheckedRLP table (recordKey table block.number hash) hash block.number) := by
  intro db result final reach run
  have off : block.Off (recordKey table block.number hash) :=
    block.off_recordKey (.inr ⟨notHash, other⟩)
  rw [readCheckedRLP_of_unfrozen unfrozen]
  simp only [readCheckedRLP, bind_eq, pure_eq, done_bind, runs_bind_iff] at run
  obtain ⟨_, middle, firstRun, run⟩ := run
  rw [ancientChecked_other unfrozen other nonzero reach firstRun] at run
  simp only [List.isEmpty_nil, Bool.not_true, Bool.false_eq_true, if_false, runs_bind_iff,
    runs_getData_iff] at run
  obtain ⟨_, probed, ⟨toLive, rfl⟩, run⟩ := run
  have reachLive := (reach.trans firstRun.reach).trans toLive
  rw [(untouched_of_reach reachLive).live _ off] at run
  split_ifs at run with found
  · exact (runs_done_iff.mp run).1
  · rw [ancientChecked_other unfrozen other nonzero reachLive run]
    simpa using found

/-- An existence check of another hash at the block's number sees the ancient hash turn
it away, and then the live key the migration never touches. -/
theorem hasAncientOrLive_linearizable_other {key : Bytes} (off : block.Off key) {hash : Hash}
    (other : hash ≠ block.hash) :
    Linearizable block start (hasAncientOrLive key hash block.number) := by
  intro db result final reach run
  have atStart : (hasAncientOrLive key hash block.number).eval start = start.live.has key := by
    simp [hasAncientOrLive, eval, unfrozen .hashTable]
  simp only [hasAncientOrLive, runs_ancient_iff] at run
  obtain ⟨probed, toProbe, run⟩ := run
  have mismatch : (probed.ancientAt .hashTable block.number).map bytesToHash ≠ some hash := by
    rcases (migrating_of_reach unfrozen (reach.trans toProbe)).ancient_entry .hashTable with
      empty | seen
    · simp [empty]
    · simp [seen, FrozenBlock.entry, Ne.symm other]
  rw [if_neg mismatch, runs_has_iff] at run
  obtain ⟨probed', toHas, run⟩ := run
  rw [KeyValueStore.has_eq, (untouched_of_reach ((reach.trans toProbe).trans toHas)).live _ off]
    at run
  rw [atStart, (runs_done_iff.mp run).1, KeyValueStore.has_eq]

end Moving

/-! ## Every reader -/

/-- A quiescent run of a linearizable reader anywhere in the migration returns its start
result. -/
theorem Linearizable.eval {α : Type} {block : FrozenBlock} {start db : Database}
    {call : Probe α} (linearizable : Linearizable block start call)
    (reach : ReflTransGen (MigrationStep block) start db) : call.eval db = call.eval start :=
  linearizable db _ db reach (runs_eval call db)

section Readers

variable {block : FrozenBlock} {start : Database} (unfrozen : block.Unfrozen start)
  (live : ∀ table, block.Live start table)
include unfrozen live

theorem eval_readCanonicalHash_start :
    (readCanonicalHash block.number).eval start = block.hash := by
  have stored := (live .hashTable).1
  simp only [FrozenBlock.liveKey, FrozenBlock.entry] at stored
  simp [eval_readCanonicalHash, unfrozen .hashTable, stored]

theorem readCanonicalHash_linearizable (number : UInt64) :
    Linearizable block start (readCanonicalHash number) := by
  by_cases here : number = block.number
  · subst here
    intro db result final reach run
    rw [readCanonicalHash_during unfrozen (live .hashTable) reach run,
      eval_readCanonicalHash_start unfrozen live]
  · exact (readCanonicalHash_avoids here).linearizable

theorem readCanonicalBodyRLP_linearizable (number : UInt64) :
    Linearizable block start (readCanonicalBodyRLP number) := by
  by_cases here : number = block.number
  · subst here
    intro db result final reach run
    have stored := (live .bodiesTable).1
    simp only [FrozenBlock.liveKey, FrozenBlock.entry] at stored
    rw [readCanonicalBodyRLP_during unfrozen (live .hashTable) (live .bodiesTable) reach run,
      eval_readCanonicalBodyRLP, eval_readCanonicalHash_start unfrozen live, stored]
    simp [unfrozen .bodiesTable]
  · exact (readCanonicalBodyRLP_avoids here).linearizable

theorem readCheckedRLP_linearizable (table : Table) (notHash : table ≠ .hashTable) {hash : Hash}
    (nonzero : hash ≠ Hash.zero) (number : UInt64) :
    Linearizable block start (readCheckedRLP table (recordKey table number hash) hash number) := by
  by_cases here : number = block.number
  · subst here
    by_cases own : hash = block.hash
    · subst own
      intro db result final reach run
      rw [← block.liveKey_eq] at run ⊢
      rw [readCheckedRLP_during unfrozen (live table) reach run,
        readCheckedRLP_of_unfrozen unfrozen, (live table).1, Option.getD_some]
    · exact readCheckedRLP_linearizable_other unfrozen notHash own nonzero
  · exact (readCheckedRLP_avoids here table (off_of_number here table hash) hash).linearizable

theorem readHeaderRLP_linearizable {hash : Hash} {number : UInt64}
    (away : hash = block.hash ∨ number ≠ block.number) :
    Linearizable block start (readHeaderRLP hash number) := by
  by_cases here : number = block.number
  · subst here
    obtain rfl := away.resolve_right (not_not.mpr rfl)
    intro db result final reach run
    have stored := (live .headerTable).1
    simp only [FrozenBlock.liveKey, FrozenBlock.entry] at stored
    rw [readHeaderRLP_during unfrozen (live .headerTable) reach run,
      readHeaderRLP_of_unfrozen unfrozen, stored, Option.getD_some]
  · exact (readHeaderRLP_avoids here hash).linearizable

omit live in
theorem hasAncientOrLive_linearizable (table : Table) (notHash : table ≠ .hashTable) {hash : Hash}
    {number : UInt64} (other : hash ≠ block.hash ∨ number ≠ block.number) :
    Linearizable block start (hasAncientOrLive (recordKey table number hash) hash number) := by
  by_cases here : number = block.number
  · subst here
    have fork := other.resolve_right (not_not.mpr rfl)
    exact hasAncientOrLive_linearizable_other unfrozen
      (block.off_recordKey (.inr ⟨notHash, fork⟩)) fork
  · exact (hasAncientOrLive_avoids here (off_of_number here table hash) hash).linearizable

omit live in
/-- An existence check of one of the block's own records answers yes throughout the
migration: the live key stays until every table, the hash table included, holds the
block. -/
theorem hasAncientOrLive_own {table : Table} (present : block.Live start table) {db : Database}
    (reach : ReflTransGen (MigrationStep block) start db) :
    (hasAncientOrLive (block.liveKey table) block.hash block.number).eval db = true := by
  have migrating := migrating_of_reach unfrozen reach
  rw [eval_hasAncientOrLive]
  rcases migrating.ancient_entry .hashTable with missing | seen
  · rcases migrating.live_value (block.liveKey table) with same | ⟨-, appended⟩
    · exact .inr (by rw [KeyValueStore.has_eq, same, present.1]; rfl)
    · exact absurd (appended .hashTable) (by rw [missing]; simp)
  · exact .inl (by simp [seen, FrozenBlock.entry])

end Readers

/-- While the freezer migrates a block whose records are all live, every run of these
readers, interleaved with the migration in any way and started at any point of it,
returns what the reader returns on the database the migration started from: the
canonical hash and the canonical body at every number; the body, receipts and total
difficulty of every hash but the zero hash; the header of the block's hash or of another
number; and the existence of every record but the block's own. -/
theorem reads_linearizable_during_migration (block : FrozenBlock) (start : Database)
    (unfrozen : block.Unfrozen start) (live : ∀ table, block.Live start table) :
    (∀ number, Linearizable block start (readCanonicalHash number)) ∧
    (∀ number, Linearizable block start (readCanonicalBodyRLP number)) ∧
    (∀ hash number, hash ≠ Hash.zero →
      Linearizable block start (readBodyRLP hash number) ∧
      Linearizable block start (readReceiptsRLP hash number) ∧
      Linearizable block start (readTdRLP hash number)) ∧
    (∀ hash number, hash = block.hash ∨ number ≠ block.number →
      Linearizable block start (readHeaderRLP hash number)) ∧
    (∀ hash number, hash ≠ block.hash ∨ number ≠ block.number →
      Linearizable block start (hasHeader hash number) ∧
      Linearizable block start (hasBody hash number) ∧
      Linearizable block start (hasReceipts hash number)) :=
  ⟨readCanonicalHash_linearizable unfrozen live,
    readCanonicalBodyRLP_linearizable unfrozen live,
    fun _ number nonzero =>
      ⟨readCheckedRLP_linearizable unfrozen live .bodiesTable (by decide) nonzero number,
        readCheckedRLP_linearizable unfrozen live .receiptTable (by decide) nonzero number,
        readCheckedRLP_linearizable unfrozen live .difficultyTable (by decide) nonzero number⟩,
    fun _ _ away => readHeaderRLP_linearizable unfrozen live away,
    fun _ _ other =>
      ⟨hasAncientOrLive_linearizable unfrozen .headerTable (by decide) other,
        hasAncientOrLive_linearizable unfrozen .bodiesTable (by decide) other,
        hasAncientOrLive_linearizable unfrozen .receiptTable (by decide) other⟩⟩

theorem sampleStart_unfrozen : sampleBlock.Unfrozen sampleStart := fun _ => rfl

theorem sampleStart_live (table : Table) : sampleBlock.Live sampleStart table := by
  cases table <;> decide

theorem reads_linearizable_during_migration_sample :
    sampleBlock.Unfrozen sampleStart ∧ (∀ table, sampleBlock.Live sampleStart table) ∧
      ∀ hash number, hash ≠ Hash.zero →
        Linearizable sampleBlock sampleStart (readBodyRLP hash number) ∧
        Linearizable sampleBlock sampleStart (readReceiptsRLP hash number) ∧
        Linearizable sampleBlock sampleStart (readTdRLP hash number) :=
  ⟨sampleStart_unfrozen, sampleStart_live,
    (reads_linearizable_during_migration sampleBlock sampleStart sampleStart_unfrozen
      sampleStart_live).2.2.1⟩

/-- The freezer's migration of a block whose records are all live changes no quiescent
read: at every point of it the readers return what they return on the database it started
from, the existence checks of the block's own records included. Left out are
`ReadHeaderRLP` of another hash at the block's number, which returns the block's header
once it is frozen, and the hash-checked readers at the zero hash. -/
theorem migration_preserves_reads (block : FrozenBlock) (start db : Database)
    (unfrozen : block.Unfrozen start) (live : ∀ table, block.Live start table)
    (reach : ReflTransGen (MigrationStep block) start db) :
    (∀ number, (readCanonicalHash number).eval db = (readCanonicalHash number).eval start) ∧
    (∀ number,
      (readCanonicalBodyRLP number).eval db = (readCanonicalBodyRLP number).eval start) ∧
    (∀ hash number, hash ≠ Hash.zero →
      (readBodyRLP hash number).eval db = (readBodyRLP hash number).eval start ∧
      (readReceiptsRLP hash number).eval db = (readReceiptsRLP hash number).eval start ∧
      (readTdRLP hash number).eval db = (readTdRLP hash number).eval start) ∧
    (∀ hash number, hash = block.hash ∨ number ≠ block.number →
      (readHeaderRLP hash number).eval db = (readHeaderRLP hash number).eval start) ∧
    (∀ hash number,
      (hasHeader hash number).eval db = (hasHeader hash number).eval start ∧
      (hasBody hash number).eval db = (hasBody hash number).eval start ∧
      (hasReceipts hash number).eval db = (hasReceipts hash number).eval start) := by
  have own : ∀ table, table ≠ .hashTable →
      (hasAncientOrLive (block.liveKey table) block.hash block.number).eval db =
        (hasAncientOrLive (block.liveKey table) block.hash block.number).eval start :=
    fun table _ => by rw [hasAncientOrLive_own unfrozen (live table) reach,
      hasAncientOrLive_own unfrozen (live table) .refl]
  refine ⟨fun number => (readCanonicalHash_linearizable unfrozen live number).eval reach,
    fun number => (readCanonicalBodyRLP_linearizable unfrozen live number).eval reach,
    fun _ number nonzero =>
      ⟨(readCheckedRLP_linearizable unfrozen live .bodiesTable (by decide) nonzero number).eval
          reach,
        (readCheckedRLP_linearizable unfrozen live .receiptTable (by decide) nonzero number).eval
          reach,
        (readCheckedRLP_linearizable unfrozen live .difficultyTable (by decide) nonzero number).eval
          reach⟩,
    fun _ _ away => (readHeaderRLP_linearizable unfrozen live away).eval reach,
    fun hash number => ?_⟩
  by_cases isOwn : hash = block.hash ∧ number = block.number
  · obtain ⟨rfl, rfl⟩ := isOwn
    exact ⟨own .headerTable (by decide), own .bodiesTable (by decide),
      own .receiptTable (by decide)⟩
  · have other := not_and_or.mp isOwn
    exact ⟨(hasAncientOrLive_linearizable unfrozen .headerTable (by decide) other).eval reach,
      (hasAncientOrLive_linearizable unfrozen .bodiesTable (by decide) other).eval reach,
      (hasAncientOrLive_linearizable unfrozen .receiptTable (by decide) other).eval reach⟩

/-- `sampleStart` with `sampleBlock`'s body appended and nothing else. -/
def sampleBodyFrozen : Database :=
  sampleStart.appendAncient .bodiesTable sampleBlock.body

theorem migration_preserves_reads_sample :
    sampleBlock.Unfrozen sampleStart ∧ (∀ table, sampleBlock.Live sampleStart table) ∧
      ReflTransGen (MigrationStep sampleBlock) sampleStart sampleBodyFrozen ∧
      ∀ hash number, (hasBody hash number).eval sampleBodyFrozen =
        (hasBody hash number).eval sampleStart :=
  have reach : ReflTransGen (MigrationStep sampleBlock) sampleStart sampleBodyFrozen :=
    .single (.append .bodiesTable rfl)
  ⟨sampleStart_unfrozen, sampleStart_live, reach, fun hash number =>
    ((migration_preserves_reads sampleBlock sampleStart sampleBodyFrozen sampleStart_unfrozen
      sampleStart_live reach).2.2.2.2 hash number).2.1⟩

/-- Why the zero hash is left out: with the body frozen and the hash not yet, the hash
check of `ReadBodyRLP` compares the zero hash `BytesToHash` makes of the missing ancient
hash with the zero hash it was asked for, and returns the block's body, which it did not
before the migration. -/
theorem readBodyRLP_zero_during_migration :
    (readBodyRLP Hash.zero sampleBlock.number).eval sampleBodyFrozen = sampleBlock.body ∧
      (readBodyRLP Hash.zero sampleBlock.number).eval sampleStart = [] := by
  constructor
  · simp [readBodyRLP, eval_readCheckedRLP, eval_ancientChecked, sampleBodyFrozen,
      ancientAt_appendAncient, Hash.zero, FrozenBlock.entry]
    rfl
  · rw [readBodyRLP,
      readCheckedRLP_of_unfrozen (sampleStart_unfrozen : sampleStart.Unfrozen sampleBlock.number)]
    decide
end Rawdb
