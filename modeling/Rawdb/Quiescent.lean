import Rawdb.ReadPath

/-!
# Reading a quiescent store

With the freezer idle, a reader's third probe repeats its first, and each reader is a
function of the database (`eval_*` of `Rawdb.ReadPath`). Two properties of such reads
are at stake here.

*Consistency.* The ancient store keeps only canonical data, so an ancient item at a
number belongs to the block whose hash the ancient hash table holds there. A reader
asked for a non-canonical block at a height the ancient store covers must not return
the canonical block's data. The hash-checked readers never do
(`readCheckedRLP_consistent`). `ReadHeaderRLP` has no such check, and returns the
canonical header for any hash at an ancient height (`readHeaderRLP_returns_canonical`).

*Existence.* `HasBody` and `HasReceipts` agree with their readers whenever the ancient
tables are parallel (`hasAncientOrLive_iff_readCheckedRLP`). `HasHeader` compares the
ancient hash while `ReadHeaderRLP` does not, and the two disagree on an unknown hash at
an ancient height (`hasHeader_disagrees_with_readHeaderRLP`).

*The canonical fast path.* `ReadCanonicalBodyRLP` takes an ancient body without asking
for the canonical hash. Where every ancient body has an ancient hash beside it, this is
the body `ReadBodyRLP` returns for the canonical hash (`readCanonicalBodyRLP_eq_readBodyRLP_at`),
so on tables covering the same numbers the fast path and the slow path agree everywhere
(`readCanonicalBodyRLP_eq_readBodyRLP`).
-/

namespace Rawdb

open Probe

/-- The live key of the record of `table` for block (`hash`, `number`). -/
def recordKey : Table → UInt64 → Hash → Bytes
  | .hashTable, number, _ => headerHashKey number
  | .headerTable, number, hash => headerKey number hash
  | .bodiesTable, number, hash => blockBodyKey number hash
  | .receiptTable, number, hash => blockReceiptsKey number hash
  | .difficultyTable, number, hash => headerTDKey number hash

/-- `db` holds only the records `content` assigns to blocks: a live entry under a
(number, hash)-qualified key holds that block's record, and an ancient item at a number
holds the record of the block whose hash the ancient hash table has there. -/
structure Consistent (content : Table → Hash → UInt64 → Bytes) (db : Database) : Prop where
  live : ∀ table hash number value, table ≠ .hashTable →
    db.live.get (recordKey table number hash) = some value → value = content table hash number
  ancient : ∀ table number item, db.ancientAt table number = some item →
    ∃ hashItem, db.ancientAt .hashTable number = some hashItem ∧
      item = content table (bytesToHash hashItem) number

/-- A hash-checked reader on a consistent store returns nothing or the record of the
block it was asked for. -/
theorem readCheckedRLP_consistent {content : Table → Hash → UInt64 → Bytes} {db : Database}
    (consistent : Consistent content db) {table : Table} (notHash : table ≠ .hashTable)
    (hash : Hash) (number : UInt64) :
    (readCheckedRLP table (recordKey table number hash) hash number).eval db = [] ∨
      (readCheckedRLP table (recordKey table number hash) hash number).eval db =
        content table hash number := by
  rw [eval_readCheckedRLP, eval_ancientChecked]
  by_cases checked : (db.ancientAt table number).getD [] ≠ [] ∧
      bytesToHash ((db.ancientAt .hashTable number).getD []) = hash
  · obtain ⟨present, hashMatches⟩ := checked
    cases seen : db.ancientAt table number with
    | none => simp [seen] at present
    | some item =>
        obtain ⟨hashItem, seenHash, rfl⟩ := consistent.ancient table number item seen
        simp only [seen, seenHash, Option.getD_some] at hashMatches present
        subst hashMatches
        simp [seen, seenHash, present]
  · rw [if_neg checked, if_neg (not_not.mpr rfl)]
    cases stored : db.live.get (recordKey table number hash) with
    | none => exact .inl rfl
    | some value => exact .inr (consistent.live table hash number value notHash stored)

/-- The hash of the canonical block at height 0 of the samples below. -/
def canonicalSampleHash : Hash := ⟨List.replicate 32 1, rfl⟩

/-- The hash of a block at height 0 that is not canonical. -/
def forkSampleHash : Hash := ⟨List.replicate 32 2, rfl⟩

/-- The freezer holds the canonical block at height 0, each record the single byte 1;
the live store is empty. -/
def canonicalSample : Database :=
  ⟨KeyValueStore.empty, fun table =>
    if table = .hashTable then [canonicalSampleHash.bytes] else [[1]]⟩

/-- `canonicalSample` after `WriteHeader` stored the fork's header, the byte 2. -/
def forkSample : Database :=
  { canonicalSample with live := KeyValueStore.empty.put (headerKey 0 forkSampleHash) [2] }

/-- The records of `canonicalSample`: its hash for the hash table, the byte 1 otherwise. -/
def canonicalSampleContent (table : Table) (hash : Hash) (_ : UInt64) : Bytes :=
  if table = .hashTable then hash.bytes else [1]

theorem consistent_canonicalSample : Consistent canonicalSampleContent canonicalSample where
  live _ _ _ _ _ stored := by simp [canonicalSample] at stored
  ancient table number item seen := by
    simp only [canonicalSample, Database.ancientAt] at seen ⊢
    generalize number.toNat = index at seen ⊢
    cases index <;> cases table <;> simp at seen <;>
      simp [← seen, canonicalSampleContent]

/-- On the consistent sample, `ReadBodyRLP` of the fork's hash at height 0 returns nothing
or the fork's body, as `readCheckedRLP_consistent` says. -/
theorem readCheckedRLP_consistent_sample :
    Consistent canonicalSampleContent canonicalSample ∧ Table.bodiesTable ≠ .hashTable ∧
      ((readCheckedRLP .bodiesTable (recordKey .bodiesTable 0 forkSampleHash) forkSampleHash
          0).eval canonicalSample = [] ∨
        (readCheckedRLP .bodiesTable (recordKey .bodiesTable 0 forkSampleHash) forkSampleHash
          0).eval canonicalSample = canonicalSampleContent .bodiesTable forkSampleHash 0) :=
  ⟨consistent_canonicalSample, by decide,
    readCheckedRLP_consistent consistent_canonicalSample (by decide) forkSampleHash 0⟩

/-- `ReadHeaderRLP` asked for the fork's header at height 0, which is stored, returns the
canonical header instead. -/
theorem readHeaderRLP_returns_canonical :
    forkSample.live.get (headerKey 0 forkSampleHash) = some [2] ∧
      (readHeaderRLP forkSampleHash 0).eval forkSample = [1] := by
  decide

/-- The ancient hash, header, body and receipt tables hold items at the same numbers, and
no ancient item or live value is empty. -/
structure Parallel (db : Database) : Prop where
  same_numbers : ∀ table number, table ≠ .difficultyTable →
    ((db.ancientAt table number).isSome ↔ (db.ancientAt .hashTable number).isSome)
  ancient_nonempty : ∀ table number item, db.ancientAt table number = some item → item ≠ []
  live_nonempty : ∀ key value, db.live.get key = some value → value ≠ []

/-- On parallel tables an existence check agrees with the hash-checked reader of the same
key: `HasBody` with `ReadBodyRLP`, `HasReceipts` with `ReadReceiptsRLP`. -/
theorem hasAncientOrLive_iff_readCheckedRLP {db : Database} (parallel : Parallel db)
    {table : Table} (notDifficulty : table ≠ .difficultyTable) (key : Bytes) (hash : Hash)
    (number : UInt64) :
    (hasAncientOrLive key hash number).eval db = true ↔
      (readCheckedRLP table key hash number).eval db ≠ [] := by
  have liveSeen : (db.live.get key).getD [] ≠ [] ↔ db.live.has key = true := by
    cases stored : db.live.get key with
    | none => simp [KeyValueStore.has_eq, stored]
    | some value => simp [KeyValueStore.has_eq, stored, parallel.live_nonempty key value stored]
  rw [eval_hasAncientOrLive, eval_readCheckedRLP, eval_ancientChecked]
  cases seenHash : db.ancientAt .hashTable number with
  | none =>
      have absent : db.ancientAt table number = none := by
        simpa [seenHash] using parallel.same_numbers table number notDifficulty
      simp [absent, liveSeen]
  | some hashItem =>
      obtain ⟨item, seen⟩ : ∃ item, db.ancientAt table number = some item := by
        simpa [seenHash, Option.isSome_iff_exists] using
          parallel.same_numbers table number notDifficulty
      have nonempty := parallel.ancient_nonempty table number item seen
      by_cases hashMatches : bytesToHash hashItem = hash <;>
        simp [seen, hashMatches, nonempty, liveSeen]

theorem parallel_canonicalSample : Parallel canonicalSample where
  same_numbers table number _ := by
    simp only [canonicalSample, Database.ancientAt]
    generalize number.toNat = index
    cases index <;> cases table <;> simp
  ancient_nonempty table number item seen := by
    simp only [canonicalSample, Database.ancientAt] at seen
    generalize number.toNat = index at seen
    cases index <;> cases table <;> simp at seen <;> simp [← seen, canonicalSampleHash]
  live_nonempty _ _ := by simp [canonicalSample]

/-- On the parallel sample, `HasBody` and `ReadBodyRLP` agree on the canonical block at
height 0, as `hasAncientOrLive_iff_readCheckedRLP` says they do everywhere. -/
theorem hasAncientOrLive_iff_readCheckedRLP_sample :
    Parallel canonicalSample ∧ Table.bodiesTable ≠ .difficultyTable ∧
      ((hasAncientOrLive (blockBodyKey 0 canonicalSampleHash) canonicalSampleHash 0).eval
          canonicalSample = true ↔
        (readCheckedRLP .bodiesTable (blockBodyKey 0 canonicalSampleHash) canonicalSampleHash
          0).eval canonicalSample ≠ []) :=
  ⟨parallel_canonicalSample, by decide,
    hasAncientOrLive_iff_readCheckedRLP parallel_canonicalSample (by decide) _ _ _⟩

/-- An unknown hash at an ancient height: `HasHeader` says no, `ReadHeaderRLP` returns the
canonical header, on a store whose tables are parallel. -/
theorem hasHeader_disagrees_with_readHeaderRLP :
    Parallel canonicalSample ∧
      (hasHeader forkSampleHash 0).eval canonicalSample = false ∧
      (readHeaderRLP forkSampleHash 0).eval canonicalSample = [1] :=
  ⟨parallel_canonicalSample, by decide, by decide⟩

/-- At a number where an ancient body comes with an ancient hash, the fast path returns
what `ReadBodyRLP` returns for the canonical hash. -/
theorem readCanonicalBodyRLP_eq_readBodyRLP_at {db : Database} {number : UInt64}
    (covered : (db.ancientAt .bodiesTable number).getD [] ≠ [] →
      (db.ancientAt .hashTable number).getD [] ≠ []) :
    (readCanonicalBodyRLP number).eval db =
      (readBodyRLP ((readCanonicalHash number).eval db) number).eval db := by
  rw [eval_readCanonicalBodyRLP, readBodyRLP, eval_readCheckedRLP, eval_ancientChecked]
  by_cases body : (db.ancientAt .bodiesTable number).getD [] = []
  · simp [body]
  · rw [eval_readCanonicalHash, if_pos (covered body)]
    simp [body]

/-- On ancient hash and body tables with non-empty items at the same numbers,
`ReadCanonicalBodyRLP` agrees with `ReadBodyRLP` of `ReadCanonicalHash` at every number,
and returns nothing exactly when neither tier holds the canonical body. -/
theorem readCanonicalBodyRLP_eq_readBodyRLP {db : Database}
    (sameNumbers : ∀ number, (db.ancientAt .hashTable number).getD [] ≠ [] ↔
      (db.ancientAt .bodiesTable number).getD [] ≠ [])
    (number : UInt64) :
    (readCanonicalBodyRLP number).eval db =
        (readBodyRLP ((readCanonicalHash number).eval db) number).eval db ∧
      ((readCanonicalBodyRLP number).eval db = [] ↔
        (db.ancientAt .bodiesTable number).getD [] = [] ∧
          (db.live.get (blockBodyKey number ((readCanonicalHash number).eval db))).getD [] =
            []) := by
  refine ⟨readCanonicalBodyRLP_eq_readBodyRLP_at (sameNumbers number).mpr, ?_⟩
  rw [eval_readCanonicalBodyRLP]
  by_cases body : (db.ancientAt .bodiesTable number).getD [] = [] <;> simp [body]

/-- The sample's ancient hash and body tables both hold one item, at height 0, where the
fast and slow paths return its canonical body. -/
theorem readCanonicalBodyRLP_eq_readBodyRLP_sample :
    (∀ number, (canonicalSample.ancientAt .hashTable number).getD [] ≠ [] ↔
        (canonicalSample.ancientAt .bodiesTable number).getD [] ≠ []) ∧
      (readCanonicalBodyRLP 0).eval canonicalSample =
          (readBodyRLP ((readCanonicalHash 0).eval canonicalSample) 0).eval canonicalSample ∧
        ((readCanonicalBodyRLP 0).eval canonicalSample = [] ↔
          (canonicalSample.ancientAt .bodiesTable 0).getD [] = [] ∧
            (canonicalSample.live.get
              (blockBodyKey 0 ((readCanonicalHash 0).eval canonicalSample))).getD [] = []) := by
  have sameNumbers : ∀ number, (canonicalSample.ancientAt .hashTable number).getD [] ≠ [] ↔
      (canonicalSample.ancientAt .bodiesTable number).getD [] ≠ [] := by
    intro number
    simp only [canonicalSample, Database.ancientAt]
    generalize number.toNat = index
    cases index <;> simp [canonicalSampleHash]
  exact ⟨sameNumbers, readCanonicalBodyRLP_eq_readBodyRLP sameNumbers 0⟩

end Rawdb
