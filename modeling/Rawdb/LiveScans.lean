import Rawdb.RangeScans
import Rawdb.Records

/-!
# The range scans after a run of writer calls

`ReadAllHashes`, `ReadAllHashesInRange` and `ReadAllCanonicalHashes` iterate over the live
store, where the point readers look up one key. After every run of the live-store writers
that completes, the scans list exactly the records the abstract run of `Rawdb.Records`
holds: `ReadAllHashes` the hashes of the headers at a height, each once and in ascending
byte order, `ReadAllHashesInRange` the headers at the heights of its range, and
`ReadAllCanonicalHashes` the first `limit` canonical mappings of its range
(`scans_after_run`). The scans read no ancient table, so the view they agree with is the
live one. A block the freezer has moved is gone from them, although `ReadAllHashes` is
documented to list the canonical hash of a height too, while the point readers still
return it from the ancient store (`scans_miss_frozen_blocks`).
-/

namespace Rawdb

open Relation

/-! ## Keys and the store's entries -/

theorem isSome_lookupEntry (key : Bytes) :
    ∀ entries : List (Bytes × Bytes),
      (lookupEntry key entries).isSome ↔ ∃ value, (key, value) ∈ entries
  | [] => by simp [lookupEntry]
  | entry :: rest => by
      by_cases here : entry.1 = key
      · simp only [lookupEntry, if_pos here, Option.isSome_some, true_iff]
        exact ⟨entry.2, here ▸ List.mem_cons_self _ _⟩
      · simp only [lookupEntry, if_neg here, isSome_lookupEntry key rest, List.mem_cons]
        exact exists_congr fun value => (or_iff_right fun same => here (by rw [← same])).symm

theorem KeyValueStore.isSome_get_iff (db : KeyValueStore) (key : Bytes) :
    (db.get key).isSome ↔ ∃ value, (key, value) ∈ db.entries :=
  isSome_lookupEntry key db.entries

/-- A header is among the store's headers exactly when its key is stored. -/
theorem mem_storedHeaders (db : KeyValueStore) (header : NumberHash) :
    header ∈ storedHeaders db ↔ (db.get (headerKey header.number header.hash)).isSome := by
  rw [KeyValueStore.isSome_get_iff, storedHeaders, List.mem_filterMap]
  constructor
  · rintro ⟨⟨key, value⟩, mem, found⟩
    exact ⟨value, eq_headerKey_of_mem found ▸ mem⟩
  · rintro ⟨value, mem⟩
    exact ⟨_, mem, by simp [headerPrefix_prefix_headerKey]⟩

theorem storedHeaders_keys_sorted (db : KeyValueStore) :
    (storedHeaders db).Pairwise fun header header' =>
      headerKey header.number header.hash < headerKey header'.number header'.hash :=
  db.sorted.filterMap _ fun _ _ lt _ found _ found' => by
    rwa [eq_headerKey_of_mem found, eq_headerKey_of_mem found'] at lt

theorem mem_heights {first last number : UInt64} :
    number ∈ heights first last ↔ first ≤ number ∧ number ≤ last := by
  simp only [heights, List.mem_map, List.mem_range'_1, UInt64.le_iff_toNat_le]
  constructor
  · rintro ⟨n, ⟨low, high⟩, rfl⟩
    have bound : n < UInt64.size := by have := last.toNat_lt_size; omega
    rw [UInt64.toNat_ofNat_of_lt bound]
    omega
  · rintro ⟨low, high⟩
    exact ⟨number.toNat, ⟨low, by omega⟩,
      UInt64.eq_iff_toNat_eq.mpr (UInt64.toNat_ofNat_of_lt number.toNat_lt_size)⟩

/-! ## The scans over a live store -/

/-- `ReadAllHashes` lists a hash exactly when its header key is stored. -/
theorem mem_readAllHashes (db : KeyValueStore) (number : UInt64) (hash : Hash) :
    hash ∈ readAllHashes db number ↔ (db.get (headerKey number hash)).isSome := by
  rw [readAllHashes_eq, List.mem_map]
  constructor
  · rintro ⟨header, mem, rfl⟩
    rw [List.mem_filter, decide_eq_true_eq] at mem
    exact mem.2 ▸ (mem_storedHeaders db header).mp mem.1
  · intro stored
    exact ⟨⟨number, hash⟩, List.mem_filter.mpr ⟨(mem_storedHeaders db _).mpr stored, by simp⟩,
      rfl⟩

/-- `ReadAllHashes` lists its hashes in ascending byte order, each once. -/
theorem readAllHashes_sorted (db : KeyValueStore) (number : UInt64) :
    (readAllHashes db number).Pairwise fun hash hash' => hash.bytes < hash'.bytes := by
  rw [readAllHashes_eq, List.pairwise_map]
  refine ((storedHeaders_keys_sorted db).filter _).imp_of_mem fun mem mem' lt => ?_
  rw [List.mem_filter, decide_eq_true_eq] at mem mem'
  rw [headerKey, headerKey, mem.2, mem'.2, Bytes.append_lt_append_iff rfl] at lt
  exact (lt.resolve_left (lt_irrefl _)).2

/-- Where `makeslice` accepts its capacity, `ReadAllHashesInRange` lists the stored headers
at the heights from `first` to `last`. -/
theorem mem_readAllHashesInRange (db : KeyValueStore) {first last : UInt64}
    (fits : makeSliceFits (1 + last - first)) :
    ∃ headers, readAllHashesInRange db first last = .returns headers ∧
      ∀ header, header ∈ headers ↔ first ≤ header.number ∧ header.number ≤ last ∧
        (db.get (headerKey header.number header.hash)).isSome := by
  rw [readAllHashesInRange_eq, if_pos fits]
  refine ⟨_, rfl, fun header => ?_⟩
  simp only [List.mem_flatMap, List.mem_map, mem_heights, mem_readAllHashes]
  constructor
  · rintro ⟨number, ⟨low, high⟩, hash, stored, rfl⟩
    exact ⟨low, high, stored⟩
  · rintro ⟨low, high, stored⟩
    exact ⟨header.number, ⟨low, high⟩, header.hash, stored, rfl⟩

/-! ## After a run -/

/-- The canonical mappings a view holds at the heights `from ≤ n < to`, ascending. -/
def RecordView.canonicalMappings (view : RecordView) («from» «to» : UInt64) :
    List NumberHash :=
  (List.range' («from».toNat) («to».toNat - «from».toNat)).filterMap fun n =>
    (view .hashTable (UInt64.ofNat n) Hash.zero).map fun value =>
      ⟨UInt64.ofNat n, bytesToHash value⟩

/-- After a run of writer calls that completes, the range scans list what the abstract run
holds: `ReadAllHashes` the hashes of the view's headers at a height, ascending, each once;
`ReadAllHashesInRange`, where `makeslice` accepts its capacity, the view's headers at the
heights of its range; and `ReadAllCanonicalHashes`, with a positive `limit`, the first
`limit` canonical mappings the view holds from `from` up to `to`. -/
theorem scans_after_run (codec : Codec) (sortReverse : List BadBlock → List BadBlock)
    (location : Hash → Bytes) (offLocation : ∀ commitment, OffRecords (location commitment))
    (db final : KeyValueStore) (calls : List WriterCall)
    (ran : WriterCall.run ⟨codec, sortReverse, location⟩ calls db = some final) :
    let view := recordsAfter codec calls (liveRecords db)
    (∀ number hash,
      hash ∈ readAllHashes final number ↔ (view .headerTable number hash).isSome) ∧
    (∀ number, (readAllHashes final number).Pairwise fun hash hash' =>
      hash.bytes < hash'.bytes) ∧
    (∀ first last, makeSliceFits (1 + last - first) →
      ∃ headers, readAllHashesInRange final first last = .returns headers ∧
        ∀ header, header ∈ headers ↔ first ≤ header.number ∧ header.number ≤ last ∧
          (view .headerTable header.number header.hash).isSome) ∧
    (∀ «from» «to» limit, 1 ≤ limit →
      readAllCanonicalHashes final «from» «to» limit =
        (((view.canonicalMappings «from» «to»).take limit.toNat).map NumberHash.number,
          ((view.canonicalMappings «from» «to»).take limit.toNat).map NumberHash.hash)) := by
  intro view
  have live : liveRecords final = view :=
    liveRecords_run codec sortReverse location offLocation calls ran
  rw [← live]
  exact ⟨mem_readAllHashes final, readAllHashes_sorted final,
    fun _ _ fits => mem_readAllHashesInRange final fits,
    fun _ _ _ positive => readAllCanonicalHashes_eq_take final _ _ _ positive⟩

theorem scans_after_run_sample :
    (∀ commitment, OffRecords (Hash.bytes commitment)) ∧
      WriterCall.run ⟨sampleEntityCodec.toCodec, mergeSortReverse.sort, Hash.bytes⟩
          roundTripSampleCalls emptySample.live = some roundTripSampleStore ∧
      (1 : Int) ≤ 1 ∧
      readAllCanonicalHashes roundTripSampleStore 0 1 1 =
        ((((recordsAfter sampleEntityCodec.toCodec roundTripSampleCalls
          (liveRecords emptySample.live)).canonicalMappings 0 1).take 1).map NumberHash.number,
          (((recordsAfter sampleEntityCodec.toCodec roundTripSampleCalls
          (liveRecords emptySample.live)).canonicalMappings 0 1).take 1).map NumberHash.hash) :=
  ⟨offRecords_bytes, rfl, le_refl 1,
    (scans_after_run sampleEntityCodec.toCodec mergeSortReverse.sort Hash.bytes offRecords_bytes
      emptySample.live roundTripSampleStore roundTripSampleCalls rfl).2.2.2 0 1 1 (le_refl 1)⟩

/-! ## Blocks the freezer has moved -/

/-- A canonical mapping of the range is stored. -/
theorem isSome_of_mem_canonicalMappings {db : KeyValueStore} {«from» «to» : UInt64}
    {mapping : NumberHash} (mem : mapping ∈ canonicalMappings db «from» «to») :
    (db.get (headerHashKey mapping.number)).isSome := by
  obtain ⟨n, -, found⟩ := List.mem_filterMap.mp mem
  obtain ⟨value, stored, rfl⟩ := Option.map_eq_some'.mp found
  simp [stored]

/-- Once the freezer has deleted one of a block's live records, every ancient table holds
the block. -/
theorem appended_of_deleted {block : FrozenBlock} {start db : Database}
    (unfrozen : block.Unfrozen start) (reach : ReflTransGen (MigrationStep block) start db)
    {table : Table} (live : block.Live start table)
    (deleted : db.live.get (block.liveKey table) = none) : block.Appended db := by
  rcases (migrating_of_reach unfrozen reach).live_value (block.liveKey table) with
    same | ⟨-, appended⟩
  · exact absurd (deleted.symm.trans (same.trans live.1)) (by simp)
  · exact appended

/-- The scans read the live store alone, so they lose a block the freezer has moved while
the point readers go on returning it: once the block's live header is deleted,
`ReadAllHashes` at its number no longer lists its hash, though `ReadHeaderRLP` returns its
header; once its canonical-hash key is deleted, `ReadAllCanonicalHashes` no longer lists its
number, though `ReadCanonicalHash` returns its hash. -/
theorem scans_miss_frozen_blocks (block : FrozenBlock) (start db : Database)
    (unfrozen : block.Unfrozen start) (live : ∀ table, block.Live start table)
    (reach : ReflTransGen (MigrationStep block) start db) :
    (db.live.get (block.liveKey .headerTable) = none →
      block.hash ∉ readAllHashes db.live block.number ∧
      (readHeaderRLP block.hash block.number).eval db = block.header) ∧
    (db.live.get (block.liveKey .hashTable) = none →
      (∀ «from» «to» limit, 1 ≤ limit →
        block.number ∉ (readAllCanonicalHashes db.live «from» «to» limit).1) ∧
      (readCanonicalHash block.number).eval db = block.hash) := by
  refine ⟨fun deleted => ⟨?_, ?_⟩, fun deleted => ⟨fun «from» «to» limit positive => ?_, ?_⟩⟩
  · have gone : db.live.get (headerKey block.number block.hash) = none := deleted
    simp [mem_readAllHashes, gone]
  · have frozen := appended_of_deleted unfrozen reach (live .headerTable) deleted .headerTable
    have nonEmpty : block.header ≠ [] := (live .headerTable).2
    rw [eval_readHeaderRLP, frozen]
    simp [FrozenBlock.entry, nonEmpty]
  · have gone : db.live.get (headerHashKey block.number) = none := deleted
    rw [readAllCanonicalHashes_eq_take _ _ _ _ positive, List.mem_map]
    rintro ⟨mapping, mem, atNumber⟩
    have stored := isSome_of_mem_canonicalMappings (List.mem_of_mem_take mem)
    simp [atNumber, gone] at stored
  · have frozen := appended_of_deleted unfrozen reach (live .hashTable) deleted .hashTable
    rw [eval_readCanonicalHash, frozen]
    simp [FrozenBlock.entry, bytesToHash_bytes, bytes_ne_nil]

theorem sampleStart_reach_sampleMigrated :
    ReflTransGen (MigrationStep sampleBlock) sampleStart sampleMigrated :=
  ((((((ReflTransGen.refl.tail (.append .hashTable rfl)).tail (.append .headerTable rfl)).tail
    (.append .bodiesTable rfl)).tail (.append .receiptTable rfl)).tail
    (.append .difficultyTable rfl)).tail (.delete .headerTable fun table => by
      cases table <;> rfl))

theorem scans_miss_frozen_blocks_sample :
    sampleBlock.Unfrozen sampleStart ∧ (∀ table, sampleBlock.Live sampleStart table) ∧
      ReflTransGen (MigrationStep sampleBlock) sampleStart sampleMigrated ∧
      sampleMigrated.live.get (sampleBlock.liveKey .headerTable) = none ∧
      sampleBlock.hash ∉ readAllHashes sampleMigrated.live sampleBlock.number ∧
      (readHeaderRLP sampleBlock.hash sampleBlock.number).eval sampleMigrated =
        sampleBlock.header :=
  have deleted : sampleMigrated.live.get (sampleBlock.liveKey .headerTable) = none := by
    decide
  ⟨sampleStart_unfrozen, sampleStart_live, sampleStart_reach_sampleMigrated, deleted,
    (scans_miss_frozen_blocks sampleBlock sampleStart sampleMigrated sampleStart_unfrozen
      sampleStart_live sampleStart_reach_sampleMigrated).1 deleted⟩

end Rawdb
