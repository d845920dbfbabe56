import Rawdb.Store
import Rawdb.SampleCodec

/-!
# The bad-block list

Blocks that fail validation are kept for diagnostics in one list under `badBlockKey`.
`WriteBadBlock` loads the list, does nothing if a block with the same number and hash is
already in it, and otherwise appends the block, sorts the list by number, highest first,
keeps the first `badBlockToKeep` entries and stores the result. `DeleteBadBlocks` drops
the whole list.

Go's `sort.Sort` is not stable, so the model does not fix an order among blocks of equal
number: `ReverseSort` is any function with `sort.Sort`'s contract, a permutation that
leaves the list ordered. The list's encoding is likewise a parameter, with the round trip
`rlp` gives it (`LawfulCodec` of `Rawdb.Types`).

`Retained` is what the stored list satisfies relative to the blocks recorded since the
last `DeleteBadBlocks`; `retained_write` and `retained_delete` are its step lemmas and
`badBlocks_retained` the statement over every sequence of calls.
-/

namespace Rawdb

/-- `badBlockToKeep`. -/
def badBlockToKeep : Nat := 10

/-- `sort.Sort(sort.Reverse(·))` on bad-block lists: a permutation ordered by number,
highest first. -/
structure ReverseSort where
  sort : List BadBlock → List BadBlock
  perm : ∀ blocks, (sort blocks).Perm blocks
  sorted : ∀ blocks,
    (sort blocks).Sorted fun bad bad' => bad'.header.number.toNat ≤ bad.header.number.toNat

/-- The entry `WriteBadBlock` records for a block. -/
def Block.toBadBlock (block : Block) : BadBlock :=
  ⟨block.header, block.body⟩

/-- A bad block's identity, its number and hash. -/
def BadBlock.key (hash : Header → Hash) (bad : BadBlock) : UInt64 × Hash :=
  (bad.header.number, hash bad.header)

/-- The first lines of `WriteBadBlock`: the stored list, empty when absent; `none` where it
does not decode and `log.Crit` exits. -/
def loadBadBlocks (codec : Codec) (db : KeyValueStore) : Option (List BadBlock) :=
  let blob := (db.get badBlockKey).getD []
  if blob.isEmpty then some [] else codec.decodeBadBlocks blob

/-- The writes of `WriteBadBlock`; `none` where the old list does not decode and the
process exits. -/
def writeBadBlock (codec : Codec) (sortReverse : List BadBlock → List BadBlock)
    (block : Block) (db : KeyValueStore) : Option (List Write) := do
  let badBlocks ← loadBadBlocks codec db
  if badBlocks.any fun bad => bad.header.number = block.header.number ∧
      codec.hash bad.header = block.hash codec.toHeaderCodec then
    return []
  let badBlocks := sortReverse (badBlocks ++ [block.toBadBlock])
  let badBlocks :=
    if badBlocks.length > badBlockToKeep then badBlocks.take badBlockToKeep else badBlocks
  return [.put badBlockKey (codec.encodeBadBlocks badBlocks)]

/-- The write of `DeleteBadBlocks`. -/
def deleteBadBlocks : List Write :=
  [.delete badBlockKey]

/-- `ReadAllBadBlocks`: the stored list, or nothing when absent or undecodable. -/
def readAllBadBlocks (codec : Codec) (db : KeyValueStore) : List BadBlock :=
  match db.get badBlockKey with
  | none => []
  | some blob => (codec.decodeBadBlocks blob).getD []

/-- `ReadBadBlock`: the first stored bad block whose header has `hash`, or nothing. -/
def readBadBlock (codec : Codec) (db : KeyValueStore) (hash : Hash) : Option BadBlock :=
  match db.get badBlockKey with
  | none => none
  | some blob =>
      ((codec.decodeBadBlocks blob).getD []).find? fun bad => codec.hash bad.header = hash

/-- `ReadBadBlock` searches the list `ReadAllBadBlocks` returns. -/
theorem readBadBlock_eq (codec : Codec) (db : KeyValueStore) (hash : Hash) :
    readBadBlock codec db hash =
      (readAllBadBlocks codec db).find? fun bad => codec.hash bad.header = hash := by
  unfold readBadBlock readAllBadBlocks
  split <;> rfl

/-- `WriteBadBlock` writes nothing but the list. -/
theorem key_of_mem_writeBadBlock {codec : Codec} {sortReverse : List BadBlock → List BadBlock}
    {block : Block} {db : KeyValueStore} {writes : List Write}
    (issued : writeBadBlock codec sortReverse block db = some writes) :
    ∀ write ∈ writes, write.key = badBlockKey := by
  simp only [writeBadBlock, Option.pure_def, Option.bind_eq_bind, Option.bind_eq_some] at issued
  obtain ⟨_, _, issued⟩ := issued
  split_ifs at issued <;> cases issued <;> simp [Write.key]

/-- A call to one of the bad-block writers. -/
inductive BadBlockCall where
  | write (block : Block)
  | delete

/-- One call on the store. -/
def BadBlockCall.apply (codec : Codec) (sortReverse : List BadBlock → List BadBlock) :
    BadBlockCall → KeyValueStore → Option KeyValueStore
  | .write block, db => (writeBadBlock codec sortReverse block db).map (applyWrites · db)
  | .delete, db => some (applyWrites deleteBadBlocks db)

/-- The entries recorded by `call`, given those recorded since the last delete before it. -/
def BadBlockCall.record (recorded : List BadBlock) : BadBlockCall → List BadBlock
  | .write block => recorded ++ [block.toBadBlock]
  | .delete => []

/-- What a stored list `kept` satisfies given the entries `recorded` since the last
delete: ordered by number, highest first; one entry per number and hash; recorded
entries only; `min 10 D` of them for `D` distinct recorded blocks; and every recorded
block it lacks numbered no higher than any it keeps. -/
structure Retained (hash : Header → Hash) (kept recorded : List BadBlock) : Prop where
  sorted : kept.Sorted fun bad bad' => bad'.header.number.toNat ≤ bad.header.number.toNat
  nodup : (kept.map (BadBlock.key hash)).Nodup
  recorded_of_mem : ∀ bad ∈ kept, bad ∈ recorded
  length_eq : kept.length = min badBlockToKeep (recorded.map (BadBlock.key hash)).toFinset.card
  dropped_le : ∀ bad ∈ recorded, bad.key hash ∉ kept.map (BadBlock.key hash) →
    ∀ keptBad ∈ kept, bad.header.number.toNat ≤ keptBad.header.number.toNat

namespace Retained

variable {hash : Header → Hash} {kept recorded : List BadBlock}

theorem nil : Retained hash [] [] :=
  ⟨List.sorted_nil, List.nodup_nil, by simp, by simp, by simp⟩

/-- A list that lacks a recorded block is full. -/
theorem full_of_dropped (retained : Retained hash kept recorded) {bad : BadBlock}
    (recordedBad : bad ∈ recorded) (dropped : bad.key hash ∉ kept.map (BadBlock.key hash)) :
    kept.length = badBlockToKeep := by
  have subset : (kept.map (BadBlock.key hash)).toFinset ⊂
      (recorded.map (BadBlock.key hash)).toFinset := by
    refine Finset.ssubset_iff_subset_ne.mpr ⟨fun key mem => ?_, fun same => dropped ?_⟩
    · simp only [List.mem_toFinset, List.mem_map] at mem ⊢
      obtain ⟨keptBad, mem, rfl⟩ := mem
      exact ⟨keptBad, retained.recorded_of_mem keptBad mem, rfl⟩
    · have mem := List.mem_toFinset.mpr (List.mem_map_of_mem (BadBlock.key hash) recordedBad)
      rw [← same, List.mem_toFinset] at mem
      exact mem
  have counted := Finset.card_lt_card subset
  rw [List.toFinset_card_of_nodup retained.nodup, List.length_map] at counted
  have := retained.length_eq
  omega

/-- Recording a block already kept leaves the list as it is. -/
theorem record_kept (retained : Retained hash kept recorded) {bad : BadBlock}
    (keptKey : bad.key hash ∈ kept.map (BadBlock.key hash)) :
    Retained hash kept (recorded ++ [bad]) := by
  have recordedKey : bad.key hash ∈ recorded.map (BadBlock.key hash) := by
    obtain ⟨keptBad, mem, same⟩ := List.mem_map.mp keptKey
    exact same ▸ List.mem_map_of_mem _ (retained.recorded_of_mem keptBad mem)
  refine ⟨retained.sorted, retained.nodup,
    fun keptBad mem => List.mem_append_left _ (retained.recorded_of_mem keptBad mem), ?_, ?_⟩
  · rw [retained.length_eq, List.map_append, List.toFinset_append,
      Finset.union_eq_left.mpr (by simpa using recordedKey)]
  · intro other mem missing
    rcases List.mem_append.mp mem with old | new
    · exact retained.dropped_le other old missing
    · rw [List.mem_singleton.mp new] at missing
      exact absurd keptKey missing

section Insert

variable (sorter : ReverseSort) (hash : Header → Hash)

/-- In the sorted list, everything after the first `count` entries is numbered no higher
than everything before. -/
theorem drop_le_take (blocks : List BadBlock) (count : Nat) {keptBad dropped : BadBlock}
    (keptMem : keptBad ∈ (sorter.sort blocks).take count)
    (droppedMem : dropped ∈ (sorter.sort blocks).drop count) :
    dropped.header.number.toNat ≤ keptBad.header.number.toNat := by
  have sorted := sorter.sorted blocks
  rw [← List.take_append_drop count (sorter.sort blocks)] at sorted
  exact (List.pairwise_append.mp sorted).2.2 keptBad keptMem dropped droppedMem

theorem mem_sort_append {kept : List BadBlock} {bad other : BadBlock} :
    other ∈ sorter.sort (kept ++ [bad]) ↔ other ∈ kept ∨ other = bad := by
  simp [(sorter.perm _).mem_iff]

theorem length_sort_append (kept : List BadBlock) (bad : BadBlock) :
    (sorter.sort (kept ++ [bad])).length = kept.length + 1 := by
  simp [(sorter.perm _).length_eq]

variable {hash}

theorem nodup_sort_append (retained : Retained hash kept recorded) {bad : BadBlock}
    (fresh : bad.key hash ∉ kept.map (BadBlock.key hash)) :
    ((sorter.sort (kept ++ [bad])).map (BadBlock.key hash)).Nodup := by
  rw [((sorter.perm _).map _).nodup_iff, List.map_append, List.nodup_append]
  exact ⟨retained.nodup, List.nodup_singleton _, by simpa using fresh⟩

/-- Recording a block not kept, the cut list has `min 10 D` entries for the `D` distinct
blocks recorded. -/
theorem length_record_new (retained : Retained hash kept recorded) {bad : BadBlock}
    (fresh : bad.key hash ∉ kept.map (BadBlock.key hash)) :
    ((sorter.sort (kept ++ [bad])).take badBlockToKeep).length =
      min badBlockToKeep ((recorded ++ [bad]).map (BadBlock.key hash)).toFinset.card := by
  have := retained.length_eq
  rw [List.length_take, length_sort_append, List.map_append, List.toFinset_append]
  by_cases recordedKey : bad.key hash ∈ recorded.map (BadBlock.key hash)
  · obtain ⟨old, oldMem, same⟩ := List.mem_map.mp recordedKey
    have full := retained.full_of_dropped oldMem (same ▸ fresh)
    rw [Finset.union_eq_left.mpr (by simpa using recordedKey)]
    unfold badBlockToKeep at *
    omega
  · rw [Finset.card_union_of_disjoint (by simpa using recordedKey)]
    simp only [List.map_cons, List.map_nil, List.toFinset_cons, List.toFinset_nil,
      insert_emptyc_eq, Finset.card_singleton]
    omega

/-- Recording a block not kept, every recorded block the cut list lacks is numbered no
higher than any it keeps: it was dropped before, or dropped now by the cut. -/
theorem dropped_le_record_new (retained : Retained hash kept recorded) {bad : BadBlock}
    (fresh : bad.key hash ∉ kept.map (BadBlock.key hash)) :
    ∀ other ∈ recorded ++ [bad],
      other.key hash ∉
        ((sorter.sort (kept ++ [bad])).take badBlockToKeep).map (BadBlock.key hash) →
      ∀ keptBad ∈ (sorter.sort (kept ++ [bad])).take badBlockToKeep,
        other.header.number.toNat ≤ keptBad.header.number.toNat := by
  intro other mem missing keptBad keptMem
  by_cases sortedKey : other.key hash ∈ (sorter.sort (kept ++ [bad])).map (BadBlock.key hash)
  · -- dropped now: it stands after the cut
    obtain ⟨dropped, droppedMem, same⟩ := List.mem_map.mp sortedKey
    rw [← List.take_append_drop badBlockToKeep (sorter.sort _), List.mem_append] at droppedMem
    have droppedLate := droppedMem.resolve_left fun early =>
      missing (same ▸ List.mem_map_of_mem _ early)
    have sameNumber : dropped.header.number = other.header.number := congrArg Prod.fst same
    exact sameNumber ▸ drop_le_take sorter _ _ keptMem droppedLate
  · -- dropped before: it was recorded and not kept
    have otherRecorded : other ∈ recorded := by
      refine (List.mem_append.mp mem).resolve_right fun isBad => sortedKey ?_
      rw [List.mem_singleton.mp isBad]
      exact List.mem_map_of_mem _ ((mem_sort_append sorter).mpr (.inr rfl))
    have notKept : other.key hash ∉ kept.map (BadBlock.key hash) := fun keptKey => by
      obtain ⟨old, oldMem, same⟩ := List.mem_map.mp keptKey
      exact sortedKey (same ▸ List.mem_map_of_mem _ ((mem_sort_append sorter).mpr (.inl oldMem)))
    have lower := retained.dropped_le other otherRecorded notKept
    rcases (mem_sort_append sorter).mp (List.mem_of_mem_take keptMem) with old | rfl
    · exact lower keptBad old
    · -- the new block is kept while the list was full, so some entry was dropped
      have full := retained.full_of_dropped otherRecorded notKept
      obtain ⟨dropped, droppedMem⟩ :=
        List.exists_mem_of_ne_nil ((sorter.sort (kept ++ [keptBad])).drop badBlockToKeep)
          (by rw [Ne, List.drop_eq_nil_iff, length_sort_append, full]; omega)
      have sortedNodup := (nodup_sort_append sorter retained fresh).of_map
      rw [← List.take_append_drop badBlockToKeep (sorter.sort _)] at sortedNodup
      have disjoint := List.disjoint_of_nodup_append sortedNodup
      rcases (mem_sort_append sorter).mp (List.mem_of_mem_drop droppedMem) with droppedOld | rfl
      · exact (lower dropped droppedOld).trans (drop_le_take sorter _ _ keptMem droppedMem)
      · exact absurd droppedMem (disjoint keptMem)

/-- Recording a block not kept: the list with it appended, sorted and cut to
`badBlockToKeep` entries, is retained. -/
theorem record_new (retained : Retained hash kept recorded) {bad : BadBlock}
    (fresh : bad.key hash ∉ kept.map (BadBlock.key hash)) :
    Retained hash ((sorter.sort (kept ++ [bad])).take badBlockToKeep) (recorded ++ [bad]) := by
  refine ⟨(sorter.sorted _).sublist (List.take_sublist _ _), ?_, ?_,
    length_record_new sorter retained fresh, dropped_le_record_new sorter retained fresh⟩
  · rw [List.map_take]
    exact (nodup_sort_append sorter retained fresh).sublist (List.take_sublist _ _)
  · intro keptBad mem
    rcases (mem_sort_append sorter).mp (List.mem_of_mem_take mem) with old | rfl
    · exact List.mem_append_left _ (retained.recorded_of_mem keptBad old)
    · exact List.mem_append_right _ (List.mem_singleton_self _)

end Insert

end Retained

/-! ## The list in the store -/

/-- The store holds the list `kept` under `badBlockKey`: no entry for an empty list, else
its encoding. -/
def Stores (codec : Codec) (db : KeyValueStore) (kept : List BadBlock) : Prop :=
  db.get badBlockKey = none ∧ kept = [] ∨ db.get badBlockKey = some (codec.encodeBadBlocks kept)

section Stores

variable (codec : LawfulCodec) (sorter : ReverseSort) {db : KeyValueStore}
  {kept recorded : List BadBlock}

theorem readAllBadBlocks_of_stores (stores : Stores codec.toCodec db kept) :
    readAllBadBlocks codec.toCodec db = kept := by
  rcases stores with ⟨absent, rfl⟩ | present
  · simp [readAllBadBlocks, absent]
  · simp [readAllBadBlocks, present, codec.decodeBadBlocks_encodeBadBlocks]

/-- `WriteBadBlock` loads the stored list. -/
theorem loadBadBlocks_of_stores (stores : Stores codec.toCodec db kept) :
    loadBadBlocks codec.toCodec db = some kept := by
  rcases stores with ⟨absent, rfl⟩ | present
  · simp [loadBadBlocks, absent]
  · simp [loadBadBlocks, present, codec.decodeBadBlocks_encodeBadBlocks,
      codec.encodeBadBlocks_ne_nil]

theorem any_iff_key_mem (block : Block) :
    (kept.any fun bad => bad.header.number = block.header.number ∧
        codec.hash bad.header = block.hash codec.toHeaderCodec) = true ↔
      block.toBadBlock.key codec.hash ∈ kept.map (BadBlock.key codec.hash) := by
  simp [BadBlock.key, Block.toBadBlock, Block.hash, Prod.ext_iff]

/-- One `WriteBadBlock`: it succeeds, and the list it leaves is retained. -/
theorem retained_write (stores : Stores codec.toCodec db kept)
    (retained : Retained codec.hash kept recorded) (block : Block) :
    ∃ db' kept', (BadBlockCall.write block).apply codec.toCodec sorter.sort db = some db' ∧
      Stores codec.toCodec db' kept' ∧
      Retained codec.hash kept' (recorded ++ [block.toBadBlock]) := by
  simp only [BadBlockCall.apply, writeBadBlock, loadBadBlocks_of_stores codec stores,
    Option.pure_def, Option.bind_eq_bind, Option.some_bind]
  by_cases keptKey : block.toBadBlock.key codec.hash ∈ kept.map (BadBlock.key codec.hash)
  · rw [if_pos ((any_iff_key_mem codec block).mpr keptKey)]
    exact ⟨db, kept, rfl, stores, retained.record_kept keptKey⟩
  · rw [if_neg (mt (any_iff_key_mem codec block).mp keptKey)]
    have cut : ∀ blocks : List BadBlock, (if blocks.length > badBlockToKeep then
        blocks.take badBlockToKeep else blocks) = blocks.take badBlockToKeep := fun blocks => by
      split_ifs with long
      · rfl
      · exact (List.take_of_length_le (by omega)).symm
    rw [cut]
    refine ⟨_, _, rfl, .inr ?_, retained.record_new sorter keptKey⟩
    simp [Write.apply]

/-- `DeleteBadBlocks` leaves no list, retained for the empty record. -/
theorem retained_delete (db : KeyValueStore) :
    Stores codec.toCodec (applyWrites deleteBadBlocks db) [] ∧ Retained codec.hash [] [] :=
  ⟨.inl ⟨by simp [deleteBadBlocks, Write.apply], rfl⟩, Retained.nil⟩

/-- A run of calls from a store holding a retained list succeeds and leaves one. -/
theorem retained_run (calls : List BadBlockCall) (stores : Stores codec.toCodec db kept)
    (retained : Retained codec.hash kept recorded) :
    ∃ db' kept', calls.foldlM (fun db call => call.apply codec.toCodec sorter.sort db) db =
        some db' ∧ Stores codec.toCodec db' kept' ∧
      Retained codec.hash kept' (calls.foldl BadBlockCall.record recorded) := by
  induction calls generalizing db kept recorded with
  | nil => exact ⟨db, kept, rfl, stores, retained⟩
  | cons call calls ih =>
      cases call with
      | write block =>
          obtain ⟨db', kept', written, stores', retained'⟩ :=
            retained_write codec sorter stores retained block
          obtain ⟨final, finalKept, run, rest⟩ := ih stores' retained'
          exact ⟨final, finalKept, by simpa [written] using run, rest⟩
      | delete =>
          obtain ⟨stores', retained'⟩ := retained_delete codec db
          obtain ⟨final, finalKept, run, rest⟩ := ih stores' retained'
          exact ⟨final, finalKept, by simpa [BadBlockCall.apply] using run, rest⟩

end Stores

/-- From a store with no bad-block list, every sequence of `WriteBadBlock` and
`DeleteBadBlocks` calls succeeds, and `ReadAllBadBlocks` then returns a list retained for
the blocks recorded since the last delete. -/
theorem badBlocks_retained (codec : LawfulCodec) (sorter : ReverseSort) (db : KeyValueStore)
    (noList : db.get badBlockKey = none) (calls : List BadBlockCall) :
    ∃ db', calls.foldlM (fun db call => call.apply codec.toCodec sorter.sort db) db = some db' ∧
      Retained codec.hash (readAllBadBlocks codec.toCodec db') (calls.foldl BadBlockCall.record []) := by
  obtain ⟨db', kept, run, stores, retained⟩ :=
    retained_run codec sorter calls (.inl ⟨noList, rfl⟩) Retained.nil
  exact ⟨db', run, readAllBadBlocks_of_stores codec stores ▸ retained⟩

/-- `ReverseSort` by `List.mergeSort`, one instance of the contract. -/
def mergeSortReverse : ReverseSort where
  sort blocks := blocks.mergeSort fun bad bad' => bad'.header.number.toNat ≤ bad.header.number.toNat
  perm blocks := List.mergeSort_perm _ _
  sorted blocks := (List.sorted_mergeSort (fun _ _ _ => by simp only [decide_eq_true_eq]; omega)
    (fun _ _ => by simp only [Bool.or_eq_true, decide_eq_true_eq]; omega) blocks).imp (by simp)

/-- A block at height 0 with empty fields, recorded as bad. -/
def invalidSampleBlock : Block :=
  ⟨⟨0, Hash.zero, []⟩, ⟨[], [], []⟩, 0⟩

theorem badBlocks_retained_sample :
    KeyValueStore.empty.get badBlockKey = none ∧
      ∃ db', [BadBlockCall.write invalidSampleBlock, .write invalidSampleBlock].foldlM
          (fun db call => call.apply sampleCodec.toCodec mergeSortReverse.sort db)
          KeyValueStore.empty = some db' ∧
        Retained sampleCodec.hash (readAllBadBlocks sampleCodec.toCodec db')
          [invalidSampleBlock.toBadBlock, invalidSampleBlock.toBadBlock] :=
  ⟨rfl, badBlocks_retained sampleCodec mergeSortReverse KeyValueStore.empty rfl _⟩

/-- From a store with no bad-block list, after every sequence of `WriteBadBlock` and
`DeleteBadBlocks` calls, `ReadBadBlock(hash)` returns a block of that hash recorded since
the last delete, and returns `nil` for the hash of such a block only when the list is full
and every block it keeps is numbered at least as high. -/
theorem readBadBlock_after_run (codec : LawfulCodec) (sorter : ReverseSort)
    (db : KeyValueStore) (noList : db.get badBlockKey = none) (calls : List BadBlockCall) :
    ∃ db', calls.foldlM (fun db call => call.apply codec.toCodec sorter.sort db) db = some db' ∧
      ∀ hash : Hash,
        (∀ bad, readBadBlock codec.toCodec db' hash = some bad →
          codec.hash bad.header = hash ∧ bad ∈ calls.foldl BadBlockCall.record []) ∧
        (readBadBlock codec.toCodec db' hash = none →
          ∀ bad ∈ calls.foldl BadBlockCall.record [], codec.hash bad.header = hash →
            (readAllBadBlocks codec.toCodec db').length = badBlockToKeep ∧
            ∀ keptBad ∈ readAllBadBlocks codec.toCodec db',
              bad.header.number.toNat ≤ keptBad.header.number.toNat) := by
  obtain ⟨db', kept, run, stores, retained⟩ :=
    retained_run codec sorter calls (.inl ⟨noList, rfl⟩) Retained.nil
  refine ⟨db', run, fun hash =>
    ⟨fun bad found => ?_, fun missing bad recorded sameHash => ?_⟩⟩
  · rw [readBadBlock_eq, readAllBadBlocks_of_stores codec stores] at found
    exact ⟨of_decide_eq_true
        (List.find?_some (p := fun bad : BadBlock => codec.hash bad.header = hash) found),
      retained.recorded_of_mem bad (List.mem_of_find?_eq_some found)⟩
  · rw [readBadBlock_eq, readAllBadBlocks_of_stores codec stores, List.find?_eq_none] at missing
    rw [readAllBadBlocks_of_stores codec stores]
    have dropped : bad.key codec.hash ∉ kept.map (BadBlock.key codec.hash) := fun keptKey => by
      obtain ⟨keptBad, keptMem, same⟩ := List.mem_map.mp keptKey
      exact missing keptBad keptMem (by simpa [← sameHash] using congrArg Prod.snd same)
    exact ⟨retained.full_of_dropped recorded dropped, retained.dropped_le bad recorded dropped⟩

/-- Two bad blocks at heights 0 and 1 recorded into the empty store. -/
theorem readBadBlock_after_run_sample :
    KeyValueStore.empty.get badBlockKey = none ∧
      ∃ db', [BadBlockCall.write invalidSampleBlock,
          .write { invalidSampleBlock with header.number := 1 }].foldlM
          (fun db call => call.apply sampleCodec.toCodec mergeSortReverse.sort db)
          KeyValueStore.empty = some db' ∧
        ∀ hash : Hash,
          (∀ bad, readBadBlock sampleCodec.toCodec db' hash = some bad →
            sampleCodec.hash bad.header = hash ∧
              bad ∈ [BadBlockCall.write invalidSampleBlock,
                .write { invalidSampleBlock with header.number := 1 }].foldl
                BadBlockCall.record []) ∧
          (readBadBlock sampleCodec.toCodec db' hash = none →
            ∀ bad ∈ [BadBlockCall.write invalidSampleBlock,
                .write { invalidSampleBlock with header.number := 1 }].foldl
                BadBlockCall.record [],
              sampleCodec.hash bad.header = hash →
                (readAllBadBlocks sampleCodec.toCodec db').length = badBlockToKeep ∧
                ∀ keptBad ∈ readAllBadBlocks sampleCodec.toCodec db',
                  bad.header.number.toNat ≤ keptBad.header.number.toNat) :=
  ⟨rfl, readBadBlock_after_run sampleCodec mergeSortReverse KeyValueStore.empty rfl _⟩

end Rawdb
