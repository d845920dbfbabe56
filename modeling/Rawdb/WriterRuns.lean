import Rawdb.Caches

/-!
# Runs of writer calls complete

The live-store writers exit the process through `log.Crit` only on a failed write, which
the modelled store does not have, on an encoding failure, which the codec does not have,
and in `WriteBadBlock` when the stored bad-block list does not decode. The results on runs
of writer calls (`Rawdb.RoundTrip`, `Rawdb.Records`, `Rawdb.Scalars`, `Rawdb.Caches`,
`Rawdb.LiveScans`) assume the run completes. It does whenever the list's encoding
round-trips and the randomness-cache location never names the list's key: the list stays
absent or an encoding (`Stores`), `WriteBadBlock` and `DeleteBadBlocks` keep it so, and no
other writer touches its key (`writer_runs_complete`).
-/

namespace Rawdb

theorem badBlockKey_ne_of_length {key : Bytes} (length : key.length ≠ 12) : badBlockKey ≠ key :=
  fun same => length (by rw [← same]; decide)

section Runs

variable (codec : LawfulCodec) (sortReverse : List BadBlock → List BadBlock)
  (location : Hash → Bytes) (offBadBlocks : ∀ commitment, location commitment ≠ badBlockKey)
include offBadBlocks

/-- Every writer call on a store whose bad-block list is absent or an encoding completes and
leaves the list absent or an encoding. -/
theorem writes_of_stores {db : KeyValueStore} {kept : List BadBlock}
    (stores : Stores codec.toCodec db kept) (call : WriterCall) :
    ∃ writes kept', call.writes ⟨codec.toCodec, sortReverse, location⟩ db = some writes ∧
      Stores codec.toCodec (applyWrites writes db) kept' := by
  cases call
  case writeBadBlock block =>
    simp only [WriterCall.writes, writeBadBlock, loadBadBlocks_of_stores codec stores,
      Option.pure_def, Option.bind_eq_bind, Option.some_bind]
    by_cases present : (kept.any fun bad => bad.header.number = block.header.number ∧
        codec.hash bad.header = block.hash codec.toHeaderCodec) = true
    · rw [if_pos present]
      exact ⟨[], kept, rfl, stores⟩
    · rw [if_neg present]
      exact ⟨_, _, rfl, .inr (by rw [applyWrites_cons, applyWrites_nil, Write.apply_put,
        KeyValueStore.get_put, if_pos rfl])⟩
  case deleteBadBlocks =>
    exact ⟨_, [], rfl, .inl ⟨by simp [applyWrites_cons], rfl⟩⟩
  all_goals
    refine ⟨_, kept, rfl, ?_⟩
    have offRecords : ∀ table number hash, badBlockKey ≠ recordKey table number hash :=
      offRecords_fixedKeys _ (by simp)
    have numberKey : ∀ hash, badBlockKey ≠ headerNumberKey hash := fun hash =>
      badBlockKey_ne_of_length (by rw [length_headerNumberKey]; decide)
    have uptime : ∀ epoch, badBlockKey ≠ uptimeKey epoch := fun epoch =>
      badBlockKey_ne_of_length (by rw [length_uptimeKey]; decide)
    have locationKey : ∀ commitment, badBlockKey ≠ location commitment := fun commitment =>
      (offBadBlocks commitment).symm
    have fixed : badBlockKey ≠ headHeaderKey ∧ badBlockKey ≠ headBlockKey ∧
        badBlockKey ≠ headFastBlockKey ∧ badBlockKey ≠ lastPivotKey ∧
        badBlockKey ≠ fastTrieProgressKey ∧ badBlockKey ≠ txIndexTailKey ∧
        badBlockKey ≠ fastTxLookupLimitKey := by
      decide
    unfold Stores at stores ⊢
    simpa [offRecords, numberKey, uptime, locationKey, fixed, Block.hash, applyWrites_cons,
      headerHashKey_eq_recordKey, headerKey_eq_recordKey, blockBodyKey_eq_recordKey,
      blockReceiptsKey_eq_recordKey, headerTDKey_eq_recordKey] using stores

/-- Every run of writer calls from a store whose bad-block list is absent or an encoding
of a list completes, with a codec whose list encoding round-trips and a randomness-cache
location off the list's key: no call exits through `log.Crit`. -/
theorem writer_runs_complete (db : KeyValueStore)
    (loadable : ∃ kept, Stores codec.toCodec db kept) (calls : List WriterCall) :
    ∃ final, WriterCall.run ⟨codec.toCodec, sortReverse, location⟩ calls db = some final ∧
      ∃ kept, Stores codec.toCodec final kept := by
  induction calls generalizing db with
  | nil => exact ⟨db, rfl, loadable⟩
  | cons call calls ih =>
      obtain ⟨kept, stores⟩ := loadable
      obtain ⟨writes, kept', issued, stores'⟩ :=
        writes_of_stores codec sortReverse location offBadBlocks stores call
      obtain ⟨final, ran, loadableAfter⟩ := ih _ ⟨kept', stores'⟩
      exact ⟨final, by simp only [WriterCall.run, issued, Option.some_bind, ran],
        loadableAfter⟩

end Runs

/-- A hash's own 32 bytes, as the randomness-cache key, are not the bad-block list's key. -/
theorem bytes_ne_badBlockKey (commitment : Hash) : commitment.bytes ≠ badBlockKey :=
  (badBlockKey_ne_of_length (by rw [commitment.length_bytes]; decide)).symm

theorem writer_runs_complete_sample :
    (∀ commitment, Hash.bytes commitment ≠ badBlockKey) ∧
      (∃ kept, Stores sampleCodec.toCodec KeyValueStore.empty kept) ∧
      ∃ final, WriterCall.run ⟨sampleCodec.toCodec, mergeSortReverse.sort, Hash.bytes⟩
          [.writeBadBlock invalidSampleBlock, .writeRandomCommitmentCache Hash.zero Hash.zero,
            .writeBadBlock invalidSampleBlock, .deleteBadBlocks] KeyValueStore.empty =
          some final ∧ ∃ kept, Stores sampleCodec.toCodec final kept :=
  have loadable : ∃ kept, Stores sampleCodec.toCodec KeyValueStore.empty kept :=
    ⟨[], .inl ⟨rfl, rfl⟩⟩
  ⟨bytes_ne_badBlockKey, loadable,
    writer_runs_complete sampleCodec mergeSortReverse.sort Hash.bytes bytes_ne_badBlockKey
      KeyValueStore.empty loadable _⟩

end Rawdb
