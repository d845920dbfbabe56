import Rawdb.AncestorSearch
import Rawdb.HeaderIndex
import Rawdb.Records

/-!
# The writers keep the headers filed

`FindCommonAncestor` is shown to finish and to return a common ancestor on stores whose
headers are filed under their own number and hash (`HeadersFiled`) with none at number
`2^64 - 1` (`NoneAtTop`), and whose `ReadHeader` honours the asked hash (`HashFaithful`)
(`Rawdb.CommonAncestor`, `Rawdb.AncestorSearch`). These are invariants of the live-store
writers: `WriteHeader` and `WriteBlock` file the header under its own number and hash, the
deleting writers only remove records, and the other writers write keys that are no header
key (`Rawdb.Records`). So every run of writer calls that stores no header at `2^64 - 1`
(`WriterCall.headers` of `Rawdb.HeaderIndex`) keeps a filed store filed and free of headers
at the top, and, while the freezer holds no header, hash-faithful (`headers_stay_filed`).
-/

namespace Rawdb

/-! ## The invariant on the view -/

namespace RecordView

/-- Each header record of the view is the encoding of a header filed under its own number
and hash and numbered below `2^64 - 1`. -/
def Filed (codec : HeaderCodec) (view : RecordView) : Prop :=
  ∀ number hash value, view .headerTable number hash = some value →
    ∃ header, value = codec.encodeHeader header ∧ header.number = number ∧
      codec.hash header = hash ∧ header.number ≠ 0 - 1

variable {codec : HeaderCodec} {view : RecordView}

theorem set_apply (table : Table) (number : UInt64) (hash : Hash) (value : Option Bytes)
    (table' : Table) (number' : UInt64) (hash' : Hash) :
    view.set table number hash value table' number' hash' =
      if table' = table ∧ number' = number ∧ (table' = .hashTable ∨ hash' = hash) then value
      else view table' number' hash' :=
  rfl

theorem Filed.set_none (filed : view.Filed codec) (table : Table) (number : UInt64)
    (hash : Hash) : (view.set table number hash none).Filed codec := by
  intro number' hash' value stored
  rw [set_apply] at stored
  split at stored
  · cases stored
  · exact filed number' hash' value stored

theorem Filed.set_other (filed : view.Filed codec) {table : Table}
    (other : table ≠ .headerTable) (number : UInt64) (hash : Hash) (value : Option Bytes) :
    (view.set table number hash value).Filed codec := by
  intro number' hash' value' stored
  rw [set_apply] at stored
  split at stored
  next same => exact absurd same.1.symm other
  · exact filed number' hash' value' stored

theorem Filed.set_header (filed : view.Filed codec) (header : Header)
    (below : header.number ≠ 0 - 1) :
    (view.set .headerTable header.number (codec.hash header)
      (some (codec.encodeHeader header))).Filed codec := by
  intro number hash value stored
  rw [set_apply] at stored
  split at stored
  next same =>
    obtain ⟨-, rfl, atHash⟩ := same
    obtain rfl : hash = codec.hash header := atHash.resolve_left (by decide)
    cases stored
    exact ⟨header, rfl, rfl, rfl, below⟩
  · exact filed number hash value stored

theorem Filed.clearBlock (filed : view.Filed codec) (number : UInt64) (hash : Hash) :
    (view.clearBlock number hash).Filed codec :=
  (((filed.set_none _ _ _).set_none _ _ _).set_none _ _ _).set_none _ _ _

/-- Every writer call that files no header at `2^64 - 1` keeps the view filed. -/
theorem Filed.onRecords {codec : Codec} (filed : view.Filed codec.toHeaderCodec)
    (call : WriterCall) (below : ∀ header ∈ call.headers, header.number ≠ 0 - 1) :
    (call.onRecords codec view).Filed codec.toHeaderCodec := by
  cases call
  case writeHeader header =>
    exact filed.set_header header (below header (by simp [WriterCall.headers]))
  case writeBlock block =>
    exact (filed.set_other (by decide) _ _ _).set_header _
      (below block.header (by simp [WriterCall.headers]))
  case deleteHeader | deleteBody | deleteTd | deleteReceipts | deleteCanonicalHash =>
    exact filed.set_none _ _ _
  case deleteBlock | deleteBlockWithoutNumber => exact filed.clearBlock _ _
  case writeCanonicalHash | writeBodyRLP | writeBody | writeTd | writeReceipts =>
    exact filed.set_other (by decide) _ _ _
  all_goals exact filed

theorem Filed.recordsAfter {codec : Codec} (calls : List WriterCall)
    (below : ∀ call ∈ calls, ∀ header ∈ call.headers, header.number ≠ 0 - 1)
    (filed : view.Filed codec.toHeaderCodec) :
    (Rawdb.recordsAfter codec calls view).Filed codec.toHeaderCodec := by
  induction calls generalizing view with
  | nil => exact filed
  | cons call calls ih =>
      exact ih (fun call' mem => below call' (List.mem_cons_of_mem _ mem))
        (filed.onRecords call (below call (List.mem_cons_self _ _)))

end RecordView

/-! ## Filed databases -/

section Database

variable {codec : HeaderCodec} {db : Database}

/-- The live headers of a filed store with none at the top file a view. -/
theorem HeadersFiled.liveRecords (filed : HeadersFiled codec db) (noTop : NoneAtTop db) :
    (liveRecords db.live).Filed codec := by
  intro number hash value stored
  obtain ⟨header, rfl, rfl, rfl⟩ := filed.live number _ value stored
  refine ⟨header, rfl, rfl, rfl, fun top => ?_⟩
  have none := noTop.1 (codec.hash header)
  rw [← top] at none
  exact absurd (stored.symm.trans none) (by simp)

/-- A database whose live view is filed, over a filed freezer with no header at the top, is
filed with none at the top. -/
theorem headersFiled_of_liveRecords {live : KeyValueStore}
    (filedLive : (liveRecords live).Filed codec) (filed : HeadersFiled codec db)
    (noTop : NoneAtTop db) :
    HeadersFiled codec { db with live := live } ∧ NoneAtTop { db with live := live } := by
  refine ⟨⟨fun number hash value stored => ?_, filed.ancient⟩, fun hash => ?_, noTop.2⟩
  · obtain ⟨header, same, atNumber, hashed, -⟩ := filedLive number hash value stored
    exact ⟨header, same, atNumber, hashed⟩
  · cases stored : live.get (headerKey (0 - 1) hash) with
    | none => rfl
    | some value =>
        obtain ⟨_, -, atNumber, -, below⟩ := filedLive _ hash value stored
        exact absurd atNumber below

end Database

/-- Every run of live-store writer calls that completes and files no header at `2^64 - 1`
keeps the headers of a store filed under their own number and hash with none at
`2^64 - 1`; and while the freezer holds no header, `ReadHeader` on the store the run leaves
returns only headers of the hash it is asked for. -/
theorem headers_stay_filed (codec : Codec) (sortReverse : List BadBlock → List BadBlock)
    (location : Hash → Bytes) (offLocation : ∀ commitment, OffRecords (location commitment))
    (db : Database) (filed : HeadersFiled codec.toHeaderCodec db) (noTop : NoneAtTop db)
    (calls : List WriterCall) (below : ∀ call ∈ calls, ∀ header ∈ call.headers,
      header.number ≠ 0 - 1)
    (final : KeyValueStore)
    (ran : WriterCall.run ⟨codec, sortReverse, location⟩ calls db.live = some final) :
    HeadersFiled codec.toHeaderCodec { db with live := final } ∧
      NoneAtTop { db with live := final } ∧
      ((∀ number, db.ancientAt .headerTable number = none) →
        HashFaithful codec.toHeaderCodec { db with live := final }) := by
  have filedLive : (liveRecords final).Filed codec.toHeaderCodec := by
    rw [liveRecords_run codec sortReverse location offLocation calls ran]
    exact (filed.liveRecords noTop).recordsAfter calls below
  obtain ⟨filedAfter, noTopAfter⟩ := headersFiled_of_liveRecords filedLive filed noTop
  exact ⟨filedAfter, noTopAfter, hashFaithful_of_unfrozen filedAfter⟩

theorem headers_stay_filed_sample :
    (∀ commitment, OffRecords (Hash.bytes commitment)) ∧
      HeadersFiled sampleEntityCodec.toHeaderCodec emptySample ∧ NoneAtTop emptySample ∧
      (∀ call ∈ roundTripSampleCalls, ∀ header ∈ call.headers, header.number ≠ 0 - 1) ∧
      WriterCall.run ⟨sampleEntityCodec.toCodec, mergeSortReverse.sort, Hash.bytes⟩
          roundTripSampleCalls emptySample.live = some roundTripSampleStore ∧
      HeadersFiled sampleEntityCodec.toHeaderCodec
        { emptySample with live := roundTripSampleStore } :=
  have filed : HeadersFiled sampleEntityCodec.toHeaderCodec emptySample :=
    headersFiled_empty _
  have noTop : NoneAtTop emptySample := ⟨fun _ => rfl, rfl⟩
  have below : ∀ call ∈ roundTripSampleCalls, ∀ header ∈ call.headers,
      header.number ≠ 0 - 1 := by
    decide
  ⟨offRecords_bytes, filed, noTop, below, rfl,
    (headers_stay_filed sampleEntityCodec.toCodec mergeSortReverse.sort Hash.bytes
      offRecords_bytes emptySample filed noTop roundTripSampleCalls below roundTripSampleStore
      rfl).1⟩

end Rawdb
