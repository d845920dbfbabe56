import Rawdb.HeaderIndex
import Rawdb.RoundTrip

/-!
# `ReadBlock` after a crash inside a writer

The writers are not atomic: a crash may stop one after any of its writes, and the store is
then the one `WriterCall.trace` lists at that point. `ReadBlock` reads a header and a body,
so a crash between a writer's header write and its body write could leave a block half
written or half deleted. The writers order their writes so that it does not: `WriteBlock`
stores the body before the header, and `DeleteBlock` and `DeleteBlockWithoutNumber` delete
the header before the body, so a block shows only once its header is there and stops
showing as soon as the header goes (`untorn_afterEach_call`).

One case is left. `WriteBlock` over a header already stored under its number and hash
shows, between its two writes, the stored header with the new body. That header has the
new one's hash, so where the hash is injective on the headers of the run it is the new
header (`HeadersIn`, kept by every call). With that, every store a run passes through gives
`ReadBlock` what it gives at the end of some prefix of the run
(`readBlock_untorn_after_every_write`).
-/

namespace Rawdb

/-! ## Views -/

namespace BlockView

/-- Every header of the view is one of `headers` and has the hash its key names. -/
def HeadersIn (codec : Codec) (headers : Set Header) (view : BlockView) : Prop :=
  ∀ key header, view.header key = some header → header ∈ headers ∧ codec.hash header = key.1

variable {codec : Codec} {headers : Set Header} {view : BlockView}

theorem HeadersIn.setBody (headersIn : view.HeadersIn codec headers) (key : Hash × UInt64)
    (body : Option Body) : (view.setBody key body).HeadersIn codec headers :=
  headersIn

theorem HeadersIn.setHeader (headersIn : view.HeadersIn codec headers) (key : Hash × UInt64)
    {header : Option Header}
    (named : ∀ stored, header = some stored →
      stored ∈ headers ∧ codec.hash stored = key.1) :
    (view.setHeader key header).HeadersIn codec headers := by
  intro key' stored found
  simp only [BlockView.setHeader, Function.update_apply] at found
  split at found
  next same => exact same ▸ named stored found
  · exact headersIn key' stored found

/-- Every writer call whose headers are among `headers` keeps the view's headers among
them. -/
theorem HeadersIn.onBlocks (headersIn : view.HeadersIn codec headers) (call : WriterCall)
    (involved : ∀ header ∈ call.headers, header ∈ headers) :
    (call.onBlocks codec view).HeadersIn codec headers := by
  have written : ∀ header ∈ call.headers, ∀ stored, some header = some stored →
      stored ∈ headers ∧ codec.hash stored = (codec.hash header, header.number).1 :=
    fun header mem _ same => by cases same; exact ⟨involved header mem, rfl⟩
  cases call
  case writeHeader header =>
    exact headersIn.setHeader _ (written header (by simp [WriterCall.headers]))
  case writeBlock block =>
    exact (headersIn.setBody _ _).setHeader _ (written _ (by simp [WriterCall.headers]))
  case deleteHeader => exact headersIn.setHeader _ fun _ gone => by cases gone
  case deleteBlock | deleteBlockWithoutNumber =>
    exact (headersIn.setHeader _ fun _ gone => by cases gone).setBody _ _
  case writeBodyRLP | writeBody | deleteBody => exact headersIn.setBody _ _
  all_goals exact headersIn

/-- Without its header a block does not show, whatever its body. -/
theorem block_setBody_of_setHeader_none (key : Hash × UInt64) (body : Option Body) :
    ((view.setHeader key none).setBody key body).block = (view.setHeader key none).block := by
  funext hash number
  by_cases same : (hash, number) = key
  · subst same
    simp [block, setHeader, setBody]
  · simp [block, setHeader, setBody, Function.update_noteq same]

/-- A body set under a block whose header is absent or `header` shows the block as it was,
or as it is once `header` is set too. -/
theorem block_setBody_untorn (key : Hash × UInt64) (header : Header) (body : Body)
    (overwrite : ∀ stored, view.header key = some stored → stored = header) (hash : Hash)
    (number : UInt64) :
    (view.setBody key (some body)).block hash number = view.block hash number ∨
      (view.setBody key (some body)).block hash number =
        ((view.setBody key (some body)).setHeader key (some header)).block hash number := by
  by_cases same : (hash, number) = key
  · subst same
    cases stored : view.header (hash, number) with
    | none => exact .inl (by simp [block, setBody, stored])
    | some stored' =>
        obtain rfl := overwrite stored' stored
        exact .inr (by simp [block, setBody, setHeader, stored])
  · exact .inl (by simp [block, setBody, Function.update_noteq same])

end BlockView

/-! ## One call -/

/-- At every block, `ReadBlock` returns at `store` what it returns at `before` or at
`after`. -/
def Untorn (codec : Codec) (before after store : KeyValueStore) : Prop :=
  ∀ hash number, (liveBlocks codec store).block hash number =
      (liveBlocks codec before).block hash number ∨
    (liveBlocks codec store).block hash number = (liveBlocks codec after).block hash number

theorem liveBlocks_afterEach_of_offBlocks (codec : Codec) {writes : List Write}
    (off : ∀ write ∈ writes, OffBlocks write.key) {db : KeyValueStore} :
    ∀ store ∈ afterEach writes db, liveBlocks codec store = liveBlocks codec db := by
  induction writes generalizing db with
  | nil => simp [afterEach]
  | cons write writes ih =>
      have first :=
        liveBlocks_apply_of_offBlocks codec db write (off write (List.mem_cons_self _ _))
      intro store mem
      rcases List.mem_cons.mp mem with rfl | later
      · exact first
      · exact (ih (fun write' mem' => off write' (List.mem_cons_of_mem _ mem')) store later).trans
          first

theorem eq_of_mem_afterEach_singleton {write : Write} {db store : KeyValueStore}
    (mem : store ∈ afterEach [write] db) : store = applyWrites [write] db := by
  simpa [afterEach] using mem

section Runs

variable (codec : EntityCodec) (sortReverse : List BadBlock → List BadBlock)
  (location : Hash → Bytes)

/-- Every store a call passes through gives `ReadBlock` its result before or after the call,
unless the call is a `WriteBlock` over another header stored under the block's number and
hash. -/
theorem untorn_afterEach_call {call : WriterCall} {db : KeyValueStore} {writes : List Write}
    (issued : call.writes ⟨codec.toCodec, sortReverse, location⟩ db = some writes)
    (overwrite : ∀ block, call = .writeBlock block → ∀ stored,
      (liveBlocks codec.toCodec db).header (codec.hash block.header, block.header.number) =
        some stored → stored = block.header) :
    ∀ store ∈ afterEach writes db, Untorn codec.toCodec db (applyWrites writes db) store := by
  have final : Untorn codec.toCodec db (applyWrites writes db) (applyWrites writes db) :=
    fun _ _ => .inr rfl
  have unchanged {store : KeyValueStore}
      (same : liveBlocks codec.toCodec store = liveBlocks codec.toCodec db) :
      Untorn codec.toCodec db (applyWrites writes db) store :=
    fun _ _ => .inl (by rw [same])
  cases call <;> simp only [WriterCall.writes, Option.some.injEq] at issued
  case writeBadBlock block =>
    exact fun store mem => unchanged (liveBlocks_afterEach_of_offBlocks _ (fun write written =>
      key_of_mem_writeBadBlock issued write written ▸ offBlocks_fixedKeys _ (by simp)) store mem)
  case writeHeader header =>
    simp only [Rawdb.writeHeader, writeHeaderNumber, List.singleton_append] at issued
    subst issued
    intro store mem
    simp only [afterEach, List.mem_cons, List.not_mem_nil, or_false] at mem
    rcases mem with rfl | rfl
    · exact unchanged (by simp)
    · exact final
  case deleteHeader hash number =>
    simp only [Rawdb.deleteHeader, deleteHeaderWithoutNumber, List.singleton_append] at issued
    subst issued
    intro store mem
    simp only [afterEach, List.mem_cons, List.not_mem_nil, or_false] at mem
    rcases mem with rfl | rfl
    · exact fun _ _ => .inr (by simp [applyWrites])
    · exact final
  case writeBlock block =>
    simp only [Rawdb.writeBlock, Rawdb.writeBody, Rawdb.writeBodyRLP, Rawdb.writeHeader,
      writeHeaderNumber, List.singleton_append, List.cons_append, Block.hash] at issued
    subst issued
    intro store mem
    simp only [afterEach, List.mem_cons, List.not_mem_nil, or_false] at mem
    have torn := BlockView.block_setBody_untorn (codec.hash block.header, block.header.number)
      block.header block.body (overwrite block rfl)
    rcases mem with rfl | rfl | rfl
    iterate 2 exact fun hash number => by simpa [applyWrites] using torn hash number
    exact final
  case deleteBlock hash number | deleteBlockWithoutNumber hash number =>
    simp only [Rawdb.deleteBlock, Rawdb.deleteBlockWithoutNumber, deleteReceipts,
      Rawdb.deleteHeader, deleteHeaderWithoutNumber, deleteBody, deleteTd, List.singleton_append,
      List.cons_append] at issued
    subst issued
    intro store mem
    simp only [afterEach, List.mem_cons, List.not_mem_nil, or_false] at mem
    have gone := @BlockView.block_setBody_of_setHeader_none (liveBlocks codec.toCodec db)
      (hash, number) none
    rcases mem with rfl | rfl | rfl | rfl | rfl
    · exact unchanged (by simp)
    all_goals exact fun _ _ => .inr (by simp [applyWrites, gone])
  all_goals
    subst issued
    intro store mem
    rw [eq_of_mem_afterEach_singleton mem]
    exact final

/-! ## Runs -/

variable (offLocation : ∀ commitment, OffBlocks (location commitment)) {headers : Set Header}
  (distinct : Set.InjOn codec.hash headers)

include offLocation distinct in
/-- Every store a run passes through, from a view whose headers are among `headers` and
with the calls' headers among them too, gives `ReadBlock` at each block what it gives at
the end of some prefix of the run. -/
theorem untorn_trace (calls : List WriterCall) {db : KeyValueStore}
    (headersIn : (liveBlocks codec.toCodec db).HeadersIn codec.toCodec headers)
    (involved : ∀ call ∈ calls, ∀ header ∈ call.headers, header ∈ headers) :
    ∀ store ∈ WriterCall.trace ⟨codec.toCodec, sortReverse, location⟩ calls db,
      ∀ hash number, ∃ k boundary,
        WriterCall.run ⟨codec.toCodec, sortReverse, location⟩ (calls.take k) db =
          some boundary ∧
        (liveBlocks codec.toCodec store).block hash number =
          (liveBlocks codec.toCodec boundary).block hash number := by
  induction calls generalizing db with
  | nil => simp [WriterCall.trace]
  | cons call calls ih =>
      simp only [WriterCall.trace]
      cases issued : call.writes ⟨codec.toCodec, sortReverse, location⟩ db with
      | none => simp
      | some writes =>
          have overwrite : ∀ block, call = .writeBlock block → ∀ stored,
              (liveBlocks codec.toCodec db).header (codec.hash block.header, block.header.number) =
                some stored → stored = block.header := by
            rintro block rfl stored found
            obtain ⟨mem, sameHash⟩ := headersIn _ stored found
            exact distinct mem
              (involved _ (List.mem_cons_self _ _) _ (by simp [WriterCall.headers])) sameHash
          have after : (liveBlocks codec.toCodec (applyWrites writes db)).HeadersIn codec.toCodec
              headers := by
            rw [liveBlocks_call codec sortReverse location offLocation issued]
            exact headersIn.onBlocks call (involved call (List.mem_cons_self _ _))
          intro store mem hash number
          rcases List.mem_append.mp mem with now | later
          · rcases untorn_afterEach_call codec sortReverse location issued overwrite store now hash
              number with before | after
            · exact ⟨0, db, rfl, before⟩
            · exact ⟨1, _, by simp [WriterCall.run, issued], after⟩
          · obtain ⟨k, boundary, ran, same⟩ := ih after
              (fun call' mem' => involved call' (List.mem_cons_of_mem _ mem')) store later hash
              number
            exact ⟨k + 1, boundary, by simpa [WriterCall.run, issued] using ran, same⟩

end Runs

/-- A crash after any write of a run of writer calls leaves, at a height the freezer has not
reached, a store on which `ReadBlock` returns what it returns at the end of some prefix of
the run: never a block half written or half deleted. This holds from a store whose headers
are filed under their own number and hash, with the header hash injective on the headers
of the run. -/
theorem readBlock_untorn_after_every_write (codec : EntityCodec)
    (sortReverse : List BadBlock → List BadBlock) (location : Hash → Bytes)
    (offLocation : ∀ commitment, OffBlocks (location commitment)) (db : Database)
    (calls : List WriterCall)
    (distinct : Set.InjOn codec.hash (involvedHeaders codec.toHeaderCodec db.live calls))
    (filed : Filed codec.toHeaderCodec Set.univ db.live) (hash : Hash) (number : UInt64)
    (unfrozen : db.Unfrozen number) :
    ∀ store ∈ WriterCall.trace ⟨codec.toCodec, sortReverse, location⟩ calls db.live,
      ∃ k boundary,
        WriterCall.run ⟨codec.toCodec, sortReverse, location⟩ (calls.take k) db.live =
          some boundary ∧
        (readBlock codec.toCodec hash number).eval { db with live := store } =
          (readBlock codec.toCodec hash number).eval { db with live := boundary } := by
  have headersIn : (liveBlocks codec.toCodec db.live).HeadersIn codec.toCodec
      (involvedHeaders codec.toHeaderCodec db.live calls) := by
    intro key header found
    cases stored : db.live.get (headerKey key.2 key.1) with
    | none => simp [liveBlocks, stored] at found
    | some value =>
        obtain ⟨header', -, rfl, -, hashed⟩ := filed key.2 key.1 value stored
        simp only [liveBlocks, stored, Option.getD_some, decodeRaw_encodeHeader,
          Option.some.injEq] at found
        subst found
        exact ⟨.inl ⟨key.2, key.1, stored⟩, hashed⟩
  intro store mem
  obtain ⟨k, boundary, ran, same⟩ := untorn_trace codec sortReverse location offLocation
    distinct calls headersIn (fun call mem _ written => .inr ⟨call, mem, written⟩) store mem hash
    number
  have unfrozenAt (live : KeyValueStore) : Database.Unfrozen { db with live := live } number :=
    unfrozen
  refine ⟨k, boundary, ran, ?_⟩
  rw [readBlock_of_unfrozen codec.toCodec (unfrozenAt store),
    readBlock_of_unfrozen codec.toCodec (unfrozenAt boundary)]
  exact same

/-- `WriteBlock` of the round-trip sample block, then `DeleteBlock` at the zero hash, from an
empty store: at each of their writes `ReadBlock` of the sample block returns what it returns
at the end of a prefix of the run. -/
theorem readBlock_untorn_after_every_write_sample :
    Set.InjOn sampleEntityCodec.hash
        (involvedHeaders sampleEntityCodec.toHeaderCodec emptySample.live roundTripSampleCalls) ∧
      Filed sampleEntityCodec.toHeaderCodec Set.univ emptySample.live ∧
      ∀ store ∈ WriterCall.trace
          ⟨sampleEntityCodec.toCodec, mergeSortReverse.sort, Hash.bytes⟩ roundTripSampleCalls
          emptySample.live,
        ∃ k boundary,
          WriterCall.run ⟨sampleEntityCodec.toCodec, mergeSortReverse.sort, Hash.bytes⟩
              (roundTripSampleCalls.take k) emptySample.live = some boundary ∧
          (readBlock sampleEntityCodec.toCodec
              (roundTripSampleBlock.hash sampleEntityCodec.toHeaderCodec) 0).eval
              { emptySample with live := store } =
            (readBlock sampleEntityCodec.toCodec
              (roundTripSampleBlock.hash sampleEntityCodec.toHeaderCodec) 0).eval
              { emptySample with live := boundary } :=
  have only : ∀ header ∈ involvedHeaders sampleEntityCodec.toHeaderCodec emptySample.live
      roundTripSampleCalls, header = roundTripSampleBlock.header := by
    rintro header (⟨_, _, stored⟩ | ⟨call, mem, written⟩)
    · simp [emptySample] at stored
    · simp only [roundTripSampleCalls, List.mem_cons, List.not_mem_nil, or_false] at mem
      rcases mem with rfl | rfl
      · simpa [WriterCall.headers] using written
      · simp [WriterCall.headers] at written
  have distinct : Set.InjOn sampleEntityCodec.hash
      (involvedHeaders sampleEntityCodec.toHeaderCodec emptySample.live roundTripSampleCalls) :=
    fun header mem header' mem' _ => (only header mem).trans (only header' mem').symm
  have filed : Filed sampleEntityCodec.toHeaderCodec Set.univ emptySample.live :=
    fun _ _ _ stored => by simp [emptySample] at stored
  ⟨distinct, filed,
    readBlock_untorn_after_every_write sampleEntityCodec mergeSortReverse.sort Hash.bytes
      offBlocks_bytes emptySample roundTripSampleCalls distinct filed
      (roundTripSampleBlock.hash sampleEntityCodec.toHeaderCodec) 0 (emptySample_unfrozen 0)⟩

end Rawdb
