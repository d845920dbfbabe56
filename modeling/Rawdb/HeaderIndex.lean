import Rawdb.Writers

/-!
# The hash-to-number index

A header is found by hash through `ReadHeaderNumber`, so every stored header should have
its mapping: under `headerNumberKey(h)` the number its key `headerKey(n, h)` carries
(`Numbered`). The writers keep this after every single write, so after a crash at any
point too, but only under two conditions that the code leaves to its callers.

`WriteHeader(H)` overwrites the mapping of `H.Hash()` before it stores `H`. If a header of
that hash is stored under another number, its mapping is lost. So the stored headers must
be filed under their own number and hash (`Filed`), and the headers involved must have
distinct hashes. `DeleteHeader(h, n)` and `DeleteBlock(h, n)` delete the header at `n`
and then the mapping of `h`, whatever number the mapping holds. So they must be given the
number under which `h` is filed: its doc comment says it "removes all block header data
associated with a hash", but given another number it leaves the header stored without
its mapping (`deleteHeader_leaves_header_unmapped`). The raw `WriteHeaderNumber` and
`DeleteHeaderNumber` write the mapping alone, and are left out.

The step lemmas say what each kind of write preserves (`Indexed.put_headerNumber`,
`Indexed.put_header`, `Indexed.delete_header`, `Indexed.delete_headerNumber`, and
`SameIndex` for every other key); `indexed_afterEach_call` assembles them for each writer
and `indexed_trace` for every run.
-/

namespace Rawdb

/-- A key outside the index: neither a header key nor a hash-to-number key. -/
def OffIndex (key : Bytes) : Prop :=
  ∀ number hash, key ≠ headerKey number hash ∧ key ≠ headerNumberKey hash

/-- Every stored header has its mapping: `ReadHeaderNumber` gives its key's number. -/
def Numbered (db : KeyValueStore) : Prop :=
  ∀ number hash, (db.get (headerKey number hash)).isSome → readHeaderNumber db hash = some number

/-- Every value under a header key is the encoding of a header of `headers` with that
key's number and hash. -/
def Filed (codec : HeaderCodec) (headers : Set Header) (db : KeyValueStore) : Prop :=
  ∀ number hash value, db.get (headerKey number hash) = some value →
    ∃ header ∈ headers, value = codec.encodeHeader header ∧ header.number = number ∧
      codec.hash header = hash

/-- The index invariant: headers filed, each with its mapping. -/
structure Indexed (codec : HeaderCodec) (headers : Set Header) (db : KeyValueStore) :
    Prop where
  filed : Filed codec headers db
  numbered : Numbered db

/-- `db'` holds what `db` holds under every header and hash-to-number key. -/
def SameIndex (db db' : KeyValueStore) : Prop :=
  (∀ number hash, db'.get (headerKey number hash) = db.get (headerKey number hash)) ∧
    ∀ hash, db'.get (headerNumberKey hash) = db.get (headerNumberKey hash)

/-! ## Keys -/

theorem offIndex_of_shape {key : Bytes}
    (notHeader : key.length ≠ 41 ∨ key.head? ≠ some 104)
    (notNumber : key.length ≠ 33 ∨ key.head? ≠ some 72) : OffIndex key := by
  intro number hash
  constructor <;> rintro rfl <;> simp_all

/-! The keys of the other writers lie outside the index: by length, or by their first byte
where the length is a header key's. -/

@[simp]
theorem offIndex_headerHashKey (number : UInt64) : OffIndex (headerHashKey number) :=
  offIndex_of_shape (.inl (by simp)) (.inl (by simp))

@[simp]
theorem offIndex_headerTDKey (number : UInt64) (hash : Hash) :
    OffIndex (headerTDKey number hash) :=
  offIndex_of_shape (.inl (by simp)) (.inl (by simp))

@[simp]
theorem offIndex_blockBodyKey (number : UInt64) (hash : Hash) :
    OffIndex (blockBodyKey number hash) :=
  offIndex_of_shape (.inr (by simp)) (.inr (by simp))

@[simp]
theorem offIndex_blockReceiptsKey (number : UInt64) (hash : Hash) :
    OffIndex (blockReceiptsKey number hash) :=
  offIndex_of_shape (.inr (by simp)) (.inr (by simp))

@[simp]
theorem offIndex_uptimeKey (epoch : UInt64) : OffIndex (uptimeKey epoch) :=
  offIndex_of_shape (.inl (by simp [uptimeKey, asciiBytes]))
    (.inl (by simp [uptimeKey, asciiBytes]))

theorem offIndex_fixedKeys :
    ∀ key ∈ [headHeaderKey, headBlockKey, headFastBlockKey, lastPivotKey, fastTrieProgressKey,
      txIndexTailKey, fastTxLookupLimitKey, badBlockKey], OffIndex key := by
  simp only [List.mem_cons, List.mem_nil_iff, or_false]
  rintro key (rfl | rfl | rfl | rfl | rfl | rfl | rfl | rfl) <;>
    exact offIndex_of_shape (.inl (by decide)) (.inl (by decide))

@[simp]
theorem readHeaderNumber_put_self (db : KeyValueStore) (hash : Hash) (number : UInt64) :
    readHeaderNumber (db.put (headerNumberKey hash) (encodeBlockNumber number)) hash =
      some number := by
  simp [readHeaderNumber]

/-- `ReadHeaderNumber` reads one key: a write elsewhere leaves it. -/
theorem readHeaderNumber_apply (write : Write) (db : KeyValueStore) {hash : Hash}
    (other : headerNumberKey hash ≠ write.key) :
    readHeaderNumber (write.apply db) hash = readHeaderNumber db hash := by
  simp only [readHeaderNumber, write.get_apply_of_ne db other]

theorem readHeaderNumber_put (db : KeyValueStore) {key : Bytes} (value : Bytes) {hash : Hash}
    (other : headerNumberKey hash ≠ key) :
    readHeaderNumber (db.put key value) hash = readHeaderNumber db hash :=
  readHeaderNumber_apply (.put key value) db other

theorem readHeaderNumber_delete (db : KeyValueStore) {key : Bytes} {hash : Hash}
    (other : headerNumberKey hash ≠ key) :
    readHeaderNumber (db.delete key) hash = readHeaderNumber db hash :=
  readHeaderNumber_apply (.delete key) db other

/-! ## What one write preserves -/

namespace SameIndex

theorem refl (db : KeyValueStore) : SameIndex db db :=
  ⟨fun _ _ => rfl, fun _ => rfl⟩

theorem trans {db db' db'' : KeyValueStore} (first : SameIndex db db')
    (second : SameIndex db' db'') : SameIndex db db'' :=
  ⟨fun number hash => (second.1 number hash).trans (first.1 number hash),
    fun hash => (second.2 hash).trans (first.2 hash)⟩

theorem of_offIndex (write : Write) (db : KeyValueStore) (off : OffIndex write.key) :
    SameIndex db (write.apply db) :=
  ⟨fun number hash => write.get_apply_of_ne db (off number hash).1.symm,
    fun hash => write.get_apply_of_ne db (off default hash).2.symm⟩

theorem readHeaderNumber_eq {db db' : KeyValueStore} (same : SameIndex db db') (hash : Hash) :
    readHeaderNumber db' hash = readHeaderNumber db hash := by
  simp only [readHeaderNumber, same.2 hash]

theorem indexed {codec : HeaderCodec} {headers : Set Header} {db db' : KeyValueStore}
    (same : SameIndex db db') (indexed : Indexed codec headers db) :
    Indexed codec headers db' :=
  ⟨fun number hash value stored =>
      indexed.filed number hash value (same.1 number hash ▸ stored),
    fun number hash stored => by
      rw [same.readHeaderNumber_eq]
      exact indexed.numbered number hash (same.1 number hash ▸ stored)⟩

end SameIndex

namespace Indexed

variable {codec : HeaderCodec} {headers : Set Header} {db : KeyValueStore}

/-- Deleting a header keeps the index. -/
theorem delete_header (indexed : Indexed codec headers db) (number : UInt64) (hash : Hash) :
    Indexed codec headers (db.delete (headerKey number hash)) := by
  have kept : ∀ number' hash', (db.delete (headerKey number hash)).get (headerKey number' hash') =
      if number' = number ∧ hash' = hash then none else db.get (headerKey number' hash') := by
    simp
  constructor
  · intro number' hash' value stored
    rw [kept] at stored
    split_ifs at stored
    exact indexed.filed number' hash' value stored
  · intro number' hash' stored
    rw [kept] at stored
    split_ifs at stored
    · simp at stored
    · rw [readHeaderNumber_delete db (by simp)]
      exact indexed.numbered number' hash' stored

/-- Mapping `hash` to `number` keeps the index when every header of `hash` is stored
under `number`. -/
theorem put_headerNumber (indexed : Indexed codec headers db) {hash : Hash} {number : UInt64}
    (onlyAt : ∀ number', (db.get (headerKey number' hash)).isSome → number' = number) :
    Indexed codec headers (db.put (headerNumberKey hash) (encodeBlockNumber number)) := by
  constructor
  · intro number' hash' value stored
    simp only [KeyValueStore.get_put, headerKey_ne_headerNumberKey, if_false] at stored
    exact indexed.filed number' hash' value stored
  · intro number' hash' stored
    simp only [KeyValueStore.get_put, headerKey_ne_headerNumberKey, if_false] at stored
    by_cases sameHash : hash' = hash
    · subst sameHash
      rw [readHeaderNumber_put_self, onlyAt number' stored]
    · rw [readHeaderNumber_put db _ (by simpa using sameHash)]
      exact indexed.numbered number' hash' stored

/-- Storing a header of `headers` under its own number and hash keeps the index once its
hash is mapped to its number. -/
theorem put_header (indexed : Indexed codec headers db) {header : Header}
    (involved : header ∈ headers)
    (mapped : readHeaderNumber db (codec.hash header) = some header.number) :
    Indexed codec headers
      (db.put (headerKey header.number (codec.hash header)) (codec.encodeHeader header)) := by
  constructor
  · intro number hash value stored
    simp only [KeyValueStore.get_put, headerKey_inj] at stored
    split_ifs at stored with same
    · obtain ⟨rfl, rfl⟩ := same
      exact ⟨header, involved, (Option.some.inj stored).symm, rfl, rfl⟩
    · exact indexed.filed number hash value stored
  · intro number hash stored
    rw [readHeaderNumber_put db _ (by simp)]
    simp only [KeyValueStore.get_put, headerKey_inj] at stored
    split_ifs at stored with same
    · obtain ⟨rfl, rfl⟩ := same
      exact mapped
    · exact indexed.numbered number hash stored

/-- Deleting the mapping of a hash keeps the index when no header of that hash is stored. -/
theorem delete_headerNumber (indexed : Indexed codec headers db) {hash : Hash}
    (none_stored : ∀ number, db.get (headerKey number hash) = none) :
    Indexed codec headers (db.delete (headerNumberKey hash)) := by
  constructor
  · intro number' hash' value stored
    simp only [KeyValueStore.get_delete, headerKey_ne_headerNumberKey, if_false] at stored
    exact indexed.filed number' hash' value stored
  · intro number' hash' stored
    simp only [KeyValueStore.get_delete, headerKey_ne_headerNumberKey, if_false] at stored
    have otherHash : hash' ≠ hash := by
      rintro rfl
      simp [none_stored] at stored
    rw [readHeaderNumber_delete db (by simpa using otherHash)]
    exact indexed.numbered number' hash' stored

end Indexed

/-! ## What one writer preserves -/

section Writers

variable {codec : HeaderCodec} {headers : Set Header} {db : KeyValueStore}

/-- Writes outside the index leave it as it was at every step. -/
theorem sameIndex_afterEach {writes : List Write} (off : ∀ write ∈ writes, OffIndex write.key)
    (db : KeyValueStore) : ∀ store ∈ db :: afterEach writes db, SameIndex db store := by
  induction writes generalizing db with
  | nil => simp [afterEach, SameIndex.refl]
  | cons write writes ih =>
      have first := SameIndex.of_offIndex write db (off write (List.mem_cons_self _ _))
      have rest := ih (fun write mem => off write (List.mem_cons_of_mem _ mem)) (write.apply db)
      intro store mem
      rcases List.mem_cons.mp mem with rfl | later
      · exact SameIndex.refl store
      · exact first.trans (rest store later)

theorem indexed_afterEach_of_offIndex {writes : List Write}
    (off : ∀ write ∈ writes, OffIndex write.key) (indexed : Indexed codec headers db) :
    ∀ store ∈ afterEach writes db, Indexed codec headers store := fun store mem =>
  (sameIndex_afterEach off db store (List.mem_cons_of_mem _ mem)).indexed indexed

theorem sameIndex_applyWrites {writes : List Write} (off : ∀ write ∈ writes, OffIndex write.key)
    (db : KeyValueStore) : SameIndex db (applyWrites writes db) :=
  sameIndex_afterEach off db _ (applyWrites_mem_afterEach writes db)

theorem indexed_afterEach_append {writes writes' : List Write}
    (first : ∀ store ∈ afterEach writes db, Indexed codec headers store)
    (second : ∀ store ∈ afterEach writes' (applyWrites writes db), Indexed codec headers store) :
    ∀ store ∈ afterEach (writes ++ writes') db, Indexed codec headers store := by
  rw [afterEach_append]
  exact fun store mem => (List.mem_append.mp mem).elim (first store) (second store)

/-- The store writes leave is indexed when every store they pass through is. -/
theorem indexed_applyWrites {writes : List Write} (indexed : Indexed codec headers db)
    (passed : ∀ store ∈ afterEach writes db, Indexed codec headers store) :
    Indexed codec headers (applyWrites writes db) := by
  rcases List.mem_cons.mp (applyWrites_mem_afterEach writes db) with same | later
  · rw [same]
    exact indexed
  · exact passed _ later

/-- Writes outside the index, after writes that keep it, keep it. -/
theorem indexed_afterEach_append_offIndex {writes writes' : List Write}
    (indexed : Indexed codec headers db)
    (first : ∀ store ∈ afterEach writes db, Indexed codec headers store)
    (off : ∀ write ∈ writes', OffIndex write.key) :
    ∀ store ∈ afterEach (writes ++ writes') db, Indexed codec headers store :=
  indexed_afterEach_append first
    (indexed_afterEach_of_offIndex off (indexed_applyWrites indexed first))

/-- `WriteHeader` keeps the index at both of its writes, for a header of `headers` on
which the hash is injective. -/
theorem indexed_afterEach_writeHeader (distinct : Set.InjOn codec.hash headers)
    (indexed : Indexed codec headers db) {header : Header} (involved : header ∈ headers) :
    ∀ store ∈ afterEach (Rawdb.writeHeader codec header) db, Indexed codec headers store := by
  have onlyAt : ∀ number, (db.get (headerKey number (codec.hash header))).isSome →
      number = header.number := fun number stored => by
    obtain ⟨value, stored⟩ := Option.isSome_iff_exists.mp stored
    obtain ⟨other, otherInvolved, -, rfl, sameHash⟩ := indexed.filed _ _ value stored
    rw [distinct otherInvolved involved sameHash]
  have mapped := indexed.put_headerNumber onlyAt
  have stored := mapped.put_header involved (readHeaderNumber_put_self _ _ _)
  simp only [Rawdb.writeHeader, writeHeaderNumber, List.singleton_append, afterEach,
    Write.apply_put, List.mem_cons, List.mem_nil_iff, or_false]
  rintro store (rfl | rfl)
  · exact mapped
  · exact stored

/-- `DeleteHeader(hash, number)` keeps the index at both of its writes when no header of
`hash` is stored under another number. -/
theorem indexed_afterEach_deleteHeader (indexed : Indexed codec headers db) {hash : Hash}
    {number : UInt64} (onlyAt : ∀ other, other ≠ number → db.get (headerKey other hash) = none) :
    ∀ store ∈ afterEach (Rawdb.deleteHeader hash number) db, Indexed codec headers store := by
  have deleted := indexed.delete_header number hash
  have unmapped : Indexed codec headers
      ((db.delete (headerKey number hash)).delete (headerNumberKey hash)) :=
    deleted.delete_headerNumber fun other => by
    by_cases same : other = number <;> simp [same, onlyAt]
  simp only [Rawdb.deleteHeader, deleteHeaderWithoutNumber, List.singleton_append, afterEach,
    Write.apply_delete, List.mem_cons, List.mem_nil_iff, or_false]
  rintro store (rfl | rfl)
  · exact deleted
  · exact unmapped

theorem indexed_afterEach_deleteHeaderWithoutNumber (indexed : Indexed codec headers db)
    (hash : Hash) (number : UInt64) :
    ∀ store ∈ afterEach (deleteHeaderWithoutNumber hash number) db, Indexed codec headers store := by
  simp only [deleteHeaderWithoutNumber, afterEach, Write.apply_delete, List.mem_singleton]
  rintro store rfl
  exact indexed.delete_header number hash

/-- `DeleteBlock` and `DeleteBlockWithoutNumber` keep the index at each of their writes when
their header deletes do: the receipt, body and total-difficulty deletes around them lie
outside the index. -/
theorem indexed_afterEach_deleteBlock {middle : List Write} (hash : Hash) (number : UInt64)
    (indexed : Indexed codec headers db)
    (header : ∀ store ∈ afterEach middle (applyWrites (deleteReceipts hash number) db),
      Indexed codec headers store) :
    ∀ store ∈ afterEach (deleteReceipts hash number ++ middle ++ deleteBody hash number ++
      deleteTd hash number) db, Indexed codec headers store :=
  have receipts := indexed_afterEach_of_offIndex (by simp) indexed
  indexed_afterEach_append_offIndex indexed
    (indexed_afterEach_append_offIndex indexed (indexed_afterEach_append receipts header)
      (by simp))
    (by simp)

end Writers

/-! ## Runs -/

/-- The headers a call stores. -/
def WriterCall.headers : WriterCall → List Header
  | .writeHeader header => [header]
  | .writeBlock block => [block.header]
  | _ => []

/-- The hash and number of the header a call deletes together with its mapping. -/
def WriterCall.deletedHeader : WriterCall → Option (Hash × UInt64)
  | .deleteHeader hash number => some (hash, number)
  | .deleteBlock hash number => some (hash, number)
  | _ => none

/-- The raw index writers `WriteHeaderNumber` and `DeleteHeaderNumber`, which write or
delete a mapping with no header: whether they keep the index is up to their caller. -/
def WriterCall.isRawIndexWriter : WriterCall → Bool
  | .writeHeaderNumber _ _ | .deleteHeaderNumber _ => true
  | _ => false

/-- Every `DeleteHeader(h, n)` and `DeleteBlock(h, n)` of a run is made while no header of
hash `h` is stored under a number other than `n`. -/
def DeletesFiled (setting : WriterSetting) : List WriterCall → KeyValueStore → Prop
  | [], _ => True
  | call :: calls, db =>
      (∀ hash number, call.deletedHeader = some (hash, number) →
        ∀ other, other ≠ number → db.get (headerKey other hash) = none) ∧
      ∀ writes, call.writes setting db = some writes →
        DeletesFiled setting calls (applyWrites writes db)

section Runs

variable (setting : WriterSetting) {headers : Set Header}
  (distinct : Set.InjOn setting.codec.hash headers)
  (offRandomness : ∀ commitment, OffIndex (setting.randomnessLocation commitment))

include distinct offRandomness in
/-- One writer call keeps the index at each of its writes. -/
theorem indexed_afterEach_call {call : WriterCall} {db : KeyValueStore} {writes : List Write}
    (indexed : Indexed setting.codec.toHeaderCodec headers db)
    (involved : ∀ header ∈ call.headers, header ∈ headers)
    (cooked : call.isRawIndexWriter = false)
    (deletes : ∀ hash number, call.deletedHeader = some (hash, number) →
      ∀ other, other ≠ number → db.get (headerKey other hash) = none)
    (issued : call.writes setting db = some writes) :
    ∀ store ∈ afterEach writes db, Indexed setting.codec.toHeaderCodec headers store := by
  have fixed := offIndex_fixedKeys
  cases call <;> simp only [WriterCall.writes, Option.some.injEq] at issued
  case writeHeader header =>
    subst issued
    exact indexed_afterEach_writeHeader distinct indexed
      (involved header (List.mem_singleton_self _))
  case deleteHeader hash number =>
    subst issued
    exact indexed_afterEach_deleteHeader indexed (deletes hash number rfl)
  case writeBlock block =>
    subst issued
    have body : ∀ store ∈ afterEach (Rawdb.writeBody setting.codec (block.hash
        setting.codec.toHeaderCodec) block.header.number block.body) db,
        Indexed setting.codec.toHeaderCodec headers store :=
      indexed_afterEach_of_offIndex (by simp) indexed
    exact indexed_afterEach_append body <| indexed_afterEach_writeHeader distinct
      (indexed_applyWrites indexed body) (involved _ (List.mem_singleton_self _))
  case deleteBlock hash number =>
    subst issued
    have same : SameIndex db (applyWrites (Rawdb.deleteReceipts hash number) db) :=
      sameIndex_applyWrites (by simp) db
    exact indexed_afterEach_deleteBlock hash number indexed <|
      indexed_afterEach_deleteHeader (same.indexed indexed) fun other otherNumber =>
        (same.1 other hash).trans (deletes hash number rfl other otherNumber)
  case deleteBlockWithoutNumber hash number =>
    subst issued
    have same : SameIndex db (applyWrites (Rawdb.deleteReceipts hash number) db) :=
      sameIndex_applyWrites (by simp) db
    exact indexed_afterEach_deleteBlock hash number indexed <|
      indexed_afterEach_deleteHeaderWithoutNumber (same.indexed indexed) hash number
  case writeBadBlock block =>
    exact indexed_afterEach_of_offIndex
      (fun write mem => key_of_mem_writeBadBlock issued write mem ▸ fixed _ (by simp))
      indexed
  case writeRandomCommitmentCache commitment parentHash =>
    subst issued
    exact indexed_afterEach_of_offIndex (by simp [offRandomness]) indexed
  case writeHeaderNumber | deleteHeaderNumber => simp [WriterCall.isRawIndexWriter] at cooked
  all_goals
    subst issued
    exact indexed_afterEach_of_offIndex (by simp [fixed]) indexed

include distinct offRandomness in
/-- A run keeps the index at every write when its calls store headers of `headers`, call
no raw index writer, and delete headers by the numbers their hashes are filed under. -/
theorem indexed_trace (calls : List WriterCall) {db : KeyValueStore}
    (indexed : Indexed setting.codec.toHeaderCodec headers db)
    (involved : ∀ call ∈ calls, ∀ header ∈ call.headers, header ∈ headers)
    (cooked : ∀ call ∈ calls, call.isRawIndexWriter = false)
    (deletes : DeletesFiled setting calls db) :
    ∀ store ∈ WriterCall.trace setting calls db, Indexed setting.codec.toHeaderCodec headers store := by
  induction calls generalizing db with
  | nil => simp [WriterCall.trace]
  | cons call calls ih =>
      obtain ⟨deletesNow, deletesLater⟩ := deletes
      simp only [WriterCall.trace]
      cases issued : call.writes setting db with
      | none => simp
      | some writes =>
          have passed := indexed_afterEach_call setting distinct offRandomness indexed
            (involved call (List.mem_cons_self _ _)) (cooked call (List.mem_cons_self _ _))
            deletesNow issued
          intro store mem
          rcases List.mem_append.mp mem with now | later
          · exact passed store now
          · exact ih (indexed_applyWrites indexed passed)
              (fun call mem => involved call (List.mem_cons_of_mem _ mem))
              (fun call mem => cooked call (List.mem_cons_of_mem _ mem))
              (deletesLater writes issued) store later

end Runs

/-- The headers of a run: those stored when it starts and those its calls store. -/
def involvedHeaders (codec : HeaderCodec) (db : KeyValueStore) (calls : List WriterCall) :
    Set Header :=
  {header | (∃ number hash, db.get (headerKey number hash) = some (codec.encodeHeader header)) ∨
    ∃ call ∈ calls, header ∈ call.headers}

/-- With the header hash injective on the headers of a run and the randomness-cache keys
outside the index, a run from a store whose headers are filed under their own number and
hash and have their mappings, which calls no raw index writer and whose deletes name the
numbers their hashes are filed under, keeps every stored header filed under its own number
and hash, with its mapping, after each of its writes. -/
theorem indexed_after_every_write (setting : WriterSetting) (db : KeyValueStore)
    (calls : List WriterCall)
    (distinct : Set.InjOn setting.codec.hash (involvedHeaders setting.codec.toHeaderCodec db calls))
    (offRandomness : ∀ commitment, OffIndex (setting.randomnessLocation commitment))
    (filed : Filed setting.codec.toHeaderCodec Set.univ db) (numbered : Numbered db)
    (cooked : ∀ call ∈ calls, call.isRawIndexWriter = false)
    (deletes : DeletesFiled setting calls db) :
    ∀ store ∈ WriterCall.trace setting calls db,
      Indexed setting.codec.toHeaderCodec (involvedHeaders setting.codec.toHeaderCodec db calls)
        store := by
  have filedInvolved : Filed setting.codec.toHeaderCodec
      (involvedHeaders setting.codec.toHeaderCodec db calls) db :=
    fun number hash value stored => by
      obtain ⟨header, -, rfl, sameNumber, sameHash⟩ := filed number hash value stored
      exact ⟨header, .inl ⟨number, hash, stored⟩, rfl, sameNumber, sameHash⟩
  exact indexed_trace setting distinct offRandomness calls ⟨filedInvolved, numbered⟩
    (fun call mem header written => .inr ⟨call, mem, written⟩) cooked deletes

/-- A header at `number` with an empty parent hash and no other fields. -/
def indexSampleHeader (number : UInt64) : Header :=
  ⟨number, Hash.zero, []⟩

/-- `sampleCodec`, `List.mergeSort` for `sort.Sort`, and the commitment's own 32 bytes as
the randomness-cache key. -/
def sampleSetting : WriterSetting :=
  ⟨sampleCodec.toCodec, mergeSortReverse.sort, Hash.bytes⟩

@[simp]
theorem sampleSetting_codec : sampleSetting.codec = sampleCodec.toCodec := rfl

theorem offIndex_sampleRandomness (commitment : Hash) :
    OffIndex (sampleSetting.randomnessLocation commitment) :=
  offIndex_of_shape (.inl (by simp [sampleSetting, commitment.length_bytes]))
    (.inl (by simp [sampleSetting, commitment.length_bytes]))

theorem indexed_empty (codec : HeaderCodec) (headers : Set Header) :
    Indexed codec headers KeyValueStore.empty :=
  ⟨fun _ _ _ stored => by simp at stored, fun _ _ stored => by simp at stored⟩

/-- Writing a header at 5, then deleting it with its number, from the empty store. -/
theorem indexed_after_every_write_sample :
    let calls := [WriterCall.writeHeader (indexSampleHeader 5),
      .deleteHeader (sampleHash (indexSampleHeader 5)) 5]
    ∀ store ∈ WriterCall.trace sampleSetting calls KeyValueStore.empty,
      Indexed sampleCodec.toHeaderCodec
        (involvedHeaders sampleCodec.toHeaderCodec KeyValueStore.empty calls) store :=
  indexed_after_every_write sampleSetting KeyValueStore.empty _
    (by
      refine (Set.injOn_singleton _ (indexSampleHeader 5)).mono ?_
      rintro header (⟨_, _, stored⟩ | ⟨call, mem, written⟩)
      · simp at stored
      · simp at mem
        rcases mem with rfl | rfl <;> simp_all [WriterCall.headers])
    offIndex_sampleRandomness (indexed_empty _ _).filed
    (indexed_empty sampleCodec.toHeaderCodec ∅).numbered
    (by simp [WriterCall.isRawIndexWriter])
    (by simp [DeletesFiled, WriterCall.deletedHeader, WriterCall.writes, indexSampleHeader,
      sampleSetting])

end Rawdb
