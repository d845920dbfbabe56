import Rawdb.BadBlocks

/-!
# The live-store writers

Each writer of `accessors_chain.go` is a short, fixed sequence of `Put` and `Delete`
calls on an `ethdb.KeyValueWriter`, none of them atomic with the next, so a crash may stop
a writer after any of its writes. A writer is modelled as the list of writes it issues,
and a run of calls as the stores it passes through, one after each write (`trace`). Only
`WriteBadBlock` reads before it writes; it issues at most one `Put`, or exits through
`log.Crit` when the old list does not decode, which ends the run.

`WriteHeader` writes the hash-to-number mapping before the header, `DeleteHeader` deletes
the header before the mapping, and `DeleteBlockWithoutNumber` keeps the mapping. The keys
of the randomness cache come from `istanbul.RandomnessCommitmentDBLocation`, which is not
in this repository, so they are a parameter of the writers' `WriterSetting`.
-/

namespace Rawdb

/-! ## The writers -/

/-- `WriteCanonicalHash`. -/
def writeCanonicalHash (hash : Hash) (number : UInt64) : List Write :=
  [.put (headerHashKey number) hash.bytes]

/-- `DeleteCanonicalHash`. -/
def deleteCanonicalHash (number : UInt64) : List Write :=
  [.delete (headerHashKey number)]

/-- `ReadHeaderNumber`: the number an 8-byte mapping holds, else nothing. -/
def readHeaderNumber (db : KeyValueStore) (hash : Hash) : Option UInt64 :=
  let data := (db.get (headerNumberKey hash)).getD []
  if data.length ≠ 8 then none else some (bigEndianUint64 data)

/-- `WriteHeaderNumber`. -/
def writeHeaderNumber (hash : Hash) (number : UInt64) : List Write :=
  [.put (headerNumberKey hash) (encodeBlockNumber number)]

/-- `DeleteHeaderNumber`. -/
def deleteHeaderNumber (hash : Hash) : List Write :=
  [.delete (headerNumberKey hash)]

/-- `WriteHeadHeaderHash`. -/
def writeHeadHeaderHash (hash : Hash) : List Write :=
  [.put headHeaderKey hash.bytes]

/-- `WriteHeadBlockHash`. -/
def writeHeadBlockHash (hash : Hash) : List Write :=
  [.put headBlockKey hash.bytes]

/-- `WriteHeadFastBlockHash`. -/
def writeHeadFastBlockHash (hash : Hash) : List Write :=
  [.put headFastBlockKey hash.bytes]

/-- `WriteLastPivotNumber`. -/
def writeLastPivotNumber (codec : Codec) (pivot : UInt64) : List Write :=
  [.put lastPivotKey (codec.encodePivot pivot)]

/-- `WriteFastTrieProgress`. -/
def writeFastTrieProgress (count : UInt64) : List Write :=
  [.put fastTrieProgressKey (bigIntBytes count)]

/-- `WriteTxIndexTail`. -/
def writeTxIndexTail (number : UInt64) : List Write :=
  [.put txIndexTailKey (encodeBlockNumber number)]

/-- `WriteFastTxLookupLimit`. -/
def writeFastTxLookupLimit (number : UInt64) : List Write :=
  [.put fastTxLookupLimitKey (encodeBlockNumber number)]

/-- `WriteHeader`: the hash-to-number mapping, then the encoded header. -/
def writeHeader (codec : HeaderCodec) (header : Header) : List Write :=
  writeHeaderNumber (codec.hash header) header.number ++
    [.put (headerKey header.number (codec.hash header)) (codec.encodeHeader header)]

/-- `deleteHeaderWithoutNumber`. -/
def deleteHeaderWithoutNumber (hash : Hash) (number : UInt64) : List Write :=
  [.delete (headerKey number hash)]

/-- `DeleteHeader`: the header, then the hash-to-number mapping. -/
def deleteHeader (hash : Hash) (number : UInt64) : List Write :=
  deleteHeaderWithoutNumber hash number ++ [.delete (headerNumberKey hash)]

/-- `WriteBodyRLP`. -/
def writeBodyRLP (hash : Hash) (number : UInt64) (rlp : Bytes) : List Write :=
  [.put (blockBodyKey number hash) rlp]

/-- `WriteBody`. -/
def writeBody (codec : Codec) (hash : Hash) (number : UInt64) (body : Body) : List Write :=
  writeBodyRLP hash number (codec.encodeBody body)

/-- `DeleteBody`. -/
def deleteBody (hash : Hash) (number : UInt64) : List Write :=
  [.delete (blockBodyKey number hash)]

/-- `WriteTd`. -/
def writeTd (codec : Codec) (hash : Hash) (number : UInt64) (td : Nat) : List Write :=
  [.put (headerTDKey number hash) (codec.encodeTd td)]

/-- `DeleteTd`. -/
def deleteTd (hash : Hash) (number : UInt64) : List Write :=
  [.delete (headerTDKey number hash)]

/-- `WriteReceipts`. -/
def writeReceipts (codec : Codec) (hash : Hash) (number : UInt64) (receipts : List Receipt) :
    List Write :=
  [.put (blockReceiptsKey number hash) (codec.encodeReceipts receipts)]

/-- `DeleteReceipts`. -/
def deleteReceipts (hash : Hash) (number : UInt64) : List Write :=
  [.delete (blockReceiptsKey number hash)]

/-- `WriteBlock`: the body, then the header. -/
def writeBlock (codec : Codec) (block : Block) : List Write :=
  writeBody codec (block.hash codec.toHeaderCodec) block.header.number block.body ++
    writeHeader codec.toHeaderCodec block.header

/-- `DeleteBlock`. -/
def deleteBlock (hash : Hash) (number : UInt64) : List Write :=
  deleteReceipts hash number ++ deleteHeader hash number ++ deleteBody hash number ++
    deleteTd hash number

/-- `DeleteBlockWithoutNumber`. -/
def deleteBlockWithoutNumber (hash : Hash) (number : UInt64) : List Write :=
  deleteReceipts hash number ++ deleteHeaderWithoutNumber hash number ++
    deleteBody hash number ++ deleteTd hash number

/-- `WriteRandomCommitmentCache`, under the key `location` gives the commitment. -/
def writeRandomCommitmentCache (location : Hash → Bytes) (commitment parentHash : Hash) :
    List Write :=
  [.put (location commitment) parentHash.bytes]

/-- `WriteAccumulatedEpochUptime`. -/
def writeAccumulatedEpochUptime (codec : Codec) (epoch : UInt64) (uptime : Uptime) :
    List Write :=
  [.put (uptimeKey epoch) (codec.encodeUptime uptime)]

/-! Every writer but `WriteBadBlock` unfolds to the writes it issues: this simp set is the
one statement of what each call writes, and the lemmas on how a call changes a view of the
store read the writes through it. -/

attribute [simp] writeCanonicalHash deleteCanonicalHash writeHeaderNumber deleteHeaderNumber
  writeHeadHeaderHash writeHeadBlockHash writeHeadFastBlockHash writeLastPivotNumber
  writeFastTrieProgress writeTxIndexTail writeFastTxLookupLimit writeHeader
  deleteHeaderWithoutNumber deleteHeader writeBodyRLP writeBody deleteBody writeTd deleteTd
  writeReceipts deleteReceipts writeBlock deleteBlock deleteBlockWithoutNumber deleteBadBlocks
  writeRandomCommitmentCache writeAccumulatedEpochUptime

/-! ## Runs of writer calls -/

/-- What the writers use besides the store: the encodings, `sort.Sort` on bad-block lists,
and `istanbul.RandomnessCommitmentDBLocation`. -/
structure WriterSetting where
  codec : Codec
  sortReverse : List BadBlock → List BadBlock
  randomnessLocation : Hash → Bytes

/-- The stores `writes` leave, one after each write. -/
def afterEach : List Write → KeyValueStore → List KeyValueStore
  | [], _ => []
  | write :: writes, db => write.apply db :: afterEach writes (write.apply db)

theorem afterEach_append (writes writes' : List Write) (db : KeyValueStore) :
    afterEach (writes ++ writes') db =
      afterEach writes db ++ afterEach writes' (applyWrites writes db) := by
  induction writes generalizing db with
  | nil => rfl
  | cons write writes ih => simp [afterEach, ih]

/-- The store the writes leave is the start or one the writes pass through. -/
theorem applyWrites_mem_afterEach (writes : List Write) (db : KeyValueStore) :
    applyWrites writes db ∈ db :: afterEach writes db := by
  induction writes generalizing db with
  | nil => exact List.mem_cons_self _ _
  | cons write writes ih => exact List.mem_cons_of_mem _ (ih (write.apply db))

/-- A call to one of the live-store writers. -/
inductive WriterCall where
  | writeCanonicalHash (hash : Hash) (number : UInt64)
  | deleteCanonicalHash (number : UInt64)
  | writeHeaderNumber (hash : Hash) (number : UInt64)
  | deleteHeaderNumber (hash : Hash)
  | writeHeadHeaderHash (hash : Hash)
  | writeHeadBlockHash (hash : Hash)
  | writeHeadFastBlockHash (hash : Hash)
  | writeLastPivotNumber (pivot : UInt64)
  | writeFastTrieProgress (count : UInt64)
  | writeTxIndexTail (number : UInt64)
  | writeFastTxLookupLimit (number : UInt64)
  | writeHeader (header : Header)
  | deleteHeader (hash : Hash) (number : UInt64)
  | writeBodyRLP (hash : Hash) (number : UInt64) (rlp : Bytes)
  | writeBody (hash : Hash) (number : UInt64) (body : Body)
  | deleteBody (hash : Hash) (number : UInt64)
  | writeTd (hash : Hash) (number : UInt64) (td : Nat)
  | deleteTd (hash : Hash) (number : UInt64)
  | writeReceipts (hash : Hash) (number : UInt64) (receipts : List Receipt)
  | deleteReceipts (hash : Hash) (number : UInt64)
  | writeBlock (block : Block)
  | deleteBlock (hash : Hash) (number : UInt64)
  | deleteBlockWithoutNumber (hash : Hash) (number : UInt64)
  | writeBadBlock (block : Block)
  | deleteBadBlocks
  | writeRandomCommitmentCache (commitment parentHash : Hash)
  | writeAccumulatedEpochUptime (epoch : UInt64) (uptime : Uptime)

namespace WriterCall

variable (setting : WriterSetting)

/-- The writes a call issues on `db`; `none` where it exits through `log.Crit`. -/
def writes : WriterCall → KeyValueStore → Option (List Write)
  | .writeCanonicalHash hash number, _ => some (Rawdb.writeCanonicalHash hash number)
  | .deleteCanonicalHash number, _ => some (Rawdb.deleteCanonicalHash number)
  | .writeHeaderNumber hash number, _ => some (Rawdb.writeHeaderNumber hash number)
  | .deleteHeaderNumber hash, _ => some (Rawdb.deleteHeaderNumber hash)
  | .writeHeadHeaderHash hash, _ => some (Rawdb.writeHeadHeaderHash hash)
  | .writeHeadBlockHash hash, _ => some (Rawdb.writeHeadBlockHash hash)
  | .writeHeadFastBlockHash hash, _ => some (Rawdb.writeHeadFastBlockHash hash)
  | .writeLastPivotNumber pivot, _ => some (Rawdb.writeLastPivotNumber setting.codec pivot)
  | .writeFastTrieProgress count, _ => some (Rawdb.writeFastTrieProgress count)
  | .writeTxIndexTail number, _ => some (Rawdb.writeTxIndexTail number)
  | .writeFastTxLookupLimit number, _ => some (Rawdb.writeFastTxLookupLimit number)
  | .writeHeader header, _ => some (Rawdb.writeHeader setting.codec.toHeaderCodec header)
  | .deleteHeader hash number, _ => some (Rawdb.deleteHeader hash number)
  | .writeBodyRLP hash number rlp, _ => some (Rawdb.writeBodyRLP hash number rlp)
  | .writeBody hash number body, _ => some (Rawdb.writeBody setting.codec hash number body)
  | .deleteBody hash number, _ => some (Rawdb.deleteBody hash number)
  | .writeTd hash number td, _ => some (Rawdb.writeTd setting.codec hash number td)
  | .deleteTd hash number, _ => some (Rawdb.deleteTd hash number)
  | .writeReceipts hash number receipts, _ =>
      some (Rawdb.writeReceipts setting.codec hash number receipts)
  | .deleteReceipts hash number, _ => some (Rawdb.deleteReceipts hash number)
  | .writeBlock block, _ => some (Rawdb.writeBlock setting.codec block)
  | .deleteBlock hash number, _ => some (Rawdb.deleteBlock hash number)
  | .deleteBlockWithoutNumber hash number, _ => some (Rawdb.deleteBlockWithoutNumber hash number)
  | .writeBadBlock block, db => Rawdb.writeBadBlock setting.codec setting.sortReverse block db
  | .deleteBadBlocks, _ => some Rawdb.deleteBadBlocks
  | .writeRandomCommitmentCache commitment parentHash, _ =>
      some (Rawdb.writeRandomCommitmentCache setting.randomnessLocation commitment parentHash)
  | .writeAccumulatedEpochUptime epoch uptime, _ =>
      some (Rawdb.writeAccumulatedEpochUptime setting.codec epoch uptime)

/-- The stores a run of calls passes through, one after each write; a call that exits
ends the run. -/
def trace : List WriterCall → KeyValueStore → List KeyValueStore
  | [], _ => []
  | call :: calls, db =>
      match call.writes setting db with
      | none => []
      | some writes => afterEach writes db ++ trace calls (applyWrites writes db)

end WriterCall

end Rawdb
