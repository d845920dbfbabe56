import Rawdb.Bytes

/-!
# Chain values and their encodings

The values this layer stores are opaque to it except for a handful of fields: a
header's number and parent hash, a body's transactions, and the fields of a log that
are derived on read. The types below keep those fields and lump the rest together.

The layer never inspects an encoding either. It hands values to `rlp` and hashes
headers with `Header.Hash()`, both outside this repository, so they are parameters:
`HeaderCodec` carries the header hash and the header encoding with the one law the
readers rely on, that decoding an encoded header gives it back, and `Codec` adds the
encoders and decoders of the other stored values.

`Outcome` records how a call that can panic ends: returning a value, or panicking.
-/

namespace Rawdb

/-- How a call ends: returning `value`, or panicking. -/
inductive Outcome (α : Type) where
  | returns (value : α)
  | panics
deriving DecidableEq

/-- `types.Header`: `Number.Uint64()`, `ParentHash` and the fields this layer does not
read. -/
structure Header where
  number : UInt64
  parentHash : Hash
  fields : Bytes
deriving DecidableEq

/-- `types.Transaction`, of which this layer reads only `Hash()`. -/
structure Transaction where
  hash : Hash
deriving DecidableEq

/-- `types.Body`: the transactions and the consensus extras carried with them. -/
structure Body where
  transactions : List Transaction
  randomness : Bytes
  epochSnarkData : Bytes
deriving DecidableEq

/-- `types.Block`: header, body and the total difficulty it carries. -/
structure Block where
  header : Header
  body : Body
  totalDifficulty : Nat
deriving DecidableEq

/-- `types.Log`: the consensus fields, then the fields derived from the block on read.
`TxIndex` and `Index` are Go `uint`s, which wrap at 2^64; they count the receipts and the
logs of one block, which never come near that, so they are `Nat` here. -/
structure Log where
  address : Bytes
  topics : List Hash
  data : Bytes
  blockNumber : UInt64
  txHash : Hash
  txIndex : Nat
  blockHash : Hash
  index : Nat
  removed : Bool
deriving DecidableEq

/-- `types.Receipt` in its storage form (`storedReceiptRLP`). -/
structure Receipt where
  postStateOrStatus : Bytes
  cumulativeGasUsed : UInt64
  logs : List Log
deriving DecidableEq

/-- `uptime.Uptime`: the per-validator tallies and the last block they cover. -/
structure Uptime where
  entries : List (UInt64 × UInt64)
  latestBlock : UInt64
deriving DecidableEq

/-- `badBlock`: the header and body of a block that failed validation. -/
structure BadBlock where
  header : Header
  body : Body
deriving DecidableEq

/-- The header hash and the header encoding; decoding an encoded header returns it. -/
structure HeaderCodec where
  hash : Header → Hash
  encodeHeader : Header → Bytes
  decodeHeader : Bytes → Option Header
  decodeHeader_encodeHeader : ∀ header, decodeHeader (encodeHeader header) = some header

theorem HeaderCodec.encodeHeader_injective (codec : HeaderCodec) :
    Function.Injective codec.encodeHeader := fun header header' same =>
  Option.some.inj ((codec.decodeHeader_encodeHeader header).symm.trans
    (same ▸ codec.decodeHeader_encodeHeader header'))

/-- The encodings of every value the writers of this file store. -/
structure Codec extends HeaderCodec where
  encodeBody : Body → Bytes
  decodeBody : Bytes → Option Body
  encodeTd : Nat → Bytes
  encodeReceipts : List Receipt → Bytes
  decodeReceiptLogs : Bytes → Option (List (List Log))
  encodeBadBlocks : List BadBlock → Bytes
  decodeBadBlocks : Bytes → Option (List BadBlock)
  encodePivot : UInt64 → Bytes
  encodeUptime : Uptime → Bytes

/-- A codec whose bad-block list encoding round-trips and, being `rlp`, is never empty. -/
structure LawfulCodec extends Codec where
  decodeBadBlocks_encodeBadBlocks : ∀ blocks, decodeBadBlocks (encodeBadBlocks blocks) = some blocks
  encodeBadBlocks_ne_nil : ∀ blocks, encodeBadBlocks blocks ≠ []

/-- `block.Hash()`, the hash of the block's header. -/
def Block.hash (codec : HeaderCodec) (block : Block) : Hash :=
  codec.hash block.header

end Rawdb
