import Rawdb.Types

/-!
# A concrete codec

The encodings and the header hash are parameters of the model (`Rawdb.Types`). This file
gives one instance of them, so that the laws the theorems assume can be met and the
samples of later files can be run.

It is not `rlp`, only a format with the same round trip. A list is its items, each behind
a marker byte `1`, closed by a `0`; a byte string is the list of its bytes; a record is its
fields one after another. Each `Format` pairs an encoder with the decoder that reads a
value off the front of any input and returns the rest, so formats compose.
-/

namespace Rawdb

/-- An encoder and the decoder that reads its output back off the front of any input. -/
structure Format (α : Type) where
  encode : α → Bytes
  decode : Bytes → Option (α × Bytes)
  decode_encode : ∀ value rest, decode (encode value ++ rest) = some (value, rest)

namespace Format

variable {α β : Type}

/-- One byte, as itself. -/
def byte : Format (Fin 256) where
  encode byte := [byte]
  decode := fun
    | byte :: rest => some (byte, rest)
    | [] => none
  decode_encode _ _ := rfl

/-- Values stored through another format, with a partial inverse for reading back. -/
def map (format : Format β) (into : α → β) (back : β → Option α)
    (back_into : ∀ value, back (into value) = some value) : Format α where
  encode value := format.encode (into value)
  decode input := (format.decode input).bind fun read => (back read.1).map fun value => (value, read.2)
  decode_encode value rest := by simp [format.decode_encode, back_into]

/-- Two values, the first then the second. -/
def pair (first : Format α) (second : Format β) : Format (α × β) where
  encode value := first.encode value.1 ++ second.encode value.2
  decode input := (first.decode input).bind fun read =>
    (second.decode read.2).map fun read' => ((read.1, read'.1), read'.2)
  decode_encode value rest := by simp [List.append_assoc, first.decode_encode, second.decode_encode]

/-- `values`, each behind a marker `1`, closed by `0`. -/
def encodeList (encode : α → Bytes) : List α → Bytes
  | [] => [0]
  | value :: values => 1 :: (encode value ++ encodeList encode values)

/-- Reads a list of fewer than `fuel` items. -/
def decodeList (decode : Bytes → Option (α × Bytes)) : Nat → Bytes → Option (List α × Bytes)
  | 0, _ => none
  | _ + 1, [] => none
  | fuel + 1, marker :: rest =>
      if marker = 0 then some ([], rest)
      else (decode rest).bind fun read =>
        (decodeList decode fuel read.2).map fun read' => (read.1 :: read'.1, read'.2)

theorem length_lt_length_encodeList (encode : α → Bytes) (values : List α) :
    values.length < (encodeList encode values).length := by
  induction values with
  | nil => simp [encodeList]
  | cons value values ih => simp only [encodeList, List.length_cons, List.length_append]; omega

theorem decodeList_encodeList (format : Format α) (values : List α) (rest : Bytes) {fuel : Nat}
    (enough : values.length < fuel) :
    decodeList format.decode fuel (encodeList format.encode values ++ rest) =
      some (values, rest) := by
  induction values generalizing fuel with
  | nil =>
      obtain ⟨fuel, rfl⟩ := Nat.exists_eq_add_one.mpr enough
      rfl
  | cons value values ih =>
      obtain ⟨fuel, rfl⟩ := Nat.exists_eq_add_one.mpr (Nat.zero_lt_of_lt enough)
      rw [encodeList, List.cons_append, decodeList, if_neg (by decide), List.append_assoc,
        format.decode_encode, Option.some_bind, ih (by simpa using enough)]
      rfl

/-- A list of values in `format`. -/
def list (format : Format α) : Format (List α) where
  encode := encodeList format.encode
  decode input := decodeList format.decode input.length input
  decode_encode values rest := decodeList_encodeList format values rest (by
    simpa using Nat.lt_add_right _ (length_lt_length_encodeList format.encode values))

/-- The whole of `input` as one value, with nothing left over. -/
def decodeAll (format : Format α) (input : Bytes) : Option α :=
  match format.decode input with
  | some (value, []) => some value
  | _ => none

@[simp]
theorem decodeAll_encode (format : Format α) (value : α) :
    format.decodeAll (format.encode value) = some value := by
  have read := format.decode_encode value []
  rw [List.append_nil] at read
  simp [decodeAll, read]

theorem encode_list_ne_nil (format : Format α) (values : List α) :
    format.list.encode values ≠ [] := by
  cases values <;> simp [list, encodeList]

/-- A byte string. -/
def bytes : Format Bytes := list byte

/-- A block number, in its 8-byte big-endian encoding. -/
def number : Format UInt64 :=
  bytes.map encodeBlockNumber (some ∘ bigEndianUint64) (by simp)

/-- A hash, as its 32 bytes. -/
def hash : Format Hash :=
  bytes.map Hash.bytes (some ∘ bytesToHash) (by simp)

/-- A header: number, parent hash and the other fields. -/
def header : Format Header :=
  (number.pair (hash.pair bytes)).map (fun header => (header.number, header.parentHash, header.fields))
    (fun fields => some ⟨fields.1, fields.2.1, fields.2.2⟩) fun _ => rfl

/-- A body: its transactions, by hash, and its consensus extras. -/
def body : Format Body :=
  ((list (hash.map Transaction.hash (fun hash => some ⟨hash⟩) fun _ => rfl)).pair
      (bytes.pair bytes)).map
    (fun body => (body.transactions, body.randomness, body.epochSnarkData))
    (fun fields => some ⟨fields.1, fields.2.1, fields.2.2⟩) fun _ => rfl

/-- A bad-block entry: its header then its body. -/
def badBlock : Format BadBlock :=
  (header.pair body).map (fun bad => (bad.header, bad.body))
    (fun fields => some ⟨fields.1, fields.2⟩) fun _ => rfl

/-- A log in its storage form: address, topics and data. -/
def storedLog : Format (Bytes × List Hash × Bytes) :=
  bytes.pair ((list hash).pair bytes)

/-- A receipt in its storage form: status, cumulative gas and logs. -/
def storedReceipt : Format (Bytes × UInt64 × List (Bytes × List Hash × Bytes)) :=
  bytes.pair (number.pair (list storedLog))

/-- An uptime record: the tallies, then the last block they cover. -/
def uptime : Format Uptime :=
  ((list (number.pair number)).pair number).map (fun uptime => (uptime.entries, uptime.latestBlock))
    (fun fields => some ⟨fields.1, fields.2⟩) fun _ => rfl

end Format

/-- The hash `sampleCodec` gives a header: the last 32 bytes of its encoding. -/
def sampleHash (header : Header) : Hash :=
  bytesToHash (Format.header.encode header)

/-- A receipt's storage form. -/
def Receipt.toStored (receipt : Receipt) : Bytes × UInt64 × List (Bytes × List Hash × Bytes) :=
  (receipt.postStateOrStatus, receipt.cumulativeGasUsed,
    receipt.logs.map fun log => (log.address, log.topics, log.data))

/-- A stored log's consensus fields, with the derived fields zero as `rlp` leaves them. -/
def logOfStored (stored : Bytes × List Hash × Bytes) : Log :=
  ⟨stored.1, stored.2.1, stored.2.2, 0, Hash.zero, 0, Hash.zero, 0, false⟩

/-- The encodings of `Rawdb.Format`, with `sampleHash`. -/
def sampleCodec : LawfulCodec where
  hash := sampleHash
  encodeHeader := Format.header.encode
  decodeHeader := Format.header.decodeAll
  decodeHeader_encodeHeader := Format.header.decodeAll_encode
  encodeBody := Format.body.encode
  decodeBody := Format.body.decodeAll
  encodeTd td := bigEndian 32 td
  encodeReceipts receipts := (Format.list Format.storedReceipt).encode (receipts.map Receipt.toStored)
  decodeReceiptLogs blob := ((Format.list Format.storedReceipt).decodeAll blob).map
    fun receipts => receipts.map fun receipt => receipt.2.2.map logOfStored
  encodeBadBlocks := (Format.list Format.badBlock).encode
  decodeBadBlocks := (Format.list Format.badBlock).decodeAll
  encodePivot := encodeBlockNumber
  encodeUptime := Format.uptime.encode
  decodeBadBlocks_encodeBadBlocks := (Format.list Format.badBlock).decodeAll_encode
  encodeBadBlocks_ne_nil := Format.encode_list_ne_nil Format.badBlock

@[simp]
theorem sampleCodec_hash : sampleCodec.hash = sampleHash := rfl

@[simp]
theorem sampleCodec_encodeHeader : sampleCodec.encodeHeader = Format.header.encode := rfl

@[simp]
theorem sampleCodec_decodeHeader : sampleCodec.decodeHeader = Format.header.decodeAll := rfl

@[simp]
theorem Format.encode_header_ne_nil (header : Header) : Format.header.encode header ≠ [] :=
  List.append_ne_nil_of_left_ne_nil (Format.encode_list_ne_nil _ _) _

end Rawdb
