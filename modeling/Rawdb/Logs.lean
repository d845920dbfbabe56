import Rawdb.ReadPath

/-!
# Deriving log fields

Stored receipts keep only the consensus fields of their logs. `ReadLogs` decodes them
and `deriveLogFields` fills in the rest from the block: its number and hash, the hash and
index of the transaction that emitted each log, and the log's position among all logs of
the block. A block may carry one receipt more than it has transactions, the finalization
receipt, whose logs take the block hash as their transaction hash.

`deriveLogFields` works in place on the logs its receipts point to, so it is modelled as
a function of the logs before the call to the logs after it, together with how it ends
(`Outcome`): returning its error value, or panicking on an index out of range. The log
indices are `uint` counters of logs held in memory; they stay below `2^63` and are
natural numbers here.

The loops are first put in closed form (`deriveFrom`), which is then shown to derive its
receipts as `Derived` describes. `deriveLogFields_derives` collects the results: a count
mismatch is the only error and changes nothing, no index goes out of range, and otherwise
every log gets exactly the fields `Derived` describes; `ReadLogs` returns `nil` or such a
list.
-/

namespace Rawdb

open Probe

/-- A log after the inner loop's five assignments. -/
def Log.derive (log : Log) (number : UInt64) (hash txHash : Hash) (txIndex index : Nat) :
    Log :=
  { log with blockNumber := number, blockHash := hash, txHash := txHash, txIndex := txIndex,
             index := index }

/-- The inner loop over the logs of receipt `txIndex`, numbering them from `logIndex`. -/
def deriveReceiptLogs (number : UInt64) (hash txHash : Hash) (txIndex : Nat) :
    Nat → List Log → List Log
  | _, [] => []
  | logIndex, log :: logs =>
      log.derive number hash txHash txIndex logIndex ::
        deriveReceiptLogs number hash txHash txIndex (logIndex + 1) logs

/-- The loop over the transactions from index `i`: receipt `i` takes the hash of
transaction `i`. The receipts after it, and the next log index or `none` where
`receipts[i]` is out of range. -/
def deriveTransactions (hash : Hash) (number : UInt64) :
    List Transaction → Nat → Nat → List (List Log) → List (List Log) × Option Nat
  | [], _, logIndex, receipts => (receipts, some logIndex)
  | tx :: txs, i, logIndex, receipts =>
      match receipts[i]? with
      | none => (receipts, none)
      | some logs =>
          deriveTransactions hash number txs (i + 1) (logIndex + logs.length)
            (receipts.set i (deriveReceiptLogs number hash tx.hash i logIndex logs))

/-- The counts `deriveLogFields` accepts: one receipt per transaction, or one more. -/
def CountsMatch (receipts : List (List Log)) (txs : List Transaction) : Prop :=
  txs.length = receipts.length ∨ txs.length + 1 = receipts.length

instance (receipts : List (List Log)) (txs : List Transaction) :
    Decidable (CountsMatch receipts txs) :=
  inferInstanceAs (Decidable (_ ∨ _))

/-- `deriveLogFields`: the logs after the call, and its error (`none` for `nil`) or a
panic. -/
def deriveLogFields (receipts : List (List Log)) (hash : Hash) (number : UInt64)
    (txs : List Transaction) : List (List Log) × Outcome (Option String) :=
  if ¬CountsMatch receipts txs then
    (receipts, .returns (some "transaction and receipt count mismatch"))
  else
    match deriveTransactions hash number txs 0 0 receipts with
    | (receipts, none) => (receipts, .panics)
    | (receipts, some logIndex) =>
        if txs.length + 1 = receipts.length then
          match receipts[txs.length]? with
          | none => (receipts, .panics)
          | some logs =>
              (receipts.set txs.length (deriveReceiptLogs number hash hash txs.length logIndex logs),
                .returns none)
        else (receipts, .returns none)

/-- `ReadBody`: the decoded body, `none` when absent or undecodable. -/
def readBody (codec : Codec) (hash : Hash) (number : UInt64) : Probe (Option Body) := do
  let data ← readBodyRLP hash number
  if data.isEmpty then return none
  return codec.decodeBody data

/-- `ReadLogs`: one log list per stored receipt with the fields derived, or `nil`. -/
def readLogs (codec : Codec) (hash : Hash) (number : UInt64) :
    Probe (Outcome (Option (List (List Log)))) := do
  let data ← readReceiptsRLP hash number
  if data.isEmpty then return .returns none
  match codec.decodeReceiptLogs data with
  | none => return .returns none
  | some receipts =>
      match ← readBody codec hash number with
      | none => return .returns none
      | some body =>
          match deriveLogFields receipts hash number body.transactions with
          | (logs, .returns none) => return .returns (some logs)
          | (_, .returns (some _)) => return .returns none
          | (_, .panics) => return .panics

/-! ## What the derivation should give -/

/-- The transaction hash of the logs of receipt `i`: transaction `i`'s, or the block hash
for the finalization receipt. -/
def txHashFor (txs : List Transaction) (hash : Hash) (i : Nat) : Hash :=
  (txs[i]?.map Transaction.hash).getD hash

/-- `logs` are `receipts` with the fields derived block-wide: the same number of
logs per receipt; listed receipt by receipt, the `k`-th log has index `k`; and each log of
receipt `i` has the block's number and hash, transaction hash `txHashFor txs hash i` and
transaction index `i`, its other fields unchanged. -/
structure Derived (receipts : List (List Log)) (hash : Hash) (number : UInt64)
    (txs : List Transaction) (logs : List (List Log)) : Prop where
  shape : logs.map List.length = receipts.map List.length
  indexed : logs.flatten.map Log.index = List.range logs.flatten.length
  fields : ∀ (i j : Nat) (log : Log), (receipts[i]?.bind fun receipt => receipt[j]?) = some log →
    ∃ index, (logs[i]?.bind fun receipt => receipt[j]?) =
      some (log.derive number hash (txHashFor txs hash i) i index)

/-! ## The loops in closed form -/

section ClosedForm

variable (hash : Hash) (number : UInt64)

/-- The receipts from position `i` on with their logs derived, numbering from `logIndex`:
the `k`-th receipt takes `txHashes[k]` as transaction hash, or the block hash once they run
out. -/
def deriveFrom : List Hash → Nat → Nat → List (List Log) → List (List Log)
  | _, _, _, [] => []
  | txHashes, i, logIndex, logs :: receipts =>
      deriveReceiptLogs number hash (txHashes.headD hash) i logIndex logs ::
        deriveFrom txHashes.tail (i + 1) (logIndex + logs.length) receipts

@[simp]
theorem length_deriveReceiptLogs (txHash : Hash) (txIndex logIndex : Nat) (logs : List Log) :
    (deriveReceiptLogs number hash txHash txIndex logIndex logs).length = logs.length := by
  induction logs generalizing logIndex <;> simp [deriveReceiptLogs, *]

theorem getElem?_deriveReceiptLogs (txHash : Hash) (txIndex logIndex j : Nat) (logs : List Log) :
    (deriveReceiptLogs number hash txHash txIndex logIndex logs)[j]? =
      logs[j]?.map fun log => log.derive number hash txHash txIndex (logIndex + j) := by
  induction logs generalizing logIndex j with
  | nil => rfl
  | cons log logs ih =>
      cases j with
      | zero => simp [deriveReceiptLogs]
      | succ j => simp [deriveReceiptLogs, ih, Nat.add_assoc, Nat.add_comm 1 j]

theorem map_index_deriveReceiptLogs (txHash : Hash) (txIndex logIndex : Nat) (logs : List Log) :
    (deriveReceiptLogs number hash txHash txIndex logIndex logs).map Log.index =
      List.range' logIndex logs.length := by
  induction logs generalizing logIndex <;> simp [deriveReceiptLogs, Log.derive, List.range'_succ, *]

theorem deriveFrom_append (txHashes : List Hash) (i logIndex : Nat) (front back : List (List Log)) :
    deriveFrom hash number txHashes i logIndex (front ++ back) =
      deriveFrom hash number txHashes i logIndex front ++
        deriveFrom hash number (txHashes.drop front.length) (i + front.length)
          (logIndex + (front.map List.length).sum) back := by
  induction front generalizing txHashes i logIndex with
  | nil => rfl
  | cons logs front ih =>
      rw [List.cons_append, deriveFrom, deriveFrom, ih, List.drop_tail]
      simp [Nat.add_assoc, Nat.add_comm 1]

@[simp]
theorem length_deriveFrom (txHashes : List Hash) (i logIndex : Nat) (receipts : List (List Log)) :
    (deriveFrom hash number txHashes i logIndex receipts).length = receipts.length := by
  induction receipts generalizing txHashes i logIndex <;> simp [deriveFrom, *]

@[simp]
theorem map_length_deriveFrom (txHashes : List Hash) (i logIndex : Nat)
    (receipts : List (List Log)) :
    (deriveFrom hash number txHashes i logIndex receipts).map List.length =
      receipts.map List.length := by
  induction receipts generalizing txHashes i logIndex <;> simp [deriveFrom, *]

theorem map_index_deriveFrom (txHashes : List Hash) (i logIndex : Nat)
    (receipts : List (List Log)) :
    (deriveFrom hash number txHashes i logIndex receipts).flatten.map Log.index =
      List.range' logIndex (receipts.map List.length).sum := by
  induction receipts generalizing txHashes i logIndex with
  | nil => rfl
  | cons logs receipts ih =>
      simp only [deriveFrom, List.flatten_cons, List.map_append, map_index_deriveReceiptLogs, ih,
        List.map_cons, List.sum_cons]
      rw [List.range'_append_1, Nat.add_comm]

theorem getElem?_deriveFrom (txHashes : List Hash) (i logIndex k : Nat)
    (receipts : List (List Log)) :
    (deriveFrom hash number txHashes i logIndex receipts)[k]? =
      receipts[k]?.map (deriveReceiptLogs number hash (txHashes[k]?.getD hash) (i + k)
        (logIndex + ((receipts.take k).map List.length).sum)) := by
  induction receipts generalizing txHashes i logIndex k with
  | nil => rfl
  | cons logs receipts ih =>
      cases k with
      | zero => cases txHashes <;> simp [deriveFrom]
      | succ k =>
          cases txHashes <;>
            simp [deriveFrom, ih, Nat.add_assoc, Nat.add_comm 1 k]

/-- The closed form derives its receipts as `Derived` asks. -/
theorem derived_deriveFrom (txs : List Transaction) (receipts : List (List Log)) :
    Derived receipts hash number txs
      (deriveFrom hash number (txs.map Transaction.hash) 0 0 receipts) where
  shape := map_length_deriveFrom ..
  indexed := by
    rw [map_index_deriveFrom, List.range_eq_range', List.length_flatten, map_length_deriveFrom]
  fields i j log found := by
    obtain ⟨logs, receipt, logAt⟩ :
        ∃ logs, receipts[i]? = some logs ∧ logs[j]? = some log := by
      simpa [Option.bind_eq_some] using found
    refine ⟨((receipts.take i).map List.length).sum + j, ?_⟩
    simp [getElem?_deriveFrom, receipt, getElem?_deriveReceiptLogs, logAt, txHashFor]

/-- The transaction loop, run over receipts `pre ++ rest` from position `pre.length` with at
least as many receipts left as transactions, derives the next `txs.length` of them and
leaves the rest. -/
theorem deriveTransactions_eq (txs : List Transaction) (pre rest : List (List Log))
    (logIndex : Nat) (enough : txs.length ≤ rest.length) :
    deriveTransactions hash number txs pre.length logIndex (pre ++ rest) =
      (pre ++ deriveFrom hash number (txs.map Transaction.hash) pre.length logIndex
          (rest.take txs.length) ++ rest.drop txs.length,
        some (logIndex + ((rest.take txs.length).map List.length).sum)) := by
  induction txs generalizing pre rest logIndex with
  | nil => simp [deriveTransactions, deriveFrom]
  | cons tx txs ih =>
      obtain _ | ⟨logs, rest⟩ := rest
      · simp at enough
      have step := ih (pre ++ [deriveReceiptLogs number hash tx.hash pre.length logIndex logs])
        rest (logIndex + logs.length) (by simpa using enough)
      simp only [List.length_append, List.length_singleton, List.append_assoc,
        List.singleton_append] at step
      have here : (pre ++ logs :: rest)[pre.length]? = some logs := by
        rw [List.getElem?_append_right le_rfl, Nat.sub_self, List.getElem?_cons_zero]
      rw [deriveTransactions, here]
      dsimp only
      rw [List.set_append_right _ _ le_rfl, Nat.sub_self, List.set_cons_zero, step]
      simp [deriveFrom, Nat.add_assoc]

/-- With matching counts `deriveLogFields` returns `nil` and leaves the closed form. -/
theorem deriveLogFields_of_countsMatch (receipts : List (List Log)) (txs : List Transaction)
    (counts : CountsMatch receipts txs) :
    deriveLogFields receipts hash number txs =
      (deriveFrom hash number (txs.map Transaction.hash) 0 0 receipts, .returns none) := by
  have loop := deriveTransactions_eq hash number txs [] receipts 0
    (by unfold CountsMatch at counts; omega)
  simp only [List.length_nil, List.nil_append, Nat.zero_add] at loop
  rcases counts with same | oneMore
  · simp [deriveLogFields, CountsMatch, same, loop]
  · obtain ⟨front, last, rfl⟩ : ∃ front last, receipts = front ++ [last] := by
      simpa using (List.eq_nil_or_concat receipts).resolve_left (by rintro rfl; simp at oneMore)
    have frontLength : front.length = txs.length := by simpa using oneMore.symm
    simp only [List.take_left' frontLength, List.drop_left' frontLength] at loop
    simp [deriveLogFields, CountsMatch, loop, frontLength, List.getElem?_append_right,
      List.set_append_right, deriveFrom_append, deriveFrom]

/-- On a count mismatch `deriveLogFields` returns its error and leaves every log. -/
theorem deriveLogFields_of_not_countsMatch (receipts : List (List Log)) (txs : List Transaction)
    (mismatch : ¬CountsMatch receipts txs) :
    deriveLogFields receipts hash number txs =
      (receipts, .returns (some "transaction and receipt count mismatch")) :=
  if_pos mismatch

end ClosedForm

/-! ## What `ReadLogs` returns -/

/-- `ReadLogs` returns `nil`, or the logs `deriveLogFields` leaves for the decoded receipts
and the block's transactions when their counts match. -/
theorem eval_readLogs (codec : Codec) (hash : Hash) (number : UInt64) (db : Database) :
    (readLogs codec hash number).eval db = .returns none ∨
      ∃ receipts body,
        codec.decodeReceiptLogs ((readReceiptsRLP hash number).eval db) = some receipts ∧
        (readBody codec hash number).eval db = some body ∧
        CountsMatch receipts body.transactions ∧
        (readLogs codec hash number).eval db =
          .returns (some (deriveLogFields receipts hash number body.transactions).1) := by
  rcases data : (readReceiptsRLP hash number).eval db with _ | ⟨byte, rest⟩
  · left; simp [readLogs, data]
  rcases decoded : codec.decodeReceiptLogs (byte :: rest) with _ | receipts
  · left; simp [readLogs, data, decoded]
  rcases read : (readBody codec hash number).eval db with _ | body
  · left; simp [readLogs, data, decoded, read]
  by_cases counts : CountsMatch receipts body.transactions
  · right
    refine ⟨receipts, body, rfl, rfl, counts, ?_⟩
    simp [readLogs, data, decoded, read, deriveLogFields_of_countsMatch _ _ _ _ counts]
  · left
    simp [readLogs, data, decoded, read, deriveLogFields_of_not_countsMatch _ _ _ _ counts]

theorem deriveLogFields_derives (hash : Hash) (number : UInt64) :
    (∀ (receipts : List (List Log)) (txs : List Transaction), ¬CountsMatch receipts txs →
      deriveLogFields receipts hash number txs =
        (receipts, .returns (some "transaction and receipt count mismatch"))) ∧
    (∀ (receipts : List (List Log)) (txs : List Transaction), CountsMatch receipts txs →
      (deriveLogFields receipts hash number txs).2 = .returns none ∧
        Derived receipts hash number txs (deriveLogFields receipts hash number txs).1) ∧
    ∀ (codec : Codec) (db : Database), (readLogs codec hash number).eval db = .returns none ∨
      ∃ receipts body logs,
        codec.decodeReceiptLogs ((readReceiptsRLP hash number).eval db) = some receipts ∧
        (readBody codec hash number).eval db = some body ∧
        (readLogs codec hash number).eval db = .returns (some logs) ∧
        Derived receipts hash number body.transactions logs := by
  have derives (receipts : List (List Log)) (txs : List Transaction)
      (counts : CountsMatch receipts txs) :
      (deriveLogFields receipts hash number txs).2 = .returns none ∧
        Derived receipts hash number txs (deriveLogFields receipts hash number txs).1 := by
    rw [deriveLogFields_of_countsMatch hash number receipts txs counts]
    exact ⟨rfl, derived_deriveFrom hash number txs receipts⟩
  refine ⟨deriveLogFields_of_not_countsMatch hash number, derives, fun codec db => ?_⟩
  obtain none | ⟨receipts, body, decoded, read, counts, logs⟩ :=
    eval_readLogs codec hash number db
  · exact .inl none
  · exact .inr ⟨receipts, body, _, decoded, read, logs, (derives receipts _ counts).2⟩

/-- One transaction whose receipt holds two logs, followed by the finalization receipt; and
two transactions stored without receipts. -/
theorem deriveLogFields_derives_sample :
    let tx : Transaction := ⟨Hash.zero⟩
    let log : Log := ⟨[], [], [], 0, Hash.zero, 0, Hash.zero, 0, false⟩
    (CountsMatch [[log, log], []] [tx] ∧
      (deriveLogFields [[log, log], []] Hash.zero 3 [tx]).2 = .returns none ∧
        Derived [[log, log], []] Hash.zero 3 [tx]
          (deriveLogFields [[log, log], []] Hash.zero 3 [tx]).1) ∧
    ¬CountsMatch [] [tx, tx] ∧
      deriveLogFields [] Hash.zero 3 [tx, tx] =
        ([], .returns (some "transaction and receipt count mismatch")) :=
  ⟨⟨by decide, (deriveLogFields_derives Hash.zero 3).2.1 _ _ (by decide)⟩, by decide,
    (deriveLogFields_derives Hash.zero 3).1 _ _ (by decide)⟩

end Rawdb
