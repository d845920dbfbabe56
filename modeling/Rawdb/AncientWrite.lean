import Rawdb.RoundTrip

/-!
# Writing a batch of blocks to the freezer

`WriteAncientBlocks` hands the freezer's `ModifyAncients` a function that, given an
`ethdb.AncientWriteOp`, appends a run of blocks to the five ancient tables: for each
block its hash, header, body, receipts and total difficulty, all at the block's number
(`writeAncientBlock`). The loop carries two values from one block to the next: the
running total difficulty, to which every block but the first adds its own, and a
receipt buffer that is cut to length zero and refilled for each block. The first append
that fails ends the batch, and the function returns its error, prefixed with the block
number and the table in `fmt.Errorf` with `%v`.

`ModifyAncients` and the encodings the freezer applies to what it is handed are outside
this repository. An `AncientWriteOp` is modelled by its answers: given the appends of the
batch so far, whether the next one fails and with which message. An append is taken to
read its item when it is called, so the buffer reused by later blocks is read as it is
then.

`ancientBatch` lists the appends from the description of `WriteAncientBlocks`, with the
running totals written as sums. The loop issues exactly that list, one append at a time,
until the first that fails (`writeAncientLoop_eq`), so the batch is issued in full or up
to its first failure, whose error, wrapped, is returned (`writeAncientBlocks_issues_batch`).
The returned error is a new one: `%v` keeps the failed append's message, not the error
itself (`writeAncientBlocks_wraps_error`). With fewer receipt lists than blocks the
function never succeeds: once the appends of the blocks that have receipts are issued
without a failure, `receipts[i]` is indexed past its end and the goroutine panics
(`writeAncientBlocks_short_receipts`).

The batch meets the read path through the freezer's commit. The description of the ancient
store has it append-only, sequential and all or nothing per `ModifyAncients`: a batch that
returns no error has its appends committed, each item encoded at the end of its table
(`modifyAncients`). Written at the tables' common length with the blocks numbered on from
it, a committed batch reads back through `ReadCanonicalHash`, `ReadBlock`,
`ReadReceiptsRLP` and `ReadTdRLP` (`readAncient_after_writeAncientBlocks`).
-/

namespace Rawdb

/-! ## The model -/

/-- What an append hands to the freezer: `AppendRaw`'s bytes, or a value `Append` encodes. -/
inductive AncientItem where
  | raw (bytes : Bytes)
  | header (header : Header)
  | body (body : Body)
  | receipts (receipts : List Receipt)
  | difficulty (td : Nat)
deriving DecidableEq

/-- One `AppendRaw` or `Append` call on an `ethdb.AncientWriteOp`. -/
structure AncientAppend where
  table : Table
  number : UInt64
  item : AncientItem
deriving DecidableEq

/-- An `ethdb.AncientWriteOp`, known by its answers: given the appends of the batch so far
and the next one, the message the next one fails with, or `none` when it succeeds. -/
abbrev AncientWriteOp := List AncientAppend → AncientAppend → Option String

/-- The error `writeAncientBlock` returns when its append to `table` fails with `err`. -/
def ancientError (table : Table) (number : UInt64) (err : String) : String :=
  match table with
  | .hashTable => s!"can\x27t add block {number} hash: {err}"
  | .headerTable => s!"can\x27t append block header {number}: {err}"
  | .bodiesTable => s!"can\x27t append block body {number}: {err}"
  | .receiptTable => s!"can\x27t append block {number} receipts: {err}"
  | .difficultyTable => s!"can\x27t append block {number} total difficulty: {err}"

/-- The appends of `writeAncientBlock`, issued after `issued` in order until one fails: the
appends issued, with the failing one, and its wrapped error. -/
def issueAppends (op : AncientWriteOp) :
    List AncientAppend → List AncientAppend → List AncientAppend × Option String
  | issued, [] => (issued, none)
  | issued, append :: appends =>
      match op issued append with
      | some err => (issued ++ [append], some (ancientError append.table append.number err))
      | none => issueAppends op (issued ++ [append]) appends

/-- `writeAncientBlock`: the block's hash, header, body, `receipts` and `td`, all at the
block's number. -/
def writeAncientBlock (codec : HeaderCodec) (op : AncientWriteOp) (issued : List AncientAppend)
    (block : Block) (receipts : List Receipt) (td : Nat) : List AncientAppend × Option String :=
  let num := block.header.number
  issueAppends op issued
    [⟨.hashTable, num, .raw (block.hash codec).bytes⟩,
      ⟨.headerTable, num, .header block.header⟩, ⟨.bodiesTable, num, .body block.body⟩,
      ⟨.receiptTable, num, .receipts receipts⟩, ⟨.difficultyTable, num, .difficulty td⟩]

/-- The loop of `WriteAncientBlocks` from block `i` on, with the running total `tdSum`, the
receipt buffer `stReceipts` and the appends issued so far. It panics where `receipts` has
no entry `i`. -/
def writeAncientLoop (codec : HeaderCodec) (op : AncientWriteOp) (receipts : List (List Receipt)) :
    Nat → Nat → List Receipt → List AncientAppend → List Block →
      List AncientAppend × Outcome (Option String)
  | _, _, _, issued, [] => (issued, .returns none)
  | i, tdSum, stReceipts, issued, block :: blocks =>
      match receipts[i]? with
      | none => (issued, .panics)
      | some blockReceipts =>
          let stReceipts :=
            blockReceipts.foldl (fun buffer receipt => buffer ++ [receipt]) (stReceipts.take 0)
          let tdSum := if i > 0 then tdSum + block.totalDifficulty else tdSum
          match writeAncientBlock codec op issued block stReceipts tdSum with
          | (issued, some err) => (issued, .returns (some err))
          | (issued, none) =>
              writeAncientLoop codec op receipts (i + 1) tdSum stReceipts issued blocks

/-- `WriteAncientBlocks`, the function it passes to `ModifyAncients`: the appends it issues
and what it returns. -/
def writeAncientBlocks (codec : HeaderCodec) (op : AncientWriteOp) (blocks : List Block)
    (receipts : List (List Receipt)) (td : Nat) : List AncientAppend × Outcome (Option String) :=
  writeAncientLoop codec op receipts 0 td [] [] blocks

/-! ## The batch it should issue -/

/-- The total difficulty appended for block `i`: `td` plus the difficulties of blocks `1`
to `i`. -/
def runningTotal (td : Nat) (blocks : List Block) (i : Nat) : Nat :=
  td + (((blocks.take (i + 1)).drop 1).map Block.totalDifficulty).sum

/-- The appends the description of `WriteAncientBlocks` lists for one block, all at its
number: its hash to the hash table, its header, its body, `receipts` and `total`. -/
def ancientBlockAppends (codec : HeaderCodec) (block : Block) (receipts : List Receipt)
    (total : Nat) : List AncientAppend :=
  [⟨.hashTable, block.header.number, .raw (block.hash codec).bytes⟩,
    ⟨.headerTable, block.header.number, .header block.header⟩,
    ⟨.bodiesTable, block.header.number, .body block.body⟩,
    ⟨.receiptTable, block.header.number, .receipts receipts⟩,
    ⟨.difficultyTable, block.header.number, .difficulty total⟩]

/-- The appends of the whole batch: those of each block `i` in order, with the receipts
`receipts[i]` and its running total difficulty. -/
def ancientBatch (codec : HeaderCodec) (blocks : List Block) (receipts : List (List Receipt))
    (td : Nat) : List AncientAppend :=
  ((blocks.zip receipts).enum.map fun (i, block, blockReceipts) =>
    ancientBlockAppends codec block blockReceipts (runningTotal td blocks i)).flatten

/-- `writeAncientBlock` issues the five appends the description lists for the block. -/
theorem writeAncientBlock_eq (codec : HeaderCodec) (op : AncientWriteOp)
    (issued : List AncientAppend) (block : Block) (receipts : List Receipt) (td : Nat) :
    writeAncientBlock codec op issued block receipts td =
      issueAppends op issued (ancientBlockAppends codec block receipts td) := rfl

/-! ## Issuing appends -/

theorem issueAppends_append_of_none (op : AncientWriteOp) {issued issued' : List AncientAppend}
    {appends : List AncientAppend} (succeeded : issueAppends op issued appends = (issued', none))
    (appends' : List AncientAppend) :
    issueAppends op issued (appends ++ appends') = issueAppends op issued' appends' := by
  induction appends generalizing issued with
  | nil => cases succeeded; rfl
  | cons append appends ih =>
      rw [List.cons_append]
      cases answer : op issued append <;> simp only [issueAppends, answer] at succeeded ⊢
      · exact ih succeeded
      · simp at succeeded

theorem issueAppends_append_of_some (op : AncientWriteOp) {issued issued' : List AncientAppend}
    {appends : List AncientAppend} {err : String}
    (failed : issueAppends op issued appends = (issued', some err))
    (appends' : List AncientAppend) :
    issueAppends op issued (appends ++ appends') = (issued', some err) := by
  induction appends generalizing issued with
  | nil => cases failed
  | cons append appends ih =>
      rw [List.cons_append]
      cases answer : op issued append <;> simp only [issueAppends, answer] at failed ⊢
      · exact ih failed
      · exact failed

/-- Issuing appends one at a time: either every append succeeds, or the first that fails
is the last issued and its error, wrapped, is returned. -/
theorem issueAppends_eq (op : AncientWriteOp) (issued appends : List AncientAppend) :
    (issueAppends op issued appends = (issued ++ appends, none) ∧
        ∀ m (valid : m < appends.length), op (issued ++ appends.take m) appends[m] = none) ∨
      ∃ m, ∃ valid : m < appends.length, ∃ err,
        (∀ j (earlier : j < m), op (issued ++ appends.take j) appends[j] = none) ∧
        op (issued ++ appends.take m) appends[m] = some err ∧
        issueAppends op issued appends =
          (issued ++ appends.take (m + 1),
            some (ancientError appends[m].table appends[m].number err)) := by
  induction appends generalizing issued with
  | nil => exact .inl ⟨by simp [issueAppends], fun _ valid => absurd valid (by simp)⟩
  | cons append appends ih =>
      cases answer : op issued append with
      | some err =>
          exact .inr ⟨0, by simp, err, fun _ earlier => absurd earlier (by omega),
            by simpa using answer, by simp [issueAppends, answer]⟩
      | none =>
          have first : op (issued ++ List.take 0 (append :: appends)) (append :: appends)[0] =
              none := by simpa using answer
          rcases ih (issued ++ [append]) with
            ⟨issuedAll, accepted⟩ | ⟨m, valid, err, before, failed, issuedUpTo⟩
          · refine .inl ⟨by simp [issueAppends, answer, issuedAll], ?_⟩
            rintro (_ | m) valid
            · exact first
            · simpa using accepted m (by simpa using valid)
          · refine .inr ⟨m + 1, by simpa using valid, err, ?_, by simpa using failed, ?_⟩
            · rintro (_ | j) earlier
              · exact first
              · simpa using before j (by omega)
            · simpa [issueAppends, answer] using issuedUpTo

/-! ## The loop -/

/-- Refilling the emptied buffer leaves exactly the block's receipts in it. -/
theorem foldl_append_singleton {α : Type} (buffer items : List α) :
    items.foldl (fun buffer item => buffer ++ [item]) buffer = buffer ++ items := by
  induction items generalizing buffer with
  | nil => simp
  | cons item items ih => simp [ih]

theorem sum_append_singleton (values : List Nat) (value : Nat) :
    (values ++ [value]).sum = values.sum + value := by
  induction values <;> simp [*, Nat.add_assoc]

/-- The running total of block `i` is the loop's total before block `i`, with block `i`'s
difficulty added unless it is the first. -/
theorem runningTotal_eq_step (td : Nat) {blocks : List Block} {i : Nat} {block : Block}
    (atIndex : blocks[i]? = some block) :
    runningTotal td blocks i =
      if i > 0 then
        td + (((blocks.take i).drop 1).map Block.totalDifficulty).sum + block.totalDifficulty
      else td + (((blocks.take i).drop 1).map Block.totalDifficulty).sum := by
  rw [runningTotal, List.take_succ, atIndex]
  split_ifs with later
  · have long : 1 ≤ (blocks.take i).length := by
      simp only [List.length_take]
      have := (List.getElem?_eq_some_iff.mp atIndex).1
      omega
    simp [List.drop_append_of_le_length long, sum_append_singleton, Nat.add_assoc]
  · obtain rfl : i = 0 := by omega
    simp

/-- From block `i` on, whatever `receipts` holds: the loop issues the appends the batch
lists for the blocks left that have receipts, one at a time until the first that fails,
and panics on reaching a block without receipts. -/
theorem writeAncientLoop_eq_outcome (codec : HeaderCodec) (op : AncientWriteOp)
    {blocks : List Block} {receipts : List (List Receipt)} (td : Nat)
    (rest : List Block) (i : Nat) (stReceipts : List Receipt) (issued : List AncientAppend)
    (suffix : blocks.drop i = rest) :
    writeAncientLoop codec op receipts i
        (td + (((blocks.take i).drop 1).map Block.totalDifficulty).sum) stReceipts issued rest =
      let result := issueAppends op issued
        (((rest.zip (receipts.drop i)).enumFrom i).map fun (j, block, blockReceipts) =>
          ancientBlockAppends codec block blockReceipts (runningTotal td blocks j)).flatten
      (result.1, match result.2 with
        | some err => .returns (some err)
        | none => if rest.length ≤ receipts.length - i then .returns none else .panics) := by
  induction rest generalizing i stReceipts issued with
  | nil => simp [writeAncientLoop, issueAppends]
  | cons block rest ih =>
      have atIndex : blocks[i]? = some block := by
        rw [← Nat.add_zero i, ← List.getElem?_drop, suffix]
        simp
      have next : blocks.drop (i + 1) = rest := by
        rw [← List.drop_drop, suffix, List.drop_one, List.tail_cons]
      by_cases inBounds : i < receipts.length
      · rw [List.drop_eq_getElem_cons inBounds, List.zip_cons_cons, List.enumFrom_cons,
          List.map_cons, List.flatten_cons]
        simp only [writeAncientLoop, List.getElem?_eq_getElem inBounds, List.take_zero,
          foldl_append_singleton, List.nil_append, ← runningTotal_eq_step td atIndex,
          writeAncientBlock_eq]
        rcases blockIssued : issueAppends op issued
            (ancientBlockAppends codec block receipts[i] (runningTotal td blocks i)) with
          ⟨issued', _ | err⟩
        · have room : rest.length ≤ receipts.length - (i + 1) ↔
              (block :: rest).length ≤ receipts.length - i := by
            simp only [List.length_cons]
            omega
          rw [issueAppends_append_of_none op blockIssued]
          refine (ih (i + 1) receipts[i] issued' next).trans ?_
          simp only [room]
        · rw [issueAppends_append_of_some op blockIssued]
      · have missing : receipts[i]? = none := List.getElem?_eq_none (by omega)
        have noneLeft : receipts.drop i = [] := List.drop_eq_nil_of_le (by omega)
        have noRoom : ¬rest.length + 1 ≤ receipts.length - i := by omega
        simp [writeAncientLoop, missing, noneLeft, issueAppends, noRoom]

/-- From block `i` on, the loop issues the appends the batch lists for the blocks left, one
at a time until the first that fails. -/
theorem writeAncientLoop_eq (codec : HeaderCodec) (op : AncientWriteOp) {blocks : List Block}
    {receipts : List (List Receipt)} (td : Nat) (enough : blocks.length ≤ receipts.length)
    (rest : List Block) (i : Nat) (stReceipts : List Receipt) (issued : List AncientAppend)
    (suffix : blocks.drop i = rest) :
    writeAncientLoop codec op receipts i
        (td + (((blocks.take i).drop 1).map Block.totalDifficulty).sum) stReceipts issued rest =
      let result := issueAppends op issued
        (((rest.zip (receipts.drop i)).enumFrom i).map fun (j, block, blockReceipts) =>
          ancientBlockAppends codec block blockReceipts (runningTotal td blocks j)).flatten
      (result.1, .returns result.2) := by
  have room : rest.length ≤ receipts.length - i := by
    rw [← suffix, List.length_drop]
    omega
  rw [writeAncientLoop_eq_outcome codec op td rest i stReceipts issued suffix]
  dsimp only
  split <;> simp_all

/-- For every run of blocks with receipts for each and every initial total difficulty, the
function `WriteAncientBlocks` passes to `ModifyAncients` issues the batch's appends in order,
all of them or up to the first that fails, and returns that append's error wrapped with
its block number and table. -/
theorem writeAncientBlocks_issues_batch (codec : HeaderCodec) (op : AncientWriteOp)
    (blocks : List Block) (receipts : List (List Receipt)) (td : Nat)
    (enough : blocks.length ≤ receipts.length) :
    let batch := ancientBatch codec blocks receipts td
    (writeAncientBlocks codec op blocks receipts td = (batch, .returns none) ∧
        ∀ m (valid : m < batch.length), op (batch.take m) batch[m] = none) ∨
      ∃ m, ∃ valid : m < batch.length, ∃ err,
        (∀ j (earlier : j < m), op (batch.take j) batch[j] = none) ∧
        op (batch.take m) batch[m] = some err ∧
        writeAncientBlocks codec op blocks receipts td =
          (batch.take (m + 1),
            .returns (some (ancientError batch[m].table batch[m].number err))) := by
  intro batch
  have loop : writeAncientBlocks codec op blocks receipts td =
      ((issueAppends op [] batch).1, .returns (issueAppends op [] batch).2) := by
    simpa using writeAncientLoop_eq codec op td enough blocks 0 [] [] rfl
  rcases issueAppends_eq op [] batch with
    ⟨issuedAll, accepted⟩ | ⟨m, valid, err, before, failed, issuedUpTo⟩
  · exact .inl ⟨by simpa [issuedAll] using loop, by simpa using accepted⟩
  · exact .inr ⟨m, valid, err, by simpa using before, by simpa using failed,
      by simpa [issuedUpTo] using loop⟩

/-! ## Committing the batch and reading it back -/

/-- The bytes the freezer stores for an item: `AppendRaw`'s as given, `Append`'s in the
codec's encoding. -/
def AncientItem.encode (codec : Codec) : AncientItem → Bytes
  | .raw item => item
  | .header item => codec.encodeHeader item
  | .body item => codec.encodeBody item
  | .receipts item => codec.encodeReceipts item
  | .difficulty item => codec.encodeTd item

/-- The ancient tables after `appends` are committed: each item, encoded, at the end of its
table. -/
def Database.commitAppends (codec : Codec) (db : Database) (appends : List AncientAppend) :
    Database :=
  appends.foldl (fun db append => db.appendAncient append.table (append.item.encode codec)) db

/-- `ModifyAncients`, all or nothing as the description of the ancient store has it: the
appends of a batch function that returns no error are committed, and otherwise the tables
stay as they were. -/
def modifyAncients (codec : Codec) (db : Database)
    (batch : List AncientAppend × Outcome (Option String)) : Database :=
  match batch.2 with
  | .returns none => db.commitAppends codec batch.1
  | _ => db

/-- What the batch stores in `table` for one block. -/
def tableItem (codec : Codec) (table : Table) (block : Block) (receipts : List Receipt)
    (total : Nat) : Bytes :=
  match table with
  | .hashTable => (block.hash codec.toHeaderCodec).bytes
  | .headerTable => codec.encodeHeader block.header
  | .bodiesTable => codec.encodeBody block.body
  | .receiptTable => codec.encodeReceipts receipts
  | .difficultyTable => codec.encodeTd total

theorem ancient_commitAppends (codec : Codec) (db : Database) (appends : List AncientAppend)
    (table : Table) :
    (db.commitAppends codec appends).ancient table =
      db.ancient table ++
        (appends.filter fun append => append.table = table).map (·.item.encode codec) := by
  induction appends generalizing db with
  | nil => simp [Database.commitAppends]
  | cons append appends ih =>
      rw [Database.commitAppends, List.foldl_cons, ← Database.commitAppends, ih]
      by_cases same : append.table = table
      · subst same
        simp [Database.appendAncient, List.filter_cons]
      · simp [Database.appendAncient, List.filter_cons, same, Function.update_noteq (Ne.symm same)]

/-- Each table receives one item per block, in the order of the blocks. -/
theorem ancientBlockAppends_table (codec : Codec) (table : Table)
    (entries : List (Nat × Block × List Receipt)) (total : Nat → Nat) :
    (((entries.map fun (i, block, blockReceipts) =>
        ancientBlockAppends codec.toHeaderCodec block blockReceipts (total i)).flatten.filter
          fun append => append.table = table).map (·.item.encode codec)) =
      entries.map fun (i, block, blockReceipts) =>
        tableItem codec table block blockReceipts (total i) := by
  induction entries with
  | nil => rfl
  | cons entry entries ih =>
      obtain ⟨i, block, blockReceipts⟩ := entry
      rw [List.map_cons, List.flatten_cons, List.filter_append, List.map_append, ih,
        List.map_cons]
      cases table <;> rfl

/-- After a committed batch of blocks numbered on from the tables' common length, each
table holds at each block's number that block's item. -/
theorem ancientAt_commit_ancientBatch (codec : Codec) {db : Database} {length : Nat}
    (level : ∀ table, (db.ancient table).length = length) {blocks : List Block}
    {receipts : List (List Receipt)} (enough : blocks.length ≤ receipts.length) (td : Nat)
    {i : Nat} (valid : i < blocks.length) {number : UInt64} (numbered : number.toNat = length + i)
    (table : Table) :
    (db.commitAppends codec (ancientBatch codec.toHeaderCodec blocks receipts td)).ancientAt
        table number =
      some (tableItem codec table blocks[i] receipts[i]
        (runningTotal td blocks i)) := by
  simp only [Database.ancientAt, ancient_commitAppends, ancientBatch, ancientBlockAppends_table,
    numbered]
  rw [List.getElem?_append_right (by rw [level]; omega), level, Nat.add_sub_cancel_left]
  simp [List.getElem?_enum, valid, Nat.lt_of_lt_of_le valid enough]

/-- A batch function that returns no error has issued the whole batch. -/
theorem writeAncientBlocks_committed (codec : HeaderCodec) (op : AncientWriteOp)
    {blocks : List Block} {receipts : List (List Receipt)} {td : Nat}
    (enough : blocks.length ≤ receipts.length)
    (committed : (writeAncientBlocks codec op blocks receipts td).2 = .returns none) :
    (writeAncientBlocks codec op blocks receipts td).1 = ancientBatch codec blocks receipts td := by
  have loop : writeAncientBlocks codec op blocks receipts td =
      ((issueAppends op [] (ancientBatch codec blocks receipts td)).1,
        .returns (issueAppends op [] (ancientBatch codec blocks receipts td)).2) := by
    simpa using writeAncientLoop_eq codec op td enough blocks 0 [] [] rfl
  rcases issueAppends_eq op [] (ancientBatch codec blocks receipts td) with
    ⟨issuedAll, -⟩ | ⟨m, valid, err, -, -, issuedUpTo⟩
  · simp [loop, issuedAll]
  · simp [loop, issuedUpTo] at committed

/-- A hash-checked reader returns the ancient item at its number when the ancient hash
there is the one asked for. -/
theorem eval_readCheckedRLP_of_ancient {db : Database} {table : Table} {number : UInt64}
    {item : Bytes} (stored : db.ancientAt table number = some item) (present : item ≠ [])
    {hash : Hash} (hashStored : db.ancientAt .hashTable number = some hash.bytes) (key : Bytes) :
    (readCheckedRLP table key hash number).eval db = item := by
  simp [eval_readCheckedRLP, eval_ancientChecked, stored, hashStored, present]

/-- Written at the tables' common length, each block numbered on from it, a batch that
`ModifyAncients` commits reads back: at each block's number the canonical hash is the
block's hash, `ReadBlock` returns the block, and `ReadReceiptsRLP` and `ReadTdRLP` return
the encodings of its receipts and its running total difficulty. -/
theorem readAncient_after_writeAncientBlocks (codec : EntityCodec)
    (encodeTd_ne_nil : ∀ td, codec.encodeTd td ≠ []) (op : AncientWriteOp) {db : Database}
    {length : Nat} (level : ∀ table, (db.ancient table).length = length)
    (blocks : List Block) (receipts : List (List Receipt)) (td : Nat)
    (enough : blocks.length ≤ receipts.length)
    (numbered : ∀ i (valid : i < blocks.length), blocks[i].header.number.toNat = length + i)
    (committed : (writeAncientBlocks codec.toHeaderCodec op blocks receipts td).2 = .returns none)
    (i : Nat) (valid : i < blocks.length) :
    let committedDb :=
      modifyAncients codec.toCodec db (writeAncientBlocks codec.toHeaderCodec op blocks receipts td)
    (readCanonicalHash blocks[i].header.number).eval committedDb =
        blocks[i].hash codec.toHeaderCodec ∧
      (readBlock codec.toCodec (blocks[i].hash codec.toHeaderCodec) blocks[i].header.number).eval
          committedDb = some (blocks[i].header, blocks[i].body) ∧
      (readReceiptsRLP (blocks[i].hash codec.toHeaderCodec) blocks[i].header.number).eval
          committedDb = codec.encodeReceipts receipts[i] ∧
      (readTdRLP (blocks[i].hash codec.toHeaderCodec) blocks[i].header.number).eval committedDb =
        codec.encodeTd (runningTotal td blocks i) := by
  intro committedDb
  have issued := writeAncientBlocks_committed codec.toHeaderCodec op enough committed
  have isCommit : committedDb = db.commitAppends codec.toCodec
      (ancientBatch codec.toHeaderCodec blocks receipts td) := by
    simp only [committedDb, modifyAncients, committed, issued]
  have stored (table : Table) := isCommit ▸
    ancientAt_commit_ancientBatch codec.toCodec level enough td valid (numbered i valid) table
  have hashStored := stored .hashTable
  simp only [tableItem] at stored hashStored
  refine ⟨?_, ?_, ?_, ?_⟩
  · simp [eval_readCanonicalHash, hashStored]
  · simp [eval_readBlock, eval_readHeader, eval_readHeaderRLP, stored, eval_readBody, readBodyRLP,
      eval_readCheckedRLP_of_ancient (stored .bodiesTable) (codec.encodeBody_ne_nil _) hashStored,
      codec.encodeHeader_ne_nil, codec.decodeHeader_encodeHeader, decodeRaw_encodeBody]
  · exact eval_readCheckedRLP_of_ancient (stored .receiptTable) (codec.encodeReceipts_ne_nil _)
      hashStored _
  · exact eval_readCheckedRLP_of_ancient (stored .difficultyTable) (encodeTd_ne_nil _)
      hashStored _

/-- A block at height 0 with no transactions and difficulty 1. -/
def ancientSampleBlock : Block :=
  ⟨⟨0, Hash.zero, []⟩, ⟨[], [], []⟩, 1⟩

/-- A freezer whose every append fails with the message `disk full`. -/
def diskFullOp : AncientWriteOp := fun _ _ => some "disk full"

/-- The sample block written to a freezer that refuses every append. -/
theorem writeAncientBlocks_issues_batch_sample :
    [ancientSampleBlock].length ≤ [([] : List Receipt)].length ∧
      let batch := ancientBatch sampleCodec.toHeaderCodec [ancientSampleBlock] [[]] 0
      ((writeAncientBlocks sampleCodec.toHeaderCodec diskFullOp [ancientSampleBlock] [[]] 0 =
            (batch, .returns none) ∧
          ∀ m (valid : m < batch.length), diskFullOp (batch.take m) batch[m] = none) ∨
        ∃ m, ∃ valid : m < batch.length, ∃ err,
          (∀ j (earlier : j < m), diskFullOp (batch.take j) batch[j] = none) ∧
          diskFullOp (batch.take m) batch[m] = some err ∧
          writeAncientBlocks sampleCodec.toHeaderCodec diskFullOp [ancientSampleBlock] [[]] 0 =
            (batch.take (m + 1),
              .returns (some (ancientError batch[m].table batch[m].number err)))) :=
  ⟨by decide, writeAncientBlocks_issues_batch _ _ _ _ _ (by decide)⟩

/-- When the first append fails with `disk full`, `WriteAncientBlocks` returns a new error
carrying that message, not the append's error. -/
theorem writeAncientBlocks_wraps_error :
    (writeAncientBlocks sampleCodec.toHeaderCodec diskFullOp [ancientSampleBlock] [[]] 0).2 =
        .returns (some "can\x27t add block 0 hash: disk full") ∧
      (writeAncientBlocks sampleCodec.toHeaderCodec diskFullOp [ancientSampleBlock] [[]] 0).2 ≠
        .returns (some "disk full") := by
  decide

/-- A freezer that accepts every append. -/
def acceptingOp : AncientWriteOp := fun _ _ => none

/-- The sample block and a second one at height 1 with difficulty 2. -/
def ancientSampleBlocks : List Block :=
  [ancientSampleBlock, ⟨⟨1, Hash.zero, []⟩, ⟨[], [], []⟩, 2⟩]

/-- The sample codec's total difficulty encoding has 32 bytes. -/
theorem sampleEntityCodec_encodeTd_ne_nil (td : Nat) : sampleEntityCodec.encodeTd td ≠ [] :=
  List.ne_nil_of_length_pos (by simp [sampleEntityCodec, sampleCodec])

/-- The two sample blocks committed from total difficulty 5 to the empty freezer: block 1
reads back, its total difficulty 5 + 2. -/
theorem readAncient_after_writeAncientBlocks_sample :
    (∀ td, sampleEntityCodec.encodeTd td ≠ []) ∧
      (∀ table, (emptySample.ancient table).length = 0) ∧
      ancientSampleBlocks.length ≤ [([] : List Receipt), []].length ∧
      (∀ i (valid : i < ancientSampleBlocks.length),
        ancientSampleBlocks[i].header.number.toNat = 0 + i) ∧
      (writeAncientBlocks sampleEntityCodec.toHeaderCodec acceptingOp ancientSampleBlocks [[], []]
        5).2 = .returns none ∧
      1 < ancientSampleBlocks.length ∧
      let committedDb := modifyAncients sampleEntityCodec.toCodec emptySample
        (writeAncientBlocks sampleEntityCodec.toHeaderCodec acceptingOp ancientSampleBlocks
          [[], []] 5)
      (readCanonicalHash ancientSampleBlocks[1].header.number).eval committedDb =
          ancientSampleBlocks[1].hash sampleEntityCodec.toHeaderCodec ∧
        (readBlock sampleEntityCodec.toCodec
            (ancientSampleBlocks[1].hash sampleEntityCodec.toHeaderCodec)
            ancientSampleBlocks[1].header.number).eval committedDb =
          some (ancientSampleBlocks[1].header, ancientSampleBlocks[1].body) ∧
        (readReceiptsRLP (ancientSampleBlocks[1].hash sampleEntityCodec.toHeaderCodec)
            ancientSampleBlocks[1].header.number).eval committedDb =
          sampleEntityCodec.encodeReceipts ([[], []] : List (List Receipt))[1] ∧
        (readTdRLP (ancientSampleBlocks[1].hash sampleEntityCodec.toHeaderCodec)
            ancientSampleBlocks[1].header.number).eval committedDb =
          sampleEntityCodec.encodeTd (runningTotal 5 ancientSampleBlocks 1) :=
  ⟨sampleEntityCodec_encodeTd_ne_nil, fun _ => rfl, by decide, by decide, rfl, by decide,
    readAncient_after_writeAncientBlocks sampleEntityCodec sampleEntityCodec_encodeTd_ne_nil
      acceptingOp (fun _ => rfl) ancientSampleBlocks [[], []] 5 (by decide) (by decide) rfl 1
      (by decide)⟩

example : runningTotal 5 ancientSampleBlocks 1 = 7 := rfl

/-! ## Fewer receipt lists than blocks -/

/-- With fewer receipt lists than blocks, the function `WriteAncientBlocks` passes to
`ModifyAncients` never succeeds: it issues the appends of the blocks that have receipts in
order, and returns the wrapped error of the first that fails or, when none fails, panics
indexing `receipts` past its end. -/
theorem writeAncientBlocks_short_receipts (codec : HeaderCodec) (op : AncientWriteOp)
    (blocks : List Block) (receipts : List (List Receipt)) (td : Nat)
    (short : receipts.length < blocks.length) :
    let batch := ancientBatch codec blocks receipts td
    (writeAncientBlocks codec op blocks receipts td = (batch, .panics) ∧
        ∀ m (valid : m < batch.length), op (batch.take m) batch[m] = none) ∨
      ∃ m, ∃ valid : m < batch.length, ∃ err,
        (∀ j (earlier : j < m), op (batch.take j) batch[j] = none) ∧
        op (batch.take m) batch[m] = some err ∧
        writeAncientBlocks codec op blocks receipts td =
          (batch.take (m + 1),
            .returns (some (ancientError batch[m].table batch[m].number err))) := by
  intro batch
  have loop : writeAncientBlocks codec op blocks receipts td =
      ((issueAppends op [] batch).1, match (issueAppends op [] batch).2 with
        | some err => .returns (some err)
        | none => .panics) := by
    simpa [Nat.not_le.mpr short] using
      @writeAncientLoop_eq_outcome codec op blocks receipts td blocks 0 [] [] rfl
  rcases issueAppends_eq op [] batch with
    ⟨issuedAll, accepted⟩ | ⟨m, valid, err, before, failed, issuedUpTo⟩
  · exact .inl ⟨by simpa [issuedAll] using loop, by simpa using accepted⟩
  · exact .inr ⟨m, valid, err, by simpa using before, by simpa using failed,
      by simpa [issuedUpTo] using loop⟩

/-- The two sample blocks with receipts for the first only, to a freezer that accepts
every append. -/
theorem writeAncientBlocks_short_receipts_sample :
    [([] : List Receipt)].length < ancientSampleBlocks.length ∧
      let batch := ancientBatch sampleCodec.toHeaderCodec ancientSampleBlocks [[]] 0
      ((writeAncientBlocks sampleCodec.toHeaderCodec acceptingOp ancientSampleBlocks [[]] 0 =
            (batch, .panics) ∧
          ∀ m (valid : m < batch.length), acceptingOp (batch.take m) batch[m] = none) ∨
        ∃ m, ∃ valid : m < batch.length, ∃ err,
          (∀ j (earlier : j < m), acceptingOp (batch.take j) batch[j] = none) ∧
          acceptingOp (batch.take m) batch[m] = some err ∧
          writeAncientBlocks sampleCodec.toHeaderCodec acceptingOp ancientSampleBlocks [[]] 0 =
            (batch.take (m + 1),
              .returns (some (ancientError batch[m].table batch[m].number err)))) :=
  ⟨by decide, writeAncientBlocks_short_receipts _ _ _ _ _ (by decide)⟩

/-- The first sample block's five appends are issued, then the loop panics at the second. -/
example :
    writeAncientBlocks sampleCodec.toHeaderCodec acceptingOp ancientSampleBlocks [[]] 0 =
      (ancientBlockAppends sampleCodec.toHeaderCodec ancientSampleBlock [] 0, .panics) := by
  decide

end Rawdb
