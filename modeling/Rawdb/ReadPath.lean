import Rawdb.Probe
import Rawdb.Types

/-!
# The two-tier read path

Every reader of `accessors_chain.go` follows the same plan: ask the ancient store,
then the live store, then the ancient store once more, because the freezer may have
moved the record between the first two probes. The readers differ in what they accept
from the ancient store. `ReadBodyRLP`, `ReadReceiptsRLP` and `ReadTdRLP` accept an
ancient item only when the ancient hash table holds the requested hash at that number;
they are one definition here, `readCheckedRLP`, applied to each reader's table and key.
`ReadHeaderRLP` accepts any ancient header at the number, although its comment says the
hash comparison is necessary. `ReadCanonicalHash` and `ReadCanonicalBodyRLP` look up by
number alone. The existence checks `HasHeader`, `HasBody` and `HasReceipts` are again one
definition, `hasAncientOrLive`, and they probe twice, not three times.

The quiescent forms of the readers (`eval_*`) are what the consistency results use;
the freezer's concurrent migration is the subject of `Rawdb.Freezer`.
-/

namespace Rawdb

open Probe

/-- `ReadCanonicalHash`: the hash assigned to a canonical block number. -/
def readCanonicalHash (number : UInt64) : Probe Hash := do
  let mut data ← ancientData .hashTable number
  if data.isEmpty then
    data ← getData (headerHashKey number)
    if data.isEmpty then
      data ← ancientData .hashTable number
  if data.isEmpty then
    return Hash.zero
  return bytesToHash data

/-- `ReadHeaderRLP`: the header in its raw encoding, with no hash check on the ancient
probe. -/
def readHeaderRLP (hash : Hash) (number : UInt64) : Probe Bytes := do
  let data ← ancientData .headerTable number
  if !data.isEmpty then return data
  let data ← getData (headerKey number hash)
  if !data.isEmpty then return data
  let data ← ancientData .headerTable number
  if !data.isEmpty then return data
  return []

/-- The ancient probe of `ReadBodyRLP`, `ReadReceiptsRLP` and `ReadTdRLP`: the item of
`table` at `number` if it is non-empty and the ancient hash at `number` is `hash`, else
an empty slice. -/
def ancientChecked (table : Table) (hash : Hash) (number : UInt64) : Probe Bytes := do
  let data ← ancientData table number
  if !data.isEmpty then
    let item ← ancientData .hashTable number
    if bytesToHash item = hash then return data
  return []

/-- The shared body of `ReadBodyRLP`, `ReadReceiptsRLP` and `ReadTdRLP`, reading the
ancient `table` and the live `key`. -/
def readCheckedRLP (table : Table) (key : Bytes) (hash : Hash) (number : UInt64) :
    Probe Bytes := do
  let data ← ancientChecked table hash number
  if !data.isEmpty then return data
  let data ← getData key
  if !data.isEmpty then return data
  ancientChecked table hash number

/-- `ReadBodyRLP`. -/
def readBodyRLP (hash : Hash) (number : UInt64) : Probe Bytes :=
  readCheckedRLP .bodiesTable (blockBodyKey number hash) hash number

/-- `ReadReceiptsRLP`. -/
def readReceiptsRLP (hash : Hash) (number : UInt64) : Probe Bytes :=
  readCheckedRLP .receiptTable (blockReceiptsKey number hash) hash number

/-- `ReadTdRLP`. -/
def readTdRLP (hash : Hash) (number : UInt64) : Probe Bytes :=
  readCheckedRLP .difficultyTable (headerTDKey number hash) hash number

/-- `ReadCanonicalBodyRLP`: the ancient body at `number` without a hash check, else the
live body under the canonical hash, else the ancient body again. -/
def readCanonicalBodyRLP (number : UInt64) : Probe Bytes := do
  let mut data ← ancientData .bodiesTable number
  if data.isEmpty then
    let hash ← readCanonicalHash number
    data ← getData (blockBodyKey number hash)
    if data.isEmpty then
      data ← ancientData .bodiesTable number
  return data

/-- The shared body of `HasHeader`, `HasBody` and `HasReceipts`: the ancient hash at
`number` is `hash`, or the live store has `key`. -/
def hasAncientOrLive (key : Bytes) (hash : Hash) (number : UInt64) : Probe Bool :=
  ancient .hashTable number fun item =>
    if item.map bytesToHash = some hash then done true
    else has key done

/-- `HasHeader`. -/
def hasHeader (hash : Hash) (number : UInt64) : Probe Bool :=
  hasAncientOrLive (headerKey number hash) hash number

/-- `HasBody`. -/
def hasBody (hash : Hash) (number : UInt64) : Probe Bool :=
  hasAncientOrLive (blockBodyKey number hash) hash number

/-- `HasReceipts`. -/
def hasReceipts (hash : Hash) (number : UInt64) : Probe Bool :=
  hasAncientOrLive (blockReceiptsKey number hash) hash number

/-- `ReadHeader`: the decoded header, `none` when absent or undecodable. -/
def readHeader (codec : HeaderCodec) (hash : Hash) (number : UInt64) :
    Probe (Option Header) := do
  let data ← readHeaderRLP hash number
  if data.isEmpty then return none
  return codec.decodeHeader data

/-! ## Quiescent evaluation -/

section Quiescent

variable (db : Database) (hash : Hash) (number : UInt64)

theorem eval_readHeaderRLP :
    (readHeaderRLP hash number).eval db =
      if (db.ancientAt .headerTable number).getD [] ≠ [] then
        (db.ancientAt .headerTable number).getD []
      else (db.live.get (headerKey number hash)).getD [] := by
  simp only [readHeaderRLP, bind_eq, pure_eq, eval_bind, eval_ancientData, eval_getData,
    apply_ite (eval db)]
  split_ifs <;> simp_all

theorem eval_readHeader (codec : HeaderCodec) :
    (readHeader codec hash number).eval db =
      if (readHeaderRLP hash number).eval db = [] then none
      else codec.decodeHeader ((readHeaderRLP hash number).eval db) := by
  simp only [readHeader, bind_eq, pure_eq, eval_bind, apply_ite (eval db), eval_done,
    List.isEmpty_iff]

theorem eval_ancientChecked (table : Table) :
    (ancientChecked table hash number).eval db =
      if (db.ancientAt table number).getD [] ≠ [] ∧
          bytesToHash ((db.ancientAt .hashTable number).getD []) = hash then
        (db.ancientAt table number).getD []
      else [] := by
  simp only [ancientChecked, bind_eq, pure_eq, eval_bind, eval_ancientData]
  split_ifs <;> simp_all

theorem eval_readCheckedRLP (table : Table) (key : Bytes) :
    (readCheckedRLP table key hash number).eval db =
      if (ancientChecked table hash number).eval db ≠ [] then
        (ancientChecked table hash number).eval db
      else (db.live.get key).getD [] := by
  simp only [readCheckedRLP, bind_eq, pure_eq, eval_bind, eval_getData, apply_ite (eval db)]
  split_ifs <;> simp_all

theorem eval_readCanonicalHash :
    (readCanonicalHash number).eval db =
      if (db.ancientAt .hashTable number).getD [] ≠ [] then
        bytesToHash ((db.ancientAt .hashTable number).getD [])
      else if (db.live.get (headerHashKey number)).getD [] ≠ [] then
        bytesToHash ((db.live.get (headerHashKey number)).getD [])
      else Hash.zero := by
  simp only [readCanonicalHash, bind_eq, pure_eq, eval_bind, eval_ancientData, eval_getData,
    apply_ite (eval db)]
  split_ifs <;> simp_all

theorem eval_readCanonicalBodyRLP :
    (readCanonicalBodyRLP number).eval db =
      if (db.ancientAt .bodiesTable number).getD [] ≠ [] then
        (db.ancientAt .bodiesTable number).getD []
      else (db.live.get (blockBodyKey number ((readCanonicalHash number).eval db))).getD [] := by
  simp only [readCanonicalBodyRLP, bind_eq, pure_eq, eval_bind, eval_ancientData,
    eval_getData, apply_ite (eval db)]
  split_ifs <;> simp_all

theorem eval_hasAncientOrLive (key : Bytes) :
    (hasAncientOrLive key hash number).eval db =
      ((db.ancientAt .hashTable number).map bytesToHash = some hash ∨ db.live.has key) := by
  simp only [hasAncientOrLive, eval]
  split_ifs with hashMatches <;> simp [hashMatches, eval]

end Quiescent

end Rawdb
