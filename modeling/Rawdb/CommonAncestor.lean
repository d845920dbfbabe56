import Rawdb.ReadPath
import Rawdb.SampleCodec

/-!
# The common-ancestor search

`FindCommonAncestor` walks the higher of two headers down along parent links until both
stand at the same height, then walks both down in lockstep until their hashes agree. Each
step reads the parent with `ReadHeader(parentHash, number - 1)` and gives up with `nil`
when the read finds nothing. The loops carry a fuel argument here, `none` standing for a
run that has not finished within it. When every stored header is filed under its own
number, each step lowers the height by one, and the search finishes within the sum of the
two heights plus two (`findCommonAncestor_terminates`).

`ReadHeader` takes an ancient header at the asked number without comparing its hash
(`Rawdb.Quiescent`). A walk that asks for a non-canonical parent at a frozen height is
handed the canonical header instead, and the search can return a header that is not an
ancestor of its argument (`findCommonAncestor_returns_non_ancestor`).
-/

namespace Rawdb

open Probe

/-- The read of one walk step: `ReadHeader(db, header.ParentHash, header.Number - 1)`. -/
def readParent (codec : HeaderCodec) (db : Database) (header : Header) : Option Header :=
  (readHeader codec header.parentHash (header.number - 1)).eval db

/-- The first two loops: walk `header` down along parents while it stands above `bound`;
`some none` where a parent is missing. -/
def walkDown (codec : HeaderCodec) (db : Database) (bound : UInt64) :
    Nat → Header → Option (Option Header)
  | 0, _ => none
  | fuel + 1, header =>
      if bound < header.number then
        match readParent codec db header with
        | none => some none
        | some parent => walkDown codec db bound fuel parent
      else some (some header)

/-- The third loop: walk both headers down until their hashes agree. -/
def walkLockstep (codec : HeaderCodec) (db : Database) :
    Nat → Header → Header → Option (Option Header)
  | 0, _, _ => none
  | fuel + 1, a, b =>
      if codec.hash a ≠ codec.hash b then
        match readParent codec db a with
        | none => some none
        | some a' =>
            match readParent codec db b with
            | none => some none
            | some b' => walkLockstep codec db fuel a' b'
      else some (some a)

/-- `FindCommonAncestor`, each loop given `fuel` iterations. -/
def findCommonAncestor (codec : HeaderCodec) (db : Database) (fuel : Nat) (a b : Header) :
    Option (Option Header) :=
  match walkDown codec db b.number fuel a with
  | none => none
  | some none => some none
  | some (some a) =>
      match walkDown codec db a.number fuel b with
      | none => none
      | some none => some none
      | some (some b) => walkLockstep codec db fuel a b

/-- `ancestor` is `header` or reached from it by moving to a header whose hash is the
current parent hash and whose number is one lower. -/
inductive IsAncestor (hash : Header → Hash) : Header → Header → Prop
  | refl (header : Header) : IsAncestor hash header header
  | parent {child parent ancestor : Header} (linked : hash parent = child.parentHash)
      (lower : parent.number.toNat + 1 = child.number.toNat) :
      IsAncestor hash parent ancestor → IsAncestor hash child ancestor

theorem IsAncestor.number_le {hash : Header → Hash} {header ancestor : Header}
    (isAncestor : IsAncestor hash header ancestor) :
    ancestor.number.toNat ≤ header.number.toNat := by
  induction isAncestor with
  | refl => exact Nat.le_refl _
  | parent _ lower _ ih => omega

/-- An ancestor at the header's own height is the header itself. -/
theorem IsAncestor.eq_of_number {hash : Header → Hash} {header ancestor : Header}
    (isAncestor : IsAncestor hash header ancestor)
    (same : ancestor.number.toNat = header.number.toNat) : ancestor = header := by
  cases isAncestor with
  | refl => rfl
  | parent _ lower above => have := above.number_le; omega

/-- An ancestor other than the header itself is an ancestor of a parent of it. -/
theorem IsAncestor.parent_of_ne {hash : Header → Hash} {header ancestor : Header}
    (isAncestor : IsAncestor hash header ancestor) (other : ancestor ≠ header) :
    ∃ parent, hash parent = header.parentHash ∧ parent.number.toNat + 1 = header.number.toNat ∧
      IsAncestor hash parent ancestor := by
  cases isAncestor with
  | refl => exact absurd rfl other
  | parent linked lower above => exact ⟨_, linked, lower, above⟩

/-! ## Filed stores -/

/-- Each stored header is filed under its own number and hash: live under
`headerKey(n, h)`, and ancient at index `n` with hash-table entry `h`. -/
structure HeadersFiled (codec : HeaderCodec) (db : Database) : Prop where
  live : ∀ number hash value, db.live.get (headerKey number hash) = some value →
    ∃ header, value = codec.encodeHeader header ∧ header.number = number ∧
      codec.hash header = hash
  ancient : ∀ number item, db.ancientAt .headerTable number = some item →
    ∃ header, item = codec.encodeHeader header ∧ header.number = number ∧
      db.ancientAt .hashTable number = some (codec.hash header).bytes

/-- No header is stored at number `2^64 - 1`, the number a walk asks for below genesis. -/
def NoneAtTop (db : Database) : Prop :=
  (∀ hash, db.live.get (headerKey (0 - 1) hash) = none) ∧ db.ancientAt .headerTable (0 - 1) = none

section Filed

variable {codec : HeaderCodec} {db : Database}

/-- On a filed store `ReadHeaderRLP` at `number` finds nothing or the encoding of a header
numbered `number`. -/
theorem readHeaderRLP_filed (filed : HeadersFiled codec db) (hash : Hash) (number : UInt64) :
    (readHeaderRLP hash number).eval db = [] ∨ ∃ header,
      (readHeaderRLP hash number).eval db = codec.encodeHeader header ∧ header.number = number := by
  rw [eval_readHeaderRLP]
  split_ifs with found
  · cases seen : db.ancientAt .headerTable number with
    | none => simp [seen] at found
    | some item =>
        obtain ⟨header, rfl, numbered, -⟩ := filed.ancient number item seen
        exact .inr ⟨header, rfl, numbered⟩
  · cases stored : db.live.get (headerKey number hash) with
    | none => exact .inl rfl
    | some value =>
        obtain ⟨header, rfl, numbered, -⟩ := filed.live number hash value stored
        exact .inr ⟨header, rfl, numbered⟩

/-- On a filed store a header read at `number` is numbered `number`. -/
theorem number_of_readHeader (filed : HeadersFiled codec db) {hash : Hash} {number : UInt64}
    {header : Header} (read : (readHeader codec hash number).eval db = some header) :
    header.number = number := by
  rw [eval_readHeader] at read
  rcases readHeaderRLP_filed filed hash number with empty | ⟨stored, encoded, numbered⟩
  · simp [empty] at read
  · rw [encoded, codec.decodeHeader_encodeHeader] at read
    split_ifs at read
    exact (Option.some.inj read) ▸ numbered

/-- Below genesis the walk finds nothing. -/
theorem readHeader_top (noTop : NoneAtTop db) (hash : Hash) :
    (readHeader codec hash (0 - 1)).eval db = none := by
  rw [eval_readHeader, eval_readHeaderRLP, noTop.2, noTop.1 hash]
  simp

/-- Each walk step on a filed store lowers the height by exactly one. -/
theorem readParent_lowers (filed : HeadersFiled codec db) (noTop : NoneAtTop db)
    {header parent : Header} (read : readParent codec db header = some parent) :
    parent.number.toNat + 1 = header.number.toNat := by
  have numbered := number_of_readHeader filed read
  by_cases genesis : header.number = 0
  · rw [readParent, genesis, readHeader_top noTop] at read
    cases read
  · have positive : 0 < header.number.toNat :=
      Nat.pos_of_ne_zero fun zero => genesis (UInt64.toNat.inj zero)
    have one_le : (1 : UInt64) ≤ header.number := UInt64.le_iff_toNat_le.mpr positive
    rw [numbered, UInt64.toNat_sub_of_le _ _ one_le]
    exact Nat.sub_add_cancel positive

end Filed

/-! ## Termination -/

section Termination

variable {codec : HeaderCodec} {db : Database} (filed : HeadersFiled codec db)
  (noTop : NoneAtTop db)

include filed noTop in
/-- A walk down to `bound` finishes within one step more than the heights between; when it
returns a header, that header stands at the lower of its start and `bound`. -/
theorem walkDown_finishes (bound : UInt64) (fuel : Nat) (header : Header)
    (enough : header.number.toNat - bound.toNat < fuel) :
    walkDown codec db bound fuel header = some none ∨ ∃ result,
      walkDown codec db bound fuel header = some (some result) ∧
        result.number.toNat = min header.number.toNat bound.toNat := by
  induction fuel generalizing header with
  | zero => omega
  | succ fuel ih =>
      rw [walkDown]
      split_ifs with above
      · rw [UInt64.lt_iff_toNat_lt] at above
        cases read : readParent codec db header with
        | none => exact .inl rfl
        | some parent =>
            have lowered := readParent_lowers filed noTop read
            rcases ih parent (by omega) with missing | ⟨result, walked, numbered⟩
            · exact .inl missing
            · exact .inr ⟨result, walked, by omega⟩
      · rw [UInt64.lt_iff_toNat_lt] at above
        exact .inr ⟨header, rfl, by omega⟩

include filed noTop in
/-- The lockstep walk from equal heights finishes within two steps more than the height. -/
theorem walkLockstep_finishes (fuel : Nat) (a b : Header) (level : a.number = b.number)
    (enough : a.number.toNat + 1 < fuel) : (walkLockstep codec db fuel a b).isSome := by
  induction fuel generalizing a b with
  | zero => omega
  | succ fuel ih =>
      rw [walkLockstep]
      split_ifs
      · cases readA : readParent codec db a with
        | none => rfl
        | some a' =>
            cases readB : readParent codec db b with
            | none => rfl
            | some b' =>
                have loweredA := readParent_lowers filed noTop readA
                have loweredB := readParent_lowers filed noTop readB
                exact ih a' b' (UInt64.toNat.inj (by rw [level] at loweredA; omega)) (by omega)
      · rfl

include filed noTop in
/-- `FindCommonAncestor` terminates: on a filed store with no header at `2^64 - 1` it
finishes within the sum of the two heights plus two iterations of each loop. -/
theorem findCommonAncestor_terminates (a b : Header) :
    (findCommonAncestor codec db (a.number.toNat + b.number.toNat + 2) a b).isSome := by
  rcases walkDown_finishes filed noTop b.number (a.number.toNat + b.number.toNat + 2) a
    (by omega) with missing | ⟨a', walkedA, levelA⟩
  · simp only [findCommonAncestor, missing, Option.isSome_some]
  rcases walkDown_finishes filed noTop a'.number (a.number.toNat + b.number.toNat + 2) b
    (by omega) with missing | ⟨b', walkedB, levelB⟩
  · simp only [findCommonAncestor, walkedA, missing, Option.isSome_some]
  simp only [findCommonAncestor, walkedA, walkedB]
  exact walkLockstep_finishes filed noTop _ a' b' (UInt64.toNat.inj (by omega)) (by omega)

end Termination

/-! ## A frozen fork point -/

/-- The genesis header of the samples below. -/
def ancestorGenesis : Header := ⟨0, Hash.zero, []⟩
/-- The canonical header at height 1. -/
def ancestorCanonical : Header := ⟨1, sampleHash ancestorGenesis, []⟩
/-- A fork's header at height 1, also a child of genesis. -/
def ancestorFork : Header := ⟨1, sampleHash ancestorGenesis, [1]⟩
/-- The fork's header at height 2. -/
def ancestorForkChild : Header := ⟨2, sampleHash ancestorFork, []⟩

/-- The freezer holds the canonical headers at heights 0 and 1; the live store holds the
fork's headers, each under its number and hash. -/
def forkedChainStore : Database :=
  ⟨(KeyValueStore.empty.put (headerKey 1 (sampleHash ancestorFork))
      (Format.header.encode ancestorFork)).put (headerKey 2 (sampleHash ancestorForkChild))
      (Format.header.encode ancestorForkChild),
    fun
      | .hashTable => [(sampleHash ancestorGenesis).bytes, (sampleHash ancestorCanonical).bytes]
      | .headerTable => [Format.header.encode ancestorGenesis, Format.header.encode ancestorCanonical]
      | _ => []⟩

theorem forkedChainStore_filed : HeadersFiled sampleCodec.toHeaderCodec forkedChainStore where
  live number hash value stored := by
    simp only [forkedChainStore, KeyValueStore.get_put, headerKey_inj, KeyValueStore.get_empty]
      at stored
    split_ifs at stored with child fork <;> cases stored
    · obtain ⟨rfl, rfl⟩ := child
      exact ⟨ancestorForkChild, rfl, rfl, rfl⟩
    · obtain ⟨rfl, rfl⟩ := fork
      exact ⟨ancestorFork, rfl, rfl, rfl⟩
  ancient number item seen := by
    obtain ⟨inRange, -⟩ := List.getElem?_eq_some_iff.mp seen
    have : number.toNat = (0 : UInt64).toNat ∨ number.toNat = (1 : UInt64).toNat := by
      simp [forkedChainStore] at inRange ⊢
      omega
    rcases this with zero | one
    · cases UInt64.toNat.inj zero
      cases seen
      exact ⟨ancestorGenesis, rfl, rfl, rfl⟩
    · cases UInt64.toNat.inj one
      cases seen
      exact ⟨ancestorCanonical, rfl, rfl, rfl⟩

theorem forkedChainStore_noneAtTop : NoneAtTop forkedChainStore := by
  have notTwo : (0 - 1 : UInt64) ≠ 2 := by decide
  have notOne : (0 - 1 : UInt64) ≠ 1 := by decide
  refine ⟨fun hash => ?_, List.getElem?_eq_none (by decide)⟩
  simp only [forkedChainStore, KeyValueStore.get_put, headerKey_inj, notTwo, notOne,
    false_and, if_false, KeyValueStore.get_empty]

/-- The search on the forked chain finishes within the bound `findCommonAncestor_terminates`
gives. -/
theorem findCommonAncestor_terminates_sample :
    HeadersFiled sampleCodec.toHeaderCodec forkedChainStore ∧ NoneAtTop forkedChainStore ∧
      (findCommonAncestor sampleCodec.toHeaderCodec forkedChainStore
        (ancestorForkChild.number.toNat + ancestorCanonical.number.toNat + 2) ancestorForkChild
        ancestorCanonical).isSome :=
  ⟨forkedChainStore_filed, forkedChainStore_noneAtTop,
    findCommonAncestor_terminates forkedChainStore_filed forkedChainStore_noneAtTop _ _⟩

/-- The search from the fork's head and the canonical header at height 1 returns the
canonical header, which is not an ancestor of the fork's head: asked for the fork's header
at height 1, `ReadHeader` returns the canonical one from the freezer. Both headers descend
from genesis, the answer the search should give. -/
theorem findCommonAncestor_returns_non_ancestor :
    HeadersFiled sampleCodec.toHeaderCodec forkedChainStore ∧ NoneAtTop forkedChainStore ∧
      findCommonAncestor sampleCodec.toHeaderCodec forkedChainStore 5 ancestorForkChild
        ancestorCanonical = some (some ancestorCanonical) ∧
      ¬ IsAncestor sampleHash ancestorForkChild ancestorCanonical ∧
      IsAncestor sampleHash ancestorForkChild ancestorGenesis ∧
      IsAncestor sampleHash ancestorCanonical ancestorGenesis := by
  refine ⟨forkedChainStore_filed, forkedChainStore_noneAtTop, ?_, ?_, ?_, ?_⟩
  · simp [findCommonAncestor, walkDown, walkLockstep, readParent, eval_readHeader,
      eval_readHeaderRLP, forkedChainStore, Database.ancientAt, ancestorForkChild,
      ancestorCanonical]
  · intro isAncestor
    obtain ⟨parent, linked, lower, above⟩ := isAncestor.parent_of_ne (by decide)
    have one : ancestorCanonical.number.toNat = 1 := rfl
    have two : ancestorForkChild.number.toNat = 2 := rfl
    have same := above.eq_of_number (by omega)
    subst same
    exact absurd linked (by decide)
  · exact .parent (rfl : sampleHash ancestorFork = ancestorForkChild.parentHash) rfl
      (.parent (rfl : sampleHash ancestorGenesis = ancestorFork.parentHash) rfl (.refl _))
  · exact .parent (rfl : sampleHash ancestorGenesis = ancestorCanonical.parentHash) rfl (.refl _)

end Rawdb
