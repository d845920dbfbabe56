import Rawdb.CommonAncestor

/-!
# What the common-ancestor search returns

`FindCommonAncestor` knows the chain only through `ReadHeader`: from a header it moves to
whatever `ReadHeader(parentHash, number - 1)` returns. `Chain codec db header ancestor`
says that the search's steps lead from `header` to `ancestor`. On a filed store each step
lowers the height by one, so a chain has at most one header at each height
(`Chain.eq_of_number`), and the three loops do what the comment above the function
promises: the search returns a header of `a`'s chain whose hash the header of `b`'s chain
at the same height shares, and above it the two chains never share a hash at one height
(`findCommonAncestor_last`). Conversely, given the fuel of `findCommonAncestor_terminates`,
it returns a header whenever the chains share a hash at some height, so it returns `nil`
only when they share none (`findCommonAncestor_finds_iff`).

These are the chains of the store, not of the hash links. Where `ReadHeader` answers a
request with a header of another hash, as it does at frozen heights
(`findCommonAncestor_returns_non_ancestor`), a chain leaves the block's ancestry. Where
every answer has the asked hash (`HashFaithful`, which holds on a filed store with no
frozen header), each step is a parent link and the result is a common ancestor of both
headers (`findCommonAncestor_ancestor`).
-/

namespace Rawdb

open Relation

/-- The search moves from `header` to `parent`. -/
def ParentStep (codec : HeaderCodec) (db : Database) (header parent : Header) : Prop :=
  readParent codec db header = some parent

/-- `ancestor` is reached from `header` by the search's steps. -/
def Chain (codec : HeaderCodec) (db : Database) : Header → Header → Prop :=
  ReflTransGen (ParentStep codec db)

section Chains

variable {codec : HeaderCodec} {db : Database}

theorem parentStep_rightUnique : Relator.RightUnique (ParentStep codec db) :=
  fun _ _ _ first second => Option.some.inj (first.symm.trans second)

/-- A chain continues through the parent the search reads. -/
theorem Chain.of_parent {header parent ancestor : Header}
    (read : readParent codec db header = some parent) (chain : Chain codec db parent ancestor) :
    Chain codec db header ancestor :=
  ReflTransGen.head read chain

/-- A chain member other than the start is on the chain of the start's parent. -/
theorem Chain.parent_of_ne {header parent ancestor : Header}
    (read : readParent codec db header = some parent) (chain : Chain codec db header ancestor)
    (other : ancestor ≠ header) : Chain codec db parent ancestor := by
  rcases chain.cases_head with same | ⟨next, step, rest⟩
  · exact absurd same.symm other
  · exact (Option.some.inj (step.symm.trans read)) ▸ rest

variable (filed : HeadersFiled codec db) (noTop : NoneAtTop db)
include filed noTop

/-- Every step of a chain lowers the height. -/
theorem Chain.eq_or_number_lt {header ancestor : Header} (chain : Chain codec db header ancestor) :
    ancestor = header ∨ ancestor.number.toNat < header.number.toNat := by
  induction chain with
  | refl => exact .inl rfl
  | tail _ step ih =>
      have lowered := readParent_lowers filed noTop step
      exact .inr (by rcases ih with rfl | below <;> omega)

theorem Chain.number_le {header ancestor : Header} (chain : Chain codec db header ancestor) :
    ancestor.number.toNat ≤ header.number.toNat := by
  rcases chain.eq_or_number_lt filed noTop with rfl | below <;> omega

/-- Of two members of one chain, the lower is on the chain of the higher. -/
theorem Chain.of_number_le {header upper lower : Header} (toUpper : Chain codec db header upper)
    (toLower : Chain codec db header lower) (le : lower.number.toNat ≤ upper.number.toNat) :
    Chain codec db upper lower := by
  rcases ReflTransGen.total_of_right_unique parentStep_rightUnique toUpper toLower with
    down | up
  · exact down
  · rcases Chain.eq_or_number_lt filed noTop up with same | below
    · exact same ▸ .refl
    · omega

/-- A chain has one member at each height. -/
theorem Chain.eq_of_number {header first second : Header} (toFirst : Chain codec db header first)
    (toSecond : Chain codec db header second) (same : first.number = second.number) :
    first = second := by
  have down := toFirst.of_number_le filed noTop toSecond (by rw [same])
  rcases Chain.eq_or_number_lt filed noTop down with equal | below
  · exact equal.symm
  · rw [same] at below
    omega

end Chains

/-! ## The loops -/

section Loops

variable {codec : HeaderCodec} {db : Database} (filed : HeadersFiled codec db)
  (noTop : NoneAtTop db)
include filed noTop

/-- A walk down returns the member of its start's chain at the lower of the start's
height and the bound. -/
theorem walkDown_spec {bound : UInt64} {fuel : Nat} {header result : Header}
    (walked : walkDown codec db bound fuel header = some (some result)) :
    Chain codec db header result ∧
      result.number.toNat = min header.number.toNat bound.toNat := by
  induction fuel generalizing header with
  | zero => cases walked
  | succ fuel ih =>
      rw [walkDown] at walked
      split_ifs at walked with above <;> rw [UInt64.lt_iff_toNat_lt] at above
      · cases read : readParent codec db header with
        | none => simp [read] at walked
        | some parent =>
            rw [read] at walked
            have lowered := readParent_lowers filed noTop read
            obtain ⟨chain, level⟩ := ih walked
            exact ⟨.of_parent read chain, by omega⟩
      · cases walked
        exact ⟨.refl, by omega⟩

/-- The lockstep walk from two headers at one height returns a member of the first's
chain whose hash the second's chain has at the same height, and above it the chains
share no hash at any height. -/
theorem walkLockstep_spec {fuel : Nat} {a b result : Header} (level : a.number = b.number)
    (walked : walkLockstep codec db fuel a b = some (some result)) :
    Chain codec db a result ∧
      (∃ partner, Chain codec db b partner ∧ partner.number = result.number ∧
        codec.hash partner = codec.hash result) ∧
      ∀ u v, Chain codec db a u → Chain codec db b v → u.number = v.number →
        codec.hash u = codec.hash v → u.number.toNat ≤ result.number.toNat := by
  induction fuel generalizing a b with
  | zero => cases walked
  | succ fuel ih =>
      rw [walkLockstep] at walked
      split_ifs at walked with differ
      · cases readA : readParent codec db a with
        | none => simp [readA] at walked
        | some a' =>
        cases readB : readParent codec db b with
        | none => simp [readA, readB] at walked
        | some b' =>
        simp only [readA, readB] at walked
        have loweredA := readParent_lowers filed noTop readA
        have loweredB := readParent_lowers filed noTop readB
        have level' : a'.number = b'.number :=
          UInt64.toNat.inj (by rw [level] at loweredA; omega)
        obtain ⟨chain, ⟨partner, partnerChain, partnerLevel, partnerHash⟩, last⟩ :=
          ih level' walked
        refine ⟨.of_parent readA chain, ⟨partner, .of_parent readB partnerChain, partnerLevel,
          partnerHash⟩, fun u v toU toV same sameHash => ?_⟩
        by_cases top : u = a
        · subst top
          have : v = b := toV.eq_of_number filed noTop .refl (same.symm.trans level)
          exact absurd (this ▸ sameHash) differ
        · have notB : v ≠ b := fun isB =>
            top (toU.eq_of_number filed noTop .refl (by rw [same, isB, ← level]))
          exact last u v (toU.parent_of_ne readA top) (toV.parent_of_ne readB notB) same sameHash
      · cases walked
        exact ⟨.refl, ⟨b, .refl, level.symm, (not_not.mp differ).symm⟩,
          fun u _ toU _ _ _ => toU.number_le filed noTop⟩

end Loops

/-! ## The search -/

section Search

variable {codec : HeaderCodec} {db : Database} (filed : HeadersFiled codec db)
  (noTop : NoneAtTop db)
include filed noTop

/-- A search that returns a header is the lockstep walk from the members of the two chains
at the lower of the two heights. -/
theorem findCommonAncestor_eq_walkLockstep {fuel : Nat} {a b result : Header}
    (found : findCommonAncestor codec db fuel a b = some (some result)) :
    ∃ a' b', Chain codec db a a' ∧ Chain codec db b b' ∧ a'.number = b'.number ∧
      a'.number.toNat = min a.number.toNat b.number.toNat ∧
      walkLockstep codec db fuel a' b' = some (some result) := by
  unfold findCommonAncestor at found
  rcases walkedA : walkDown codec db b.number fuel a with _ | _ | a'
  · simp [walkedA] at found
  · simp [walkedA] at found
  rcases walkedB : walkDown codec db a'.number fuel b with _ | _ | b'
  · simp [walkedA, walkedB] at found
  · simp [walkedA, walkedB] at found
  simp only [walkedA, walkedB] at found
  obtain ⟨chainA, levelA⟩ := walkDown_spec filed noTop walkedA
  obtain ⟨chainB, levelB⟩ := walkDown_spec filed noTop walkedB
  exact ⟨a', b', chainA, chainB, UInt64.toNat.inj (by omega), levelA, found⟩

/-- `FindCommonAncestor` returns the last common ancestor of the chains `ReadHeader` shows
it: a header of `a`'s chain whose hash `b`'s chain has at the same height, and no two
headers of the chains at one height above it share a hash. -/
theorem findCommonAncestor_last {fuel : Nat} {a b result : Header}
    (found : findCommonAncestor codec db fuel a b = some (some result)) :
    Chain codec db a result ∧
      (∃ partner, Chain codec db b partner ∧ partner.number = result.number ∧
        codec.hash partner = codec.hash result) ∧
      ∀ u v, Chain codec db a u → Chain codec db b v → u.number = v.number →
        codec.hash u = codec.hash v → u.number.toNat ≤ result.number.toNat := by
  obtain ⟨a', b', chainA, chainB, level, lowest, walked⟩ :=
    findCommonAncestor_eq_walkLockstep filed noTop found
  obtain ⟨chain, ⟨partner, partnerChain, partnerLevel, partnerHash⟩, last⟩ :=
    walkLockstep_spec filed noTop level walked
  refine ⟨chainA.trans chain, ⟨partner, chainB.trans partnerChain, partnerLevel, partnerHash⟩,
    fun u v toU toV same sameHash => ?_⟩
  have uBelowA := Chain.number_le filed noTop toU
  have vBelowB := Chain.number_le filed noTop toV
  have sameNat := congrArg UInt64.toNat same
  have levelNat := congrArg UInt64.toNat level
  exact last u v (Chain.of_number_le filed noTop chainA toU (by omega))
    (Chain.of_number_le filed noTop chainB toV (by omega)) same sameHash

end Search

/-- On the forked chain of `forkedChainStore` the search returns the canonical header at
height 1, which is the last common ancestor of the chains the store shows: the fork's
head reaches it through the frozen header at height 1. -/
theorem findCommonAncestor_last_forked :
    HeadersFiled sampleCodec.toHeaderCodec forkedChainStore ∧ NoneAtTop forkedChainStore ∧
      findCommonAncestor sampleCodec.toHeaderCodec forkedChainStore 5 ancestorForkChild
        ancestorCanonical = some (some ancestorCanonical) ∧
      Chain sampleCodec.toHeaderCodec forkedChainStore ancestorForkChild ancestorCanonical ∧
      (∃ partner, Chain sampleCodec.toHeaderCodec forkedChainStore ancestorCanonical partner ∧
        partner.number = ancestorCanonical.number ∧
        sampleHash partner = sampleHash ancestorCanonical) ∧
      ∀ u v, Chain sampleCodec.toHeaderCodec forkedChainStore ancestorForkChild u →
        Chain sampleCodec.toHeaderCodec forkedChainStore ancestorCanonical v →
        u.number = v.number → sampleHash u = sampleHash v →
        u.number.toNat ≤ ancestorCanonical.number.toNat :=
  have found : findCommonAncestor sampleCodec.toHeaderCodec forkedChainStore 5 ancestorForkChild
      ancestorCanonical = some (some ancestorCanonical) := by
    simp [findCommonAncestor, walkDown, walkLockstep, readParent, eval_readHeader,
      eval_readHeaderRLP, forkedChainStore, Database.ancientAt, ancestorForkChild,
      ancestorCanonical]
  ⟨forkedChainStore_filed, forkedChainStore_noneAtTop, found,
    findCommonAncestor_last forkedChainStore_filed forkedChainStore_noneAtTop found⟩

/-! ## Finding a common ancestor whenever there is one -/

section Completeness

variable {codec : HeaderCodec} {db : Database} (filed : HeadersFiled codec db)
  (noTop : NoneAtTop db)
include filed noTop

/-- A walk down a chain that reaches the bound's height returns a header. -/
theorem walkDown_of_chain {bound : UInt64} {fuel : Nat} {header member : Header}
    (chain : Chain codec db header member) (below : member.number.toNat ≤ bound.toNat)
    (enough : header.number.toNat - bound.toNat < fuel) :
    ∃ result, walkDown codec db bound fuel header = some (some result) := by
  induction fuel generalizing header with
  | zero => omega
  | succ fuel ih =>
      rw [walkDown]
      split_ifs with above
      · rw [UInt64.lt_iff_toNat_lt] at above
        rcases chain.cases_head with same | ⟨parent, read, rest⟩
        · subst same
          omega
        · have read' : readParent codec db header = some parent := read
          have lowered := readParent_lowers filed noTop read'
          simp only [read']
          exact ih rest (by omega)
      · exact ⟨header, rfl⟩

/-- The lockstep walk from two headers at one height whose chains share a hash at some
height returns a header. -/
theorem walkLockstep_of_common {fuel : Nat} {a b u v : Header} (level : a.number = b.number)
    (toU : Chain codec db a u) (toV : Chain codec db b v) (same : u.number = v.number)
    (sameHash : codec.hash u = codec.hash v) (enough : a.number.toNat - u.number.toNat < fuel) :
    ∃ result, walkLockstep codec db fuel a b = some (some result) := by
  induction fuel generalizing a b with
  | zero => omega
  | succ fuel ih =>
      rw [walkLockstep]
      split_ifs with differ
      · have notV : v ≠ b := fun isB => differ (by
          rw [← toU.eq_of_number filed noTop .refl (by rw [same, isB, level]), ← isB, sameHash])
        have notU : u ≠ a := fun isA =>
          notV (toV.eq_of_number filed noTop .refl (by rw [← same, isA, level]))
        rcases toU.cases_head with sameA | ⟨a', readA, restA⟩
        · exact absurd sameA.symm notU
        rcases toV.cases_head with sameB | ⟨b', readB, restB⟩
        · exact absurd sameB.symm notV
        have readA' : readParent codec db a = some a' := readA
        have readB' : readParent codec db b = some b' := readB
        have loweredA := readParent_lowers filed noTop readA'
        have loweredB := readParent_lowers filed noTop readB'
        have uBelow := Chain.number_le filed noTop restA
        simp only [readA', readB']
        exact ih (UInt64.toNat.inj (by rw [level] at loweredA; omega)) restA restB (by omega)
      · exact ⟨a, rfl⟩

end Completeness

/-- `FindCommonAncestor`, given the fuel it needs, returns a header exactly when the chains
`ReadHeader` shows it from `a` and `b` share a hash at some height: it returns `nil` only
when they share none. -/
theorem findCommonAncestor_finds_iff (codec : HeaderCodec) (db : Database)
    (filed : HeadersFiled codec db) (noTop : NoneAtTop db) (a b : Header) :
    (∃ result, findCommonAncestor codec db (a.number.toNat + b.number.toNat + 2) a b =
        some (some result)) ↔
      ∃ u v, Chain codec db a u ∧ Chain codec db b v ∧ u.number = v.number ∧
        codec.hash u = codec.hash v := by
  constructor
  · rintro ⟨result, found⟩
    obtain ⟨a', b', chainA, chainB, level, -, walked⟩ :=
      findCommonAncestor_eq_walkLockstep filed noTop found
    obtain ⟨chain, ⟨partner, partnerChain, partnerLevel, partnerHash⟩, -⟩ :=
      walkLockstep_spec filed noTop level walked
    exact ⟨result, partner, chainA.trans chain, chainB.trans partnerChain, partnerLevel.symm,
      partnerHash.symm⟩
  · rintro ⟨u, v, toU, toV, same, sameHash⟩
    have uBelow := Chain.number_le filed noTop toU
    have vBelow := Chain.number_le filed noTop toV
    have sameNat := congrArg UInt64.toNat same
    obtain ⟨a', walkedA⟩ := walkDown_of_chain filed noTop toU
      (by omega : u.number.toNat ≤ b.number.toNat)
      (by omega : a.number.toNat - b.number.toNat < a.number.toNat + b.number.toNat + 2)
    obtain ⟨chainA, levelA⟩ := walkDown_spec filed noTop walkedA
    obtain ⟨b', walkedB⟩ := walkDown_of_chain filed noTop toV
      (by omega : v.number.toNat ≤ a'.number.toNat)
      (by omega : b.number.toNat - a'.number.toNat < a.number.toNat + b.number.toNat + 2)
    obtain ⟨chainB, levelB⟩ := walkDown_spec filed noTop walkedB
    have level : a'.number = b'.number := UInt64.toNat.inj (by omega)
    obtain ⟨result, walked⟩ := walkLockstep_of_common filed noTop level
      (Chain.of_number_le filed noTop chainA toU (by omega))
      (Chain.of_number_le filed noTop chainB toV (by omega)) same sameHash
      (by omega : a'.number.toNat - u.number.toNat < a.number.toNat + b.number.toNat + 2)
    exact ⟨result, by simp only [findCommonAncestor, walkedA, walkedB, walked]⟩

theorem findCommonAncestor_finds_iff_forked :
    HeadersFiled sampleCodec.toHeaderCodec forkedChainStore ∧ NoneAtTop forkedChainStore ∧
      ((∃ result, findCommonAncestor sampleCodec.toHeaderCodec forkedChainStore
          (ancestorForkChild.number.toNat + ancestorCanonical.number.toNat + 2)
          ancestorForkChild ancestorCanonical = some (some result)) ↔
        ∃ u v, Chain sampleCodec.toHeaderCodec forkedChainStore ancestorForkChild u ∧
          Chain sampleCodec.toHeaderCodec forkedChainStore ancestorCanonical v ∧
          u.number = v.number ∧ sampleHash u = sampleHash v) :=
  ⟨forkedChainStore_filed, forkedChainStore_noneAtTop,
    findCommonAncestor_finds_iff sampleCodec.toHeaderCodec forkedChainStore
      forkedChainStore_filed forkedChainStore_noneAtTop ancestorForkChild ancestorCanonical⟩

/-! ## Stores that honour the asked hash -/

theorem headersFiled_empty (codec : HeaderCodec) :
    HeadersFiled codec ⟨KeyValueStore.empty, fun _ => []⟩ where
  live _ _ _ stored := by cases stored
  ancient _ _ seen := by cases seen

/-- Filing a header under its own number and hash keeps a store filed. -/
theorem HeadersFiled.put {codec : HeaderCodec} {db : Database} (filed : HeadersFiled codec db)
    (header : Header) :
    HeadersFiled codec
      ⟨db.live.put (headerKey header.number (codec.hash header)) (codec.encodeHeader header),
        db.ancient⟩ where
  live number hash value stored := by
    rw [KeyValueStore.get_put] at stored
    split_ifs at stored with same
    · obtain ⟨rfl, rfl⟩ := headerKey_inj.mp same
      cases stored
      exact ⟨header, rfl, rfl, rfl⟩
    · exact filed.live number hash value stored
  ancient := filed.ancient

/-- Every header `ReadHeader` returns has the hash it was asked for. -/
def HashFaithful (codec : HeaderCodec) (db : Database) : Prop :=
  ∀ hash number header, (readHeader codec hash number).eval db = some header →
    codec.hash header = hash

section Faithful

variable {codec : HeaderCodec} {db : Database} (filed : HeadersFiled codec db)

include filed in
/-- On a filed store with no frozen header, `ReadHeader` honours the asked hash. -/
theorem hashFaithful_of_unfrozen (unfrozen : ∀ number, db.ancientAt .headerTable number = none) :
    HashFaithful codec db := by
  intro hash number header read
  rw [eval_readHeader, eval_readHeaderRLP, unfrozen] at read
  cases stored : db.live.get (headerKey number hash) with
  | none => simp [stored] at read
  | some value =>
      obtain ⟨stored', rfl, -, hashed⟩ := filed.live number hash value stored
      simp only [stored, Option.getD_none, Option.getD_some, ne_eq, not_true_eq_false,
        if_false, codec.decodeHeader_encodeHeader] at read
      split_ifs at read
      cases read
      exact hashed

variable (noTop : NoneAtTop db) (faithful : HashFaithful codec db)
include filed noTop faithful

/-- Where `ReadHeader` honours the asked hash, the search's steps are parent links. -/
theorem Chain.isAncestor {header ancestor : Header} (chain : Chain codec db header ancestor) :
    IsAncestor codec.hash header ancestor := by
  induction chain using ReflTransGen.head_induction_on with
  | refl => exact .refl _
  | head step _ ih => exact .parent (faithful _ _ _ step) (readParent_lowers filed noTop step) ih

/-- Where `ReadHeader` honours the asked hash, `FindCommonAncestor` returns an ancestor of
`a` whose hash an ancestor of `b` at the same height has. -/
theorem findCommonAncestor_ancestor {fuel : Nat} {a b result : Header}
    (found : findCommonAncestor codec db fuel a b = some (some result)) :
    IsAncestor codec.hash a result ∧ ∃ partner, IsAncestor codec.hash b partner ∧
      partner.number = result.number ∧ codec.hash partner = codec.hash result := by
  obtain ⟨a', b', chainA, chainB, level, -, walked⟩ :=
    findCommonAncestor_eq_walkLockstep filed noTop found
  obtain ⟨chain, ⟨partner, partnerChain, partnerLevel, partnerHash⟩, -⟩ :=
    walkLockstep_spec filed noTop level walked
  exact ⟨Chain.isAncestor filed noTop faithful (chainA.trans chain), partner,
    Chain.isAncestor filed noTop faithful (chainB.trans partnerChain), partnerLevel, partnerHash⟩

end Faithful

/-- The headers of `forkedChainStore`, all of them live: nothing is frozen. -/
def liveChainStore : Database :=
  ⟨[ancestorGenesis, ancestorCanonical, ancestorFork, ancestorForkChild].foldl
      (fun live header => live.put (headerKey header.number (sampleHash header))
        (Format.header.encode header))
      KeyValueStore.empty,
    fun _ => []⟩

theorem liveChainStore_filed : HeadersFiled sampleCodec.toHeaderCodec liveChainStore :=
  ((((headersFiled_empty _).put ancestorGenesis).put ancestorCanonical).put ancestorFork).put
    ancestorForkChild

theorem liveChainStore_noneAtTop : NoneAtTop liveChainStore := by
  refine ⟨fun hash => ?_, rfl⟩
  simp +decide only [liveChainStore, List.foldl, KeyValueStore.get_put, headerKey_inj,
    KeyValueStore.get_empty, ancestorGenesis, ancestorCanonical, ancestorFork, ancestorForkChild,
    false_and, if_false]

/-- With every header live, the search from the fork's head and the canonical header at
height 1 returns genesis, a common ancestor of both. -/
theorem findCommonAncestor_ancestor_live :
    HeadersFiled sampleCodec.toHeaderCodec liveChainStore ∧ NoneAtTop liveChainStore ∧
      HashFaithful sampleCodec.toHeaderCodec liveChainStore ∧
      findCommonAncestor sampleCodec.toHeaderCodec liveChainStore 5 ancestorForkChild
        ancestorCanonical = some (some ancestorGenesis) ∧
      IsAncestor sampleHash ancestorForkChild ancestorGenesis ∧
      ∃ partner, IsAncestor sampleHash ancestorCanonical partner ∧
        partner.number = ancestorGenesis.number ∧
        sampleHash partner = sampleHash ancestorGenesis :=
  have faithful : HashFaithful sampleCodec.toHeaderCodec liveChainStore :=
    hashFaithful_of_unfrozen liveChainStore_filed fun _ => rfl
  have found : findCommonAncestor sampleCodec.toHeaderCodec liveChainStore 5 ancestorForkChild
      ancestorCanonical = some (some ancestorGenesis) := by
    simp [findCommonAncestor, walkDown, walkLockstep, readParent, eval_readHeader,
      eval_readHeaderRLP, liveChainStore, Database.ancientAt, ancestorForkChild,
      ancestorCanonical, ancestorFork, ancestorGenesis]
    decide
  ⟨liveChainStore_filed, liveChainStore_noneAtTop, faithful, found,
    findCommonAncestor_ancestor liveChainStore_filed liveChainStore_noneAtTop faithful found⟩

end Rawdb
