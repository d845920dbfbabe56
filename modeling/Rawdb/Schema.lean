import Rawdb.Bytes

/-!
# The key schema

Every record of the chain store lives under a key built from a one-byte prefix, the
8-byte big-endian block number and the 32-byte block hash. The key constructors and
constants live in this package's `schema.go`, which is not among the sources. Their values
here are that file's as the package inherits it from `go-ethereum` (`headerPrefix` is
`"h"`, `headerNumberPrefix` is `"H"`, `headHeaderKey` is `"LastHeader"`, and so on); they
are not read off the spec's persisted-layout sentence, which writes the hash-to-number key
as `headerPrefix ‖ hash ‖ "h"`. The accessors agree with these values where they test a
key: `len(headerPrefix)+8+32` for header keys, `len(headerPrefix)+8+1` and
`headerHashSuffix` for canonical-hash keys. Header, total-difficulty and canonical-hash
keys share `headerPrefix` and differ in length, which is what lets the range scans of
`accessors_chain.go` tell them apart.

The lemmas of this file say which family a key belongs to by its first byte and its
length; the writers' frame lemmas and the range scans use nothing else, beyond the single
keys differing from one another.
-/

namespace Rawdb

/-- The bytes of an ASCII string literal, as Go's `[]byte("...")`. -/
def asciiBytes (text : String) : Bytes :=
  text.toList.map fun char => Fin.ofNat' 256 char.toNat

/-- From `schema.go`: `headerPrefix`, the prefix of header, total difficulty and
canonical-hash keys (`"h"`). -/
def headerPrefix : Bytes := asciiBytes "h"

/-- From `schema.go`: `headerTDSuffix` (`"t"`). -/
def headerTDSuffix : Bytes := asciiBytes "t"

/-- From `schema.go`: `headerHashSuffix`, the suffix of the canonical number-to-hash
key (`"n"`). -/
def headerHashSuffix : Bytes := asciiBytes "n"

/-- From `schema.go`: `headerNumberPrefix`, the prefix of the hash-to-number key
(`"H"`). -/
def headerNumberPrefix : Bytes := asciiBytes "H"

/-- From `schema.go`: `blockBodyPrefix` (`"b"`). -/
def blockBodyPrefix : Bytes := asciiBytes "b"

/-- From `schema.go`: `blockReceiptsPrefix` (`"r"`). -/
def blockReceiptsPrefix : Bytes := asciiBytes "r"

/-- From `schema.go`: `headerKeyPrefix`, `headerPrefix ‖ num`. -/
def headerKeyPrefix (number : UInt64) : Bytes :=
  headerPrefix ++ encodeBlockNumber number

/-- From `schema.go`: `headerKey`, `headerPrefix ‖ num ‖ hash`. -/
def headerKey (number : UInt64) (hash : Hash) : Bytes :=
  headerKeyPrefix number ++ hash.bytes

/-- From `schema.go`: `headerTDKey`, `headerPrefix ‖ num ‖ hash ‖ headerTDSuffix`. -/
def headerTDKey (number : UInt64) (hash : Hash) : Bytes :=
  headerKey number hash ++ headerTDSuffix

/-- From `schema.go`: `headerHashKey`, `headerPrefix ‖ num ‖ headerHashSuffix`. -/
def headerHashKey (number : UInt64) : Bytes :=
  headerKeyPrefix number ++ headerHashSuffix

/-- From `schema.go`: `headerNumberKey`, `headerNumberPrefix ‖ hash`. -/
def headerNumberKey (hash : Hash) : Bytes :=
  headerNumberPrefix ++ hash.bytes

/-- From `schema.go`: `blockBodyKey`, `blockBodyPrefix ‖ num ‖ hash`. -/
def blockBodyKey (number : UInt64) (hash : Hash) : Bytes :=
  blockBodyPrefix ++ encodeBlockNumber number ++ hash.bytes

/-- From `schema.go`: `blockReceiptsKey`, `blockReceiptsPrefix ‖ num ‖ hash`. -/
def blockReceiptsKey (number : UInt64) (hash : Hash) : Bytes :=
  blockReceiptsPrefix ++ encodeBlockNumber number ++ hash.bytes

/-- From `schema.go`: `headHeaderKey`. -/
def headHeaderKey : Bytes := asciiBytes "LastHeader"

/-- From `schema.go`: `headBlockKey`. -/
def headBlockKey : Bytes := asciiBytes "LastBlock"

/-- From `schema.go`: `headFastBlockKey`. -/
def headFastBlockKey : Bytes := asciiBytes "LastFast"

/-- From `schema.go`: `lastPivotKey`. -/
def lastPivotKey : Bytes := asciiBytes "LastPivot"

/-- From `schema.go`: `fastTrieProgressKey`. -/
def fastTrieProgressKey : Bytes := asciiBytes "TrieSync"

/-- From `schema.go`: `txIndexTailKey`. -/
def txIndexTailKey : Bytes := asciiBytes "TransactionIndexTail"

/-- From `schema.go`: `fastTxLookupLimitKey`. -/
def fastTxLookupLimitKey : Bytes := asciiBytes "FastTransactionLookupLimit"

/-- From `schema.go`: `badBlockKey`, the single key of the bad-block list. -/
def badBlockKey : Bytes := asciiBytes "InvalidBlock"

/-- `uptimeKey`: `"uptime" ‖ epoch`. -/
def uptimeKey (epoch : UInt64) : Bytes :=
  asciiBytes "uptime" ++ encodeBlockNumber epoch

/-! ## Shapes of keys -/

@[simp]
theorem length_headerKeyPrefix (number : UInt64) : (headerKeyPrefix number).length = 9 := by
  simp [headerKeyPrefix, headerPrefix, asciiBytes]

@[simp]
theorem length_headerKey (number : UInt64) (hash : Hash) :
    (headerKey number hash).length = 41 := by
  simp [headerKey, hash.length_bytes]

@[simp]
theorem length_headerTDKey (number : UInt64) (hash : Hash) :
    (headerTDKey number hash).length = 42 := by
  simp [headerTDKey, headerTDSuffix, asciiBytes]

@[simp]
theorem length_headerHashKey (number : UInt64) : (headerHashKey number).length = 10 := by
  simp [headerHashKey, headerHashSuffix, asciiBytes]

@[simp]
theorem length_headerNumberKey (hash : Hash) : (headerNumberKey hash).length = 33 := by
  simp [headerNumberKey, headerNumberPrefix, asciiBytes, hash.length_bytes]

@[simp]
theorem length_blockBodyKey (number : UInt64) (hash : Hash) :
    (blockBodyKey number hash).length = 41 := by
  simp [blockBodyKey, blockBodyPrefix, asciiBytes, hash.length_bytes]

@[simp]
theorem length_blockReceiptsKey (number : UInt64) (hash : Hash) :
    (blockReceiptsKey number hash).length = 41 := by
  simp [blockReceiptsKey, blockReceiptsPrefix, asciiBytes, hash.length_bytes]

@[simp]
theorem head?_headerKey (number : UInt64) (hash : Hash) :
    (headerKey number hash).head? = some 104 := rfl

@[simp]
theorem head?_blockBodyKey (number : UInt64) (hash : Hash) :
    (blockBodyKey number hash).head? = some 98 := rfl

@[simp]
theorem head?_blockReceiptsKey (number : UInt64) (hash : Hash) :
    (blockReceiptsKey number hash).head? = some 114 := rfl

@[simp]
theorem head?_headerNumberKey (hash : Hash) : (headerNumberKey hash).head? = some 72 := rfl

theorem headerKey_injective {number number' : UInt64} {hash hash' : Hash}
    (same : headerKey number hash = headerKey number' hash') :
    number = number' ∧ hash = hash' := by
  simp only [headerKey, headerKeyPrefix, List.append_assoc] at same
  have numbers := List.append_inj_left (List.append_cancel_left same) (by simp)
  have hashes := List.append_inj_right (List.append_cancel_left same) (by simp)
  exact ⟨encodeBlockNumber_inj.mp numbers, Hash.ext hashes⟩

theorem headerNumberKey_injective {hash hash' : Hash}
    (same : headerNumberKey hash = headerNumberKey hash') : hash = hash' :=
  Hash.ext (List.append_cancel_left same)

@[simp]
theorem headerKey_ne_headerNumberKey (number : UInt64) (hash hash' : Hash) :
    headerKey number hash ≠ headerNumberKey hash' := fun same => by
  simpa using congrArg List.length same

@[simp]
theorem headerNumberKey_ne_headerKey (number : UInt64) (hash hash' : Hash) :
    headerNumberKey hash' ≠ headerKey number hash :=
  (headerKey_ne_headerNumberKey number hash hash').symm

@[simp]
theorem headerKey_inj {number number' : UInt64} {hash hash' : Hash} :
    headerKey number hash = headerKey number' hash' ↔ number = number' ∧ hash = hash' :=
  ⟨headerKey_injective, fun ⟨sameNumber, sameHash⟩ => sameNumber ▸ sameHash ▸ rfl⟩

theorem blockBodyKey_injective {number number' : UInt64} {hash hash' : Hash}
    (same : blockBodyKey number hash = blockBodyKey number' hash') :
    number = number' ∧ hash = hash' := by
  simp only [blockBodyKey, List.append_assoc] at same
  have numbers := List.append_inj_left (List.append_cancel_left same) (by simp)
  have hashes := List.append_inj_right (List.append_cancel_left same) (by simp)
  exact ⟨encodeBlockNumber_inj.mp numbers, Hash.ext hashes⟩

@[simp]
theorem blockBodyKey_inj {number number' : UInt64} {hash hash' : Hash} :
    blockBodyKey number hash = blockBodyKey number' hash' ↔ number = number' ∧ hash = hash' :=
  ⟨blockBodyKey_injective, fun ⟨sameNumber, sameHash⟩ => sameNumber ▸ sameHash ▸ rfl⟩

@[simp]
theorem blockBodyKey_ne_headerKey (number number' : UInt64) (hash hash' : Hash) :
    blockBodyKey number hash ≠ headerKey number' hash' := fun same => by
  simpa using congrArg List.head? same

@[simp]
theorem headerKey_ne_blockBodyKey (number number' : UInt64) (hash hash' : Hash) :
    headerKey number hash ≠ blockBodyKey number' hash' :=
  (blockBodyKey_ne_headerKey number' number hash' hash).symm

@[simp]
theorem blockBodyKey_ne_blockReceiptsKey (number number' : UInt64) (hash hash' : Hash) :
    blockBodyKey number hash ≠ blockReceiptsKey number' hash' := fun same => by
  simpa using congrArg List.head? same

@[simp]
theorem blockBodyKey_ne_headerNumberKey (number : UInt64) (hash hash' : Hash) :
    blockBodyKey number hash ≠ headerNumberKey hash' := fun same => by
  simpa using congrArg List.length same

@[simp]
theorem headerNumberKey_inj {hash hash' : Hash} :
    headerNumberKey hash = headerNumberKey hash' ↔ hash = hash' :=
  ⟨headerNumberKey_injective, congrArg _⟩

end Rawdb
