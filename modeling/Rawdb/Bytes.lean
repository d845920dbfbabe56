import Mathlib

/-!
# Bytes, big-endian block numbers and hashes

The accessors of `core/rawdb` build every database key out of byte slices, and the
range scans rely on one property of those keys: a block number is written as its
8-byte big-endian encoding, so that the byte order of keys is the numeric order of
blocks. This file fixes the byte-level vocabulary used by the rest of the model.

A Go byte is an element of `Fin 256`, and a byte slice is a list of them. Lists are
ordered lexicographically, which is the order of `bytes.Compare` and the order in
which the key/value store's iterators return keys. A `common.Hash` is a 32-byte array,
modelled as a byte list whose length is part of the structure, and `BytesToHash`
keeps the last 32 bytes of its argument, left-padding shorter input with zeros.
-/

namespace Rawdb

/-- A Go byte slice. -/
abbrev Bytes := List (Fin 256)

/-! ## Lexicographic order -/

namespace Bytes

theorem cons_lt_cons_iff {byte byte' : Fin 256} {rest rest' : Bytes} :
    byte :: rest < byte' :: rest' ↔ byte < byte' ∨ byte = byte' ∧ rest < rest' := by
  constructor
  · intro lt
    cases lt with
    | cons tail => exact .inr ⟨rfl, tail⟩
    | rel head => exact .inl head
  · rintro (head | ⟨rfl, tail⟩)
    · exact .rel head
    · exact .cons tail

/-- Keys that agree up to a common-length head compare by their tails. -/
theorem append_lt_append_iff {head head' tail tail' : Bytes}
    (sameLength : head.length = head'.length) :
    head ++ tail < head' ++ tail' ↔ head < head' ∨ head = head' ∧ tail < tail' := by
  induction head generalizing head' with
  | nil =>
      cases head' with
      | nil => simp
      | cons => simp at sameLength
  | cons byte head ih =>
      cases head' with
      | nil => simp at sameLength
      | cons byte' head' =>
          simp only [List.cons_append, cons_lt_cons_iff, ih (Nat.succ.inj sameLength),
            List.cons.injEq]
          tauto

theorem append_le_append_iff {head head' tail tail' : Bytes}
    (sameLength : head.length = head'.length) :
    head ++ tail ≤ head' ++ tail' ↔ head < head' ∨ head = head' ∧ tail ≤ tail' := by
  rw [← not_lt, append_lt_append_iff sameLength.symm, not_or, not_and_or, not_lt, not_lt,
    le_iff_lt_or_eq, eq_comm]
  constructor
  · rintro ⟨lt | rfl, ne | le⟩ <;> simp_all
  · rintro (lt | ⟨rfl, le⟩)
    · exact ⟨.inl lt, .inl (ne_of_gt lt)⟩
    · exact ⟨.inr rfl, .inr le⟩

end Bytes

/-! ## Big-endian numbers -/

/-- The `width` low bytes of `value`, most significant first. -/
def bigEndian : Nat → Nat → Bytes
  | 0, _ => []
  | width + 1, value => Fin.ofNat' 256 (value / 256 ^ width) :: bigEndian width value

/-- `binary.BigEndian`: the number whose big-endian bytes are `data`. -/
def decodeBigEndian : Bytes → Nat
  | [] => 0
  | byte :: rest => byte.val * 256 ^ rest.length + decodeBigEndian rest

@[simp]
theorem length_bigEndian (width value : Nat) : (bigEndian width value).length = width := by
  induction width <;> simp [bigEndian, *]

theorem decodeBigEndian_bigEndian (width value : Nat) :
    decodeBigEndian (bigEndian width value) = value % 256 ^ width := by
  induction width with
  | zero => simp [bigEndian, decodeBigEndian, Nat.mod_one]
  | succ width ih =>
      simp [bigEndian, decodeBigEndian, ih, Nat.mod_pow_succ, Nat.mul_comm]
      omega

theorem add_mul_lt_add_mul_iff {low low' scale digit digit' : Nat}
    (lowBound : low < scale) (lowBound' : low' < scale) :
    low + scale * digit < low' + scale * digit' ↔
      digit < digit' ∨ digit = digit' ∧ low < low' := by
  constructor
  · intro lt
    rcases Nat.lt_trichotomy digit digit' with smaller | rfl | larger
    · exact .inl smaller
    · exact .inr ⟨rfl, by omega⟩
    · have scaled := Nat.mul_le_mul_left scale larger
      rw [Nat.mul_succ] at scaled
      omega
  · rintro (smaller | ⟨rfl, lt⟩)
    · have scaled := Nat.mul_le_mul_left scale smaller
      rw [Nat.mul_succ] at scaled
      omega
    · omega

/-- Big-endian encodings of one width compare as the numbers they encode. -/
theorem bigEndian_lt_bigEndian_iff (width value value' : Nat) :
    bigEndian width value < bigEndian width value' ↔
      value % 256 ^ width < value' % 256 ^ width := by
  induction width with
  | zero => simp [bigEndian, Nat.mod_one]
  | succ width ih =>
      simp only [bigEndian, Bytes.cons_lt_cons_iff, ih, Nat.mod_pow_succ, Fin.lt_def,
        Fin.ext_iff, Fin.val_ofNat']
      exact (add_mul_lt_add_mul_iff (Nat.mod_lt _ (Nat.pos_pow_of_pos width (by decide)))
        (Nat.mod_lt _ (Nat.pos_pow_of_pos width (by decide)))).symm

theorem bigEndian_inj {width value value' : Nat} :
    bigEndian width value = bigEndian width value' ↔
      value % 256 ^ width = value' % 256 ^ width := by
  constructor
  · intro same
    rw [← decodeBigEndian_bigEndian, same, decodeBigEndian_bigEndian]
  · intro same
    rcases lt_trichotomy (bigEndian width value) (bigEndian width value') with lt | eq | gt
    · exact absurd ((bigEndian_lt_bigEndian_iff _ _ _).mp lt) (by omega)
    · exact eq
    · exact absurd ((bigEndian_lt_bigEndian_iff _ _ _).mp gt) (by omega)

theorem decodeBigEndian_lt (data : Bytes) : decodeBigEndian data < 256 ^ data.length := by
  induction data with
  | nil => simp [decodeBigEndian]
  | cons byte rest ih =>
      have digit : byte.val * 256 ^ rest.length ≤ 255 * 256 ^ rest.length :=
        Nat.mul_le_mul_right _ (Nat.le_of_lt_succ byte.isLt)
      simp only [decodeBigEndian, List.length_cons, Nat.pow_succ]
      omega

/-- Every byte string is the big-endian encoding, at its own width, of what it decodes to. -/
theorem bigEndian_decodeBigEndian (data : Bytes) :
    bigEndian data.length (decodeBigEndian data) = data := by
  induction data with
  | nil => rfl
  | cons byte rest ih =>
      have low := decodeBigEndian_lt rest
      have positive : 0 < 256 ^ rest.length := Nat.pos_pow_of_pos _ (by decide)
      have top : (byte.val * 256 ^ rest.length + decodeBigEndian rest) / 256 ^ rest.length =
          byte.val := by
        rw [Nat.add_comm, Nat.add_mul_div_right _ _ positive, Nat.div_eq_of_lt low, Nat.zero_add]
      have tail : bigEndian rest.length (byte.val * 256 ^ rest.length + decodeBigEndian rest) =
          bigEndian rest.length (decodeBigEndian rest) :=
        bigEndian_inj.mpr (by simp [Nat.add_mod])
      simp only [List.length_cons, bigEndian, decodeBigEndian, top, tail, ih, List.cons.injEq,
        and_true]
      exact Fin.ext (Nat.mod_eq_of_lt byte.isLt)

/-! ## Block numbers -/

theorem UInt64.lt_iff_toNat_lt {number number' : UInt64} :
    number < number' ↔ number.toNat < number'.toNat := by
  simp [UInt64.lt_def, BitVec.lt_def, UInt64.toNat]

theorem UInt64.le_iff_toNat_le {number number' : UInt64} :
    number ≤ number' ↔ number.toNat ≤ number'.toNat := by
  simp [UInt64.le_def, BitVec.le_def, UInt64.toNat]

theorem UInt64.eq_iff_toNat_eq {number number' : UInt64} :
    number = number' ↔ number.toNat = number'.toNat :=
  ⟨congrArg _, UInt64.toNat.inj⟩

theorem UInt64.toNat_add_one {number : UInt64} (room : number.toNat + 1 < UInt64.size) :
    (number + 1).toNat = number.toNat + 1 := by
  rw [UInt64.toNat, UInt64.add_def]
  simp only [BitVec.toNat_add]
  exact Nat.mod_eq_of_lt room

theorem UInt64.toNat_lt_two_pow (number : UInt64) : number.toNat < 256 ^ 8 :=
  number.toNat_lt_size

/-- `encodeBlockNumber`: the 8-byte big-endian encoding of a block number. -/
def encodeBlockNumber (number : UInt64) : Bytes :=
  bigEndian 8 number.toNat

/-- `binary.BigEndian.Uint64`, reading the first eight bytes. -/
def bigEndianUint64 (data : Bytes) : UInt64 :=
  UInt64.ofNat (decodeBigEndian (data.take 8))

@[simp]
theorem length_encodeBlockNumber (number : UInt64) : (encodeBlockNumber number).length = 8 :=
  length_bigEndian _ _

@[simp]
theorem bigEndianUint64_encodeBlockNumber (number : UInt64) :
    bigEndianUint64 (encodeBlockNumber number) = number := by
  apply UInt64.toNat.inj
  have fits := UInt64.toNat_lt_two_pow number
  rw [bigEndianUint64, encodeBlockNumber, List.take_of_length_le (by simp),
    decodeBigEndian_bigEndian, Nat.mod_eq_of_lt fits, UInt64.toNat_ofNat_of_lt fits]

@[simp]
theorem encodeBlockNumber_lt_encodeBlockNumber_iff {number number' : UInt64} :
    encodeBlockNumber number < encodeBlockNumber number' ↔ number < number' := by
  rw [encodeBlockNumber, encodeBlockNumber, bigEndian_lt_bigEndian_iff,
    Nat.mod_eq_of_lt (UInt64.toNat_lt_two_pow number),
    Nat.mod_eq_of_lt (UInt64.toNat_lt_two_pow number'), UInt64.lt_iff_toNat_lt]

@[simp]
theorem encodeBlockNumber_inj {number number' : UInt64} :
    encodeBlockNumber number = encodeBlockNumber number' ↔ number = number' :=
  ⟨fun same => by rw [← bigEndianUint64_encodeBlockNumber number, same,
    bigEndianUint64_encodeBlockNumber], fun same => same ▸ rfl⟩

/-- Every 8-byte slice encodes the block number `binary.BigEndian.Uint64` reads from it. -/
theorem encodeBlockNumber_bigEndianUint64 {data : Bytes} (eight : data.length = 8) :
    encodeBlockNumber (bigEndianUint64 data) = data := by
  have fits : decodeBigEndian data < 256 ^ 8 := eight ▸ decodeBigEndian_lt data
  rw [encodeBlockNumber, bigEndianUint64, List.take_of_length_le eight.le,
    UInt64.toNat_ofNat_of_lt fits, ← eight, bigEndian_decodeBigEndian]

/-- `new(big.Int).SetUint64(value).Bytes()`: the big-endian bytes of `value` without leading
zeros, empty for zero. -/
def bigIntBytes (value : UInt64) : Bytes :=
  (encodeBlockNumber value).dropWhile fun byte => byte = 0

/-! ## Hashes -/

/-- `common.Hash`: 32 bytes. -/
@[ext]
structure Hash where
  bytes : Bytes
  length_bytes : bytes.length = 32
deriving DecidableEq

/-- `common.BytesToHash`: the last 32 bytes of `data`, left-padded with zeros. -/
def bytesToHash (data : Bytes) : Hash :=
  ⟨List.replicate (32 - data.length) 0 ++ data.drop (data.length - 32), by simp; omega⟩

/-- The zero hash `common.Hash{}`, which the readers return for "not found". -/
def Hash.zero : Hash :=
  bytesToHash []

@[simp]
theorem bytesToHash_bytes (hash : Hash) : bytesToHash hash.bytes = hash := by
  obtain ⟨bytes, length_bytes⟩ := hash
  simp [bytesToHash, length_bytes]

@[simp]
theorem bytes_ne_nil (hash : Hash) : hash.bytes ≠ [] := by
  intro empty
  simpa [empty] using hash.length_bytes

end Rawdb
