import KoheronServer.Foundation.Bytes

/-!
# Scalars on the wire

`size_of`, `append` and `extract` for the eleven scalar types of
`serializer_deserializer.hpp`, and the serializer and deserializer of lists of
scalars built on them. A float or a double is its bit pattern, which is all that
`pseudo_cast` moves; a signed integer is the pattern that `reinterpret_cast`
leaves unchanged.
-/

namespace KoheronServer.Wire

open Foundation

/-- The types for which `size_of`, `append` and `extract` are specialised. -/
inductive ScalarType where
  | uint8
  | int8
  | uint16
  | int16
  | uint32
  | int32
  | uint64
  | int64
  | float
  | double
  | bool
  deriving DecidableEq, Repr

namespace ScalarType

/-- `size_of<Tp>`. -/
def sizeOf : ScalarType → Nat
  | uint8 | int8 | bool => 1
  | uint16 | int16 => 2
  | uint32 | int32 | float => 4
  | uint64 | int64 | double => 8

/-- `size_of<Tp, N>`. The specialisations are written `size_of<Tp>`, which is
`size_of<Tp, 0>`, so a zero `N` selects them and not the product. -/
def sizeOfArray (t : ScalarType) : Nat → Nat
  | 0 => t.sizeOf
  | n + 1 => t.sizeOf * (n + 1)

abbrev Val : ScalarType → Type
  | uint8 | int8 => BitVec 8
  | uint16 | int16 => BitVec 16
  | uint32 | int32 | float => BitVec 32
  | uint64 | int64 | double => BitVec 64
  | bool => Bool

theorem sizeOf_pos (t : ScalarType) : 0 < t.sizeOf := by
  cases t <;> decide

theorem sizeOf_le (t : ScalarType) : t.sizeOf ≤ 8 := by
  cases t <;> decide

/-- Every width divides a power of two, so a byte count reduced to 32 bits stays a multiple. -/
theorem sizeOf_dvd (t : ScalarType) : t.sizeOf ∣ 2 ^ 32 := by
  cases t <;> decide

end ScalarType

/-! ## `append` -/

def appendUint8 (value : BitVec 8) : Bytes := [value]

def appendUint16 (value : BitVec 16) : Bytes :=
  [((value >>> 8) &&& 0xff).setWidth 8, (value &&& 0xff).setWidth 8]

def appendUint32 (value : BitVec 32) : Bytes :=
  [((value >>> 24) &&& 0xff).setWidth 8, ((value >>> 16) &&& 0xff).setWidth 8,
    ((value >>> 8) &&& 0xff).setWidth 8, (value &&& 0xff).setWidth 8]

def appendUint64 (value : BitVec 64) : Bytes :=
  appendUint32 ((value >>> 32).setWidth 32) ++ appendUint32 (value.setWidth 32)

def appendBool (value : Bool) : Bytes := if value then [1] else [0]

/-- `append<Tp>`: the bytes it stores at the front of its buffer. -/
def append : (t : ScalarType) → t.Val → Bytes
  | .uint8, value | .int8, value => appendUint8 value
  | .uint16, value | .int16, value => appendUint16 value
  | .uint32, value | .int32, value | .float, value => appendUint32 value
  | .uint64, value | .int64, value | .double, value => appendUint64 value
  | .bool, value => appendBool value

/-! ## `extract` -/

def extractUint8 (buff : Memory) : BitVec 8 := buff 0

def extractUint16 (buff : Memory) : BitVec 16 :=
  (buff 1).setWidth 16 + (buff 0).setWidth 16 <<< 8

/-- The sum is formed in a signed `int`; its low 32 bits are those of the unsigned sum. -/
def extractUint32 (buff : Memory) : BitVec 32 :=
  (buff 3).setWidth 32 + (buff 2).setWidth 32 <<< 8 + (buff 1).setWidth 32 <<< 16 +
    (buff 0).setWidth 32 <<< 24

def extractUint64 (buff : Memory) : BitVec 64 :=
  let u1 := extractUint32 buff
  let u2 := extractUint32 (buff.offset (ScalarType.sizeOf .uint32))
  u2.setWidth 64 + u1.setWidth 64 <<< 32

def extractBool (buff : Memory) : Bool := buff 0 == 1

/-- `extract<Tp>`. -/
def extract : (t : ScalarType) → Memory → t.Val
  | .uint8, buff | .int8, buff => extractUint8 buff
  | .uint16, buff | .int16, buff => extractUint16 buff
  | .uint32, buff | .int32, buff | .float, buff => extractUint32 buff
  | .uint64, buff | .int64, buff | .double, buff => extractUint64 buff
  | .bool, buff => extractBool buff

/-! ## Both as big-endian numbers -/

private theorem byte_shift {w : Nat} (hw : 8 ≤ w) (value : BitVec w) (shift : Nat) :
    ((value >>> shift) &&& 0xff).setWidth 8 = BitVec.ofNat 8 (value.toNat / 2 ^ shift) := by
  have hpow : 2 ^ 8 ≤ 2 ^ w := Nat.pow_le_pow_right (by decide) hw
  have hmask : (0xff : BitVec w).toNat = 2 ^ 8 - 1 := by
    change (BitVec.ofNat w 255).toNat = _
    rw [BitVec.toNat_ofNat, Nat.mod_eq_of_lt (by omega)]
    rfl
  apply BitVec.eq_of_toNat_eq
  rw [BitVec.toNat_setWidth, BitVec.toNat_and, hmask, Nat.and_two_pow_sub_one_eq_mod,
    BitVec.toNat_ushiftRight, Nat.shiftRight_eq_div_pow, BitVec.toNat_ofNat, Nat.mod_mod]

private theorem byte_low {w : Nat} (hw : 8 ≤ w) (value : BitVec w) :
    (value &&& 0xff).setWidth 8 = BitVec.ofNat 8 value.toNat := by
  simpa using byte_shift hw value 0

theorem appendUint16_eq (value : BitVec 16) : appendUint16 value = beDigits 2 value.toNat := by
  rw [appendUint16, byte_shift (by decide), byte_low (by decide)]
  simp [beDigits]

theorem appendUint32_eq (value : BitVec 32) : appendUint32 value = beDigits 4 value.toNat := by
  rw [appendUint32, byte_shift (by decide), byte_shift (by decide), byte_shift (by decide),
    byte_low (by decide)]
  simp [beDigits, Nat.div_div_eq_div_mul]

theorem appendUint64_eq (value : BitVec 64) : appendUint64 value = beDigits 8 value.toNat := by
  have hlow : value.toNat % 2 ^ 32 = value.toNat % 256 ^ 4 := rfl
  rw [appendUint64, appendUint32_eq, appendUint32_eq, beDigits_add 4 4]
  have hhigh : (value >>> 32).toNat % 2 ^ 32 = value.toNat / 256 ^ 4 := by
    have hv := value.isLt
    rw [BitVec.toNat_ushiftRight, Nat.shiftRight_eq_div_pow]
    omega
  rw [BitVec.toNat_setWidth, BitVec.toNat_setWidth, hhigh, hlow, beDigits_mod]

theorem extractUint16_toNat (buff : Memory) :
    (extractUint16 buff).toNat = beValue (buff.load 0 2) := by
  have h0 := (buff 0).isLt
  have h1 := (buff 1).isLt
  simp only [extractUint16, Memory.load, beValue, List.foldl, BitVec.toNat_add,
    BitVec.toNat_shiftLeft, BitVec.toNat_setWidth, Nat.shiftLeft_eq, Nat.zero_add]
  omega

theorem extractUint32_toNat (buff : Memory) :
    (extractUint32 buff).toNat = beValue (buff.load 0 4) := by
  have h0 := (buff 0).isLt
  have h1 := (buff 1).isLt
  have h2 := (buff 2).isLt
  have h3 := (buff 3).isLt
  simp only [extractUint32, Memory.load, beValue, List.foldl, BitVec.toNat_add,
    BitVec.toNat_shiftLeft, BitVec.toNat_setWidth, Nat.shiftLeft_eq, Nat.zero_add, Nat.reduceAdd]
  omega

theorem extractUint64_toNat (buff : Memory) :
    (extractUint64 buff).toNat = beValue (buff.load 0 8) := by
  have hsplit := Memory.load_append buff 0 4 4
  have hhigh := extractUint32_toNat buff
  have hlow := extractUint32_toNat (buff.offset 4)
  rw [Memory.load_offset] at hlow
  have h1 := (extractUint32 buff).isLt
  have h2 := (extractUint32 (buff.offset 4)).isLt
  rw [hsplit, beValue_append, Memory.load_length, ← hhigh, ← hlow]
  simp only [extractUint64, ScalarType.sizeOf, BitVec.toNat_add, BitVec.toNat_shiftLeft,
    BitVec.toNat_setWidth, Nat.shiftLeft_eq]
  omega

/-! ## The round trip of one scalar -/

@[simp] theorem append_length (t : ScalarType) (value : t.Val) :
    (append t value).length = t.sizeOf := by
  cases t
  case bool => cases value <;> rfl
  all_goals rfl

private theorem extract_of_load {w width : Nat} (hw : 2 ^ w = 256 ^ width) {x value : BitVec w}
    {bytes : Bytes} (hx : x.toNat = beValue bytes) (hb : bytes = beDigits width value.toNat) :
    x = value := by
  apply BitVec.eq_of_toNat_eq
  rw [hx, hb, beValue_beDigits, ← hw, Nat.mod_eq_of_lt value.isLt]

theorem extract_append {t : ScalarType} {value : t.Val} {buff : Memory}
    (h : buff.load 0 t.sizeOf = append t value) : extract t buff = value := by
  cases t
  case uint8 | int8 => exact List.head_eq_of_cons_eq h
  case uint16 | int16 =>
    exact extract_of_load (by decide) (extractUint16_toNat buff) (h.trans (appendUint16_eq value))
  case uint32 | int32 | float =>
    exact extract_of_load (by decide) (extractUint32_toNat buff) (h.trans (appendUint32_eq value))
  case uint64 | int64 | double =>
    exact extract_of_load (by decide) (extractUint64_toNat buff) (h.trans (appendUint64_eq value))
  case bool =>
    have hb : buff 0 = if value then 1 else 0 := by
      cases value <;> exact List.head_eq_of_cons_eq h
    cases value <;> simp [extract, extractBool, hb]

theorem extract_ne {t : ScalarType} {buff buff' : Memory} {k : Nat} (hk : t.sizeOf = k + 1)
    (hsame : buff.load 0 k = buff'.load 0 k) (hzero : buff k = 0) (hone : buff' k = 1) :
    extract t buff ≠ extract t buff' := by
  have hvalue : beValue (buff.load 0 t.sizeOf) ≠ beValue (buff'.load 0 t.sizeOf) := by
    rw [hk, beValue_load_succ, beValue_load_succ, hsame, Nat.zero_add, hzero, hone]
    exact Nat.ne_of_lt (Nat.lt_succ_self _)
  intro h
  cases t
  case uint8 | int8 | bool =>
    obtain rfl : k = 0 := (Nat.succ.inj hk).symm
    simp only [extract, extractUint8, extractBool, hzero, hone] at h
    exact absurd h (by decide)
  case uint16 | int16 =>
    have hnat := congrArg BitVec.toNat h
    simp only [extract, extractUint16_toNat] at hnat
    exact hvalue hnat
  case uint32 | int32 | float =>
    have hnat := congrArg BitVec.toNat h
    simp only [extract, extractUint32_toNat] at hnat
    exact hvalue hnat
  case uint64 | int64 | double =>
    have hnat := congrArg BitVec.toNat h
    simp only [extract, extractUint64_toNat] at hnat
    exact hvalue hnat

end KoheronServer.Wire
