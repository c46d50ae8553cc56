import KoheronServer.Wire.Serializer

/-!
# Serialising and deserialising as inverses

A tuple comes back from every buffer that carries its bytes, and a buffer comes back
from its tuple where the bytes of `bool` elements are 0 or 1, which are the only ones
that `append<bool>` writes. `deserialize` looks at the bytes of its tuple, at each of
them, and at no other one.
-/

namespace KoheronServer.Wire

open Foundation

/-! ## One scalar -/

/-- Bytes that a scalar has been extracted from are those that it is appended as. -/
theorem append_extract (t : ScalarType) (buff : Memory)
    (hbool : t = .bool → buff 0 = 0 ∨ buff 0 = 1) :
    append t (extract t buff) = buff.load 0 t.sizeOf := by
  have hdigits : ∀ (width n : Nat), n = beValue (buff.load 0 width) →
      beDigits width n = buff.load 0 width := by
    intro width n hn
    have h := beDigits_beValue (buff.load 0 width)
    rwa [Memory.load_length, ← hn] at h
  cases t
  case uint8 | int8 => rfl
  case uint16 | int16 =>
    exact (appendUint16_eq _).trans (hdigits 2 _ (extractUint16_toNat buff))
  case uint32 | int32 | float =>
    exact (appendUint32_eq _).trans (hdigits 4 _ (extractUint32_toNat buff))
  case uint64 | int64 | double =>
    exact (appendUint64_eq _).trans (hdigits 8 _ (extractUint64_toNat buff))
  case bool =>
    show appendBool (buff 0 == 1) = [buff 0]
    rcases hbool rfl with h | h <;> rw [h] <;> rfl

/-! ## Tuples -/

/-- The bytes of the `bool` elements are 0 or 1. -/
def BoolBytes (position : Nat) : List ScalarType → Memory → Prop
  | [], _ => True
  | t :: ts, buff =>
      (t = .bool → buff position = 0 ∨ buff position = 1) ∧ BoolBytes (position + t.sizeOf) ts buff

@[simp] theorem deserialize_types (position : Nat) (ts : List ScalarType) (buff : Memory) :
    (deserialize position ts buff).map Scalar.type = ts := by
  induction ts generalizing position with
  | nil => rfl
  | cons t ts ih => rw [deserialize, List.map_cons, ih]

theorem tupleWire_deserialize (ts : List ScalarType) {position : Nat} {buff : Memory}
    (hbool : BoolBytes position ts buff) :
    tupleWire (deserialize position ts buff) = buff.load position (requiredBufferSize ts) := by
  induction ts generalizing position with
  | nil => rfl
  | cons t ts ih =>
      obtain ⟨hfirst, hrest⟩ := hbool
      have happend := append_extract t (buff.offset position) hfirst
      rw [Memory.load_offset, Nat.add_zero] at happend
      rw [deserialize, tupleWire_cons, happend, ih hrest, requiredBufferSize, Memory.load_append]

theorem load_eq_of_deserialize_eq {ts : List ScalarType} {position : Nat} {buff buff' : Memory}
    (hbool : BoolBytes position ts buff) (hbool' : BoolBytes position ts buff')
    (h : deserialize position ts buff = deserialize position ts buff') :
    buff.load position (requiredBufferSize ts) = buff'.load position (requiredBufferSize ts) := by
  rw [← tupleWire_deserialize ts hbool, h, tupleWire_deserialize ts hbool']

theorem boolBytes_of_bits (ts : List ScalarType) (position : Nat) {buff : Memory}
    (h : ∀ i, buff i = 0 ∨ buff i = 1) : BoolBytes position ts buff := by
  induction ts generalizing position with
  | nil => trivial
  | cons t ts ih => exact ⟨fun _ => h position, ih _⟩

/-- The bytes that matter for a tuple are those that it takes in the buffer. -/
theorem deserialize_dependsOn_iff (ts : List ScalarType) (position i : Nat) :
    Memory.DependsOn (deserialize position ts) i ↔
      position ≤ i ∧ i < position + requiredBufferSize ts := by
  constructor
  · rintro ⟨buff, buff', hsame, hne⟩
    by_contra hout
    refine hne (deserialize_congr ts fun j hj => hsame (position + j) ?_)
    omega
  · rintro ⟨hle, hlt⟩
    -- A buffer of zeros and one that holds a one at the offset.
    let zeros : Memory := fun _ => 0
    let one : Memory := fun j => if j = i then 1 else 0
    have hzeros : BoolBytes position ts zeros := boolBytes_of_bits ts position fun _ => .inl rfl
    have hone : BoolBytes position ts one := by
      apply boolBytes_of_bits
      intro j
      by_cases hj : j = i
      · exact .inr (if_pos hj)
      · exact .inl (if_neg hj)
    refine ⟨zeros, one, fun j hj => (if_neg hj).symm, fun h => ?_⟩
    have hload := load_eq_of_deserialize_eq hzeros hone h
    have hbyte := Memory.eq_of_load_eq hload (show i - position < requiredBufferSize ts by omega)
    rw [show position + (i - position) = i by omega] at hbyte
    have hcontra : (0 : Byte) = 1 := hbyte.trans (if_pos rfl)
    exact absurd hcontra (by decide)

/-- `deserialize` undoes `serialize` at every offset, from the bytes of the tuple and no other ones;
`serialize` undoes `deserialize` where the bytes of `bool` elements are 0 or 1. -/
theorem serialize_deserialize :
    (∀ (t : List Scalar) (position : Nat) (buff : Memory),
      buff.load position (requiredBufferSize (t.map Scalar.type)) = serialize t →
        deserialize position (t.map Scalar.type) buff = t) ∧
    (∀ (ts : List ScalarType) (position i : Nat),
      Memory.DependsOn (deserialize position ts) i ↔
        position ≤ i ∧ i < position + requiredBufferSize ts) ∧
    ∀ (ts : List ScalarType) (buffer : Bytes), buffer.length = requiredBufferSize ts →
      BoolBytes 0 ts (Memory.ofBytes buffer) →
        serialize (deserialize 0 ts (Memory.ofBytes buffer)) = buffer := by
  refine ⟨?_, deserialize_dependsOn_iff, ?_⟩
  · intro t position buff h
    exact deserialize_of_load t (h.trans (serialize_eq t))
  · intro ts buffer hlen hbool
    rw [serialize_eq, tupleWire_deserialize ts hbool, ← hlen, Memory.load_ofBytes]

/-- A `uint32_t` and a `bool` behind three other bytes, and their five bytes by themselves. -/
theorem serialize_deserialize_pair :
    deserialize 3 [.uint32, .bool] (Memory.ofBytes [9, 9, 9, 0xFF, 0, 0, 1, 1, 9]) =
      [⟨.uint32, (0xFF000001 : BitVec 32)⟩, ⟨.bool, true⟩] ∧
    serialize (deserialize 0 [.uint32, .bool] (Memory.ofBytes [0xFF, 0, 0, 1, 1])) =
      [0xFF, 0, 0, 1, 1] :=
  ⟨serialize_deserialize.1 [⟨.uint32, (0xFF000001 : BitVec 32)⟩, ⟨.bool, true⟩] 3 _ rfl,
    serialize_deserialize.2.2 [.uint32, .bool] [0xFF, 0, 0, 1, 1] rfl
      ⟨fun h => absurd h (by decide), fun _ => .inr rfl, trivial⟩⟩

end KoheronServer.Wire
