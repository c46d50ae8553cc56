import KoheronServer.Wire.Serializer

/-!
# The reference format of a command

The format of a command by itself: four zero bytes, the two identifiers and the
encodings of the arguments. `build_command` leaves it in the vector for every
form in which it takes its arguments and for every history of its serializer.
-/

namespace KoheronServer.Wire

open Foundation

/-! ## The arguments of `build_command` -/

/-- What a `const char *` points at: the characters in front of the first NUL. -/
structure CString where
  chars : Bytes
  terminated : 0 ∉ chars

/-- An argument as `build_command` takes it, by the trait that selects its overload. -/
inductive Passed where
  | scalar (t : ScalarType) (value : t.Val)
  | vector (t : ScalarType) (bytes : Bytes) (whole : t.sizeOf ∣ bytes.length)
  | string (bytes : Bytes)
  | cString (s : CString)
  | array (t : ScalarType) (n : Nat) (bytes : Bytes) (size : bytes.length = n * t.sizeOf)

namespace Passed

/-- The argument that the overload serializes. Those of C strings do with `std::string(t)` what
those of containers do with a string. -/
def arg : Passed → Arg
  | scalar t value => .scalar t value
  | vector t bytes whole => .vector t bytes whole
  | string bytes => .string bytes
  | cString s => .string s.chars
  | array t n bytes size => .array t n bytes size

/-- The bytes of a dynamic container, whose number goes in front of them. -/
def dynamicBytes : Passed → Option Bytes
  | vector _ bytes _ | string bytes => some bytes
  | cString s => some s.chars
  | scalar .. | array .. => none

end Passed

/-- The forms of the arguments of `build_command`: one by one, or in a `std::tuple`. -/
inductive Parameters where
  | separate (args : List Passed)
  | tuple (tupArgs : List Passed)

def Parameters.list : Parameters → List Passed
  | separate args => args
  | tuple tupArgs => tupArgs

/-- The overloads of `build_command`. `call_command_serializer` passes the elements of a tuple to
the others, in the order of `std::index_sequence_for`. -/
def DynamicSerializer.buildCommandOf (packLen : Nat) (classId funcId : BitVec 16)
    (ser : DynamicSerializer) (buffer : Bytes) : Parameters → Option (DynamicSerializer × Bytes)
  | .separate args => ser.buildCommand packLen classId funcId buffer (args.map Passed.arg)
  | .tuple tupArgs => ser.buildCommand packLen classId funcId buffer (tupArgs.map Passed.arg)

theorem DynamicSerializer.buildCommandOf_eq (packLen : Nat) (classId funcId : BitVec 16)
    (ser : DynamicSerializer) (buffer : Bytes) (parameters : Parameters) :
    ser.buildCommandOf packLen classId funcId buffer parameters =
      ser.buildCommand packLen classId funcId buffer (parameters.list.map Passed.arg) := by
  cases parameters with
  | separate args => rfl
  | tuple tupArgs => rfl

/-! ## Maximal runs of scalars -/

/-- A run of scalars that no neighbour continues. -/
def MaximalRun (args run : List Arg) : Prop :=
  ∃ pre post, args = pre ++ run ++ post ∧ (∀ a ∈ run, a.IsScalar) ∧
    (∀ a ∈ pre.getLast?, ¬a.IsScalar) ∧ ∀ a ∈ post.head?, ¬a.IsScalar

theorem MaximalRun.length_le {args run : List Arg} (h : MaximalRun args run) :
    (argsWire run).length ≤ (argsWire args).length := by
  rcases h with ⟨pre, post, rfl, -⟩
  simp only [argsWire_append, List.length_append]
  omega

theorem exists_scalars_front (args : List Arg) :
    ∃ run rest, args = run ++ rest ∧ (∀ a ∈ run, a.IsScalar) ∧ ∀ a ∈ rest.head?, ¬a.IsScalar := by
  induction args with
  | nil => exact ⟨[], [], rfl, by simp, by simp⟩
  | cons a args ih =>
      by_cases ha : a.IsScalar
      · rcases ih with ⟨run, rest, rfl, hrun, hrest⟩
        refine ⟨a :: run, rest, rfl, ?_, hrest⟩
        intro b hb
        cases hb with
        | head => exact ha
        | tail _ hb => exact hrun b hb
      · exact ⟨[], a :: args, rfl, by simp, by simpa using ha⟩

theorem exists_scalars_back (args : List Arg) :
    ∃ rest run, args = rest ++ run ∧ (∀ a ∈ run, a.IsScalar) ∧
      ∀ a ∈ rest.getLast?, ¬a.IsScalar := by
  have h := exists_scalars_front args.reverse
  rcases h with ⟨run, rest, heq, hrun, hrest⟩
  refine ⟨rest.reverse, run.reverse, ?_, ?_, ?_⟩
  · rw [← List.reverse_append, ← heq, List.reverse_reverse]
  · intro a ha
    exact hrun a (List.mem_reverse.mp ha)
  · intro a ha
    rw [List.getLast?_reverse] at ha
    exact hrest a ha

/-- Every run is part of a maximal one. -/
theorem exists_maximalRun {args run : List Arg} (hrun : run <:+: args)
    (hscalar : ∀ a ∈ run, a.IsScalar) : ∃ whole, MaximalRun args whole ∧ run <:+: whole := by
  rcases hrun with ⟨pre, post, rfl⟩
  rcases exists_scalars_back pre with ⟨before, left, rfl, hleft, hbefore⟩
  rcases exists_scalars_front post with ⟨right, behind, rfl, hright, hbehind⟩
  refine ⟨left ++ run ++ right, ⟨before, behind, by simp, ?_, hbefore, hbehind⟩, left, right, rfl⟩
  intro a ha
  rcases List.mem_append.mp ha with ha | ha
  · rcases List.mem_append.mp ha with ha | ha
    · exact hleft a ha
    · exact hscalar a ha
  · exact hright a ha

theorem RunsFit.of_maximal {packLen : Nat} {args : List Arg}
    (h : ∀ run, MaximalRun args run → (argsWire run).length ≤ packLen) : RunsFit packLen args := by
  intro run hrun hscalar
  rcases exists_maximalRun hrun hscalar with ⟨whole, hmax, pre, post, rfl⟩
  have hle := h _ hmax
  simp only [argsWire_append, List.length_append] at hle
  omega

/-! ## The reference format -/

def ScalarType.bits : (t : ScalarType) → t.Val → Nat
  | .uint8, value | .int8, value => value.toNat
  | .uint16, value | .int16, value => value.toNat
  | .uint32, value | .int32, value | .float, value => value.toNat
  | .uint64, value | .int64, value | .double, value => value.toNat
  | .bool, value => value.toNat

/-- A scalar is big-endian in its width. A container is its byte count, big-endian in 32 bits, and
its bytes; an array is its bytes. -/
def Passed.encoding : Passed → Bytes
  | scalar t value => beDigits t.sizeOf (t.bits value)
  | vector _ bytes _ | string bytes => beDigits 4 bytes.length ++ bytes
  | cString s => beDigits 4 s.chars.length ++ s.chars
  | array _ _ bytes _ => bytes

def referenceFormat (classId funcId : BitVec 16) (args : List Passed) : Bytes :=
  [0, 0, 0, 0] ++ beDigits 2 classId.toNat ++ beDigits 2 funcId.toNat ++
    args.flatMap Passed.encoding

theorem append_eq (t : ScalarType) (value : t.Val) :
    append t value = beDigits t.sizeOf (t.bits value) := by
  cases t with
  | uint8 | int8 =>
      change [value] = beDigits 1 value.toNat
      simp [beDigits]
  | uint16 | int16 => exact appendUint16_eq value
  | uint32 | int32 | float => exact appendUint32_eq value
  | uint64 | int64 | double => exact appendUint64_eq value
  | bool => cases value <;> rfl

theorem containerWire_eq {bytes : Bytes} (h : bytes.length < 2 ^ 32) :
    Arg.containerWire bytes = beDigits 4 bytes.length ++ bytes := by
  rw [Arg.containerWire_of_lt h, appendUint32_eq, BitVec.toNat_ofNat, Nat.mod_eq_of_lt h]

/-- The wire format of an argument is its encoding, as long as its byte count fits in 32 bits. -/
theorem Passed.wire_arg (a : Passed) (h : ∀ bytes ∈ a.dynamicBytes, bytes.length < 2 ^ 32) :
    a.arg.wire = a.encoding := by
  cases a with
  | scalar t value => exact append_eq t value
  | vector t bytes whole => exact containerWire_eq (h bytes rfl)
  | string bytes => exact containerWire_eq (h bytes rfl)
  | cString s => exact containerWire_eq (h s.chars rfl)
  | array t n bytes size => rfl

theorem argsWire_map_arg (args : List Passed)
    (h : ∀ a ∈ args, ∀ bytes ∈ a.dynamicBytes, bytes.length < 2 ^ 32) :
    argsWire (args.map Passed.arg) = args.flatMap Passed.encoding := by
  induction args with
  | nil => rfl
  | cons a args ih =>
      rw [List.map_cons, argsWire_cons, a.wire_arg (h a List.mem_cons_self),
        ih fun b hb => h b (List.mem_cons_of_mem a hb), List.flatMap_cons]

/-- `build_command` leaves the reference format, whatever the vector and the serializer held. -/
theorem DynamicSerializer.buildCommandOf_reference (packLen : Nat) (classId funcId : BitVec 16)
    (parameters : Parameters)
    (hdynamic : ∀ a ∈ parameters.list, ∀ bytes ∈ a.dynamicBytes, bytes.length < 2 ^ 32)
    (hruns : ∀ run, MaximalRun (parameters.list.map Passed.arg) run →
      (argsWire run).length ≤ packLen)
    (ser : DynamicSerializer) (buffer : Bytes) :
    ∃ ser', ser.buildCommandOf packLen classId funcId buffer parameters =
      some (ser', referenceFormat classId funcId parameters.list) := by
  have hbuilt := buildCommand_eq (RunsFit.of_maximal hruns) classId funcId ser buffer
  rcases hbuilt with ⟨ser', hbuilt⟩
  refine ⟨ser', ?_⟩
  rw [buildCommandOf_eq, hbuilt, messageWire, header_eq, appendUint16_eq, appendUint16_eq,
    argsWire_map_arg _ hdynamic, referenceFormat]

def mixedTuple : Parameters :=
  .tuple [.scalar .uint16 (0x0102 : BitVec 16), .cString ⟨[65, 66], by decide⟩, .scalar .bool true,
    .array .uint16 1 [3, 4] rfl, .vector .uint8 [5] (by decide)]

/-- Scalars of an earlier message are pending, and the vector is not empty. -/
theorem DynamicSerializer.buildCommandOf_reference_mixed :
    ∃ ser', DynamicSerializer.buildCommandOf 1024 2 5 ⟨fun _ => 7, 3⟩ [9, 9] mixedTuple =
      some (ser', [0, 0, 0, 0, 0, 2, 0, 5, 1, 2, 0, 0, 0, 2, 65, 66, 1, 3, 4, 0, 0, 0, 1, 5]) := by
  have hformat : referenceFormat 2 5 mixedTuple.list =
      [0, 0, 0, 0, 0, 2, 0, 5, 1, 2, 0, 0, 0, 2, 65, 66, 1, 3, 4, 0, 0, 0, 1, 5] := by decide
  have hdynamic : ∀ a ∈ mixedTuple.list, ∀ bytes ∈ a.dynamicBytes, bytes.length < 2 ^ 32 := by
    simp [mixedTuple, Parameters.list, Passed.dynamicBytes]
  rw [← hformat]
  apply DynamicSerializer.buildCommandOf_reference 1024 2 5 mixedTuple hdynamic
  intro run hrun
  exact Nat.le_trans hrun.length_le (by decide)

end KoheronServer.Wire
