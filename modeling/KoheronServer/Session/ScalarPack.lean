import KoheronServer.Session.Send

/-!
# The scalar pack of a session

Where `append` writes in `scal_data`. Nothing compares the scalars between two dumps
with the capacity of the pack, so a message stays inside it exactly when none of
its runs of scalars is longer.
-/

namespace KoheronServer.Session

open Foundation Wire

/-- `scal_size` and `size_of<T>` before each `append` of `command_serializer`. -/
def appends (scalSize : Nat) : List Arg → List (Nat × Nat)
  | [] => []
  | .scalar t _ :: args => (scalSize, t.sizeOf) :: appends (scalSize + t.sizeOf) args
  | .vector _ _ _ :: args | .string _ :: args | .array _ _ _ _ :: args => appends 0 args

/-- Every `append` of `build_command`, which sets `scal_size` to 0, writes inside `scal_data`. -/
def AppendsInside (packLen : Nat) (args : List Arg) : Prop :=
  ∀ a ∈ appends 0 args, a.1 + a.2 ≤ packLen

instance (packLen : Nat) (args : List Arg) : Decidable (AppendsInside packLen args) :=
  inferInstanceAs (Decidable (∀ a ∈ appends 0 args, a.1 + a.2 ≤ packLen))

/-- `build_command` of a tuple, through `call_command_serializer`: its elements are the
arguments. -/
def buildCommandTuple (packLen : Nat) (classId funcId : BitVec 16) (ser : DynamicSerializer)
    (buffer : Bytes) (tupArgs : List Arg) : Option (DynamicSerializer × Bytes) :=
  ser.buildCommand packLen classId funcId buffer tupArgs

/-- The serializer has a result where its appends stay inside the pack. -/
theorem commandSerializer_isSome (packLen : Nat) (args : List Arg) (ser : DynamicSerializer)
    (buffer : Bytes) :
    (ser.commandSerializer packLen buffer args).isSome ↔
      ∀ a ∈ appends ser.scalSize args, a.1 + a.2 ≤ packLen := by
  induction args generalizing ser buffer with
  | nil => simp [DynamicSerializer.commandSerializer, appends]
  | cons a args ih =>
      have hempty := (ser.dumpScalarPack_spec buffer).1
      cases a with
      | scalar t value =>
          rw [DynamicSerializer.commandSerializer, DynamicSerializer.append, appends,
            List.forall_mem_cons]
          by_cases hroom : ser.scalSize + t.sizeOf ≤ packLen
          · rw [if_pos hroom]
            exact (ih _ buffer).trans ⟨fun h => ⟨hroom, h⟩, fun h => h.2⟩
          · rw [if_neg hroom]
            exact ⟨fun h => (by cases h), fun h => absurd h.1 hroom⟩
      | vector t container whole =>
          rw [DynamicSerializer.commandSerializer, ih, hempty, appends]
      | string container => rw [DynamicSerializer.commandSerializer, ih, hempty, appends]
      | array t n arr size => rw [DynamicSerializer.commandSerializer, ih, hempty, appends]

theorem buildCommand_isSome_iff (packLen : Nat) (classId funcId : BitVec 16)
    (ser : DynamicSerializer)
    (buffer : Bytes) (args : List Arg) :
    (ser.buildCommand packLen classId funcId buffer args).isSome ↔ AppendsInside packLen args := by
  cases args with
  | nil => exact ⟨fun _ a ha => absurd ha List.not_mem_nil, fun _ => rfl⟩
  | cons a args =>
      have hserializer := commandSerializer_isSome packLen (a :: args)
        { ser with scalSize := 0 } (DynamicSerializer.putHeader classId funcId buffer)
      rw [AppendsInside, ← hserializer, DynamicSerializer.buildCommand]
      · split
        case h_1 heq => rw [heq]
        case h_2 heq => rw [heq]; rfl
      · simp

/-- A command stays inside the pack exactly when each of its runs of consecutive scalars fits it,
whatever the serializer held before. -/
theorem scalarPack_inside_iff (classId funcId : BitVec 16) (ser : DynamicSerializer)
    (buffer : Bytes)
    (args : List Arg) :
    (AppendsInside scalarPackLen args ∧
        (ser.buildCommand scalarPackLen classId funcId buffer args).isSome ∧
        (buildCommandTuple scalarPackLen classId funcId ser buffer args).isSome) ↔
      RunsFit scalarPackLen args := by
  have hsome := buildCommand_isSome_iff scalarPackLen classId funcId ser buffer args
  constructor
  · rintro ⟨-, h, -⟩
    obtain ⟨result, hresult⟩ := Option.isSome_iff_exists.mp h
    exact DynamicSerializer.buildCommand_fits hresult
  · intro hfit
    obtain ⟨ser', hresult⟩ := DynamicSerializer.buildCommand_eq hfit classId funcId ser buffer
    have hbuilt : (ser.buildCommand scalarPackLen classId funcId buffer args).isSome := by
      rw [hresult]
      rfl
    exact ⟨hsome.mp hbuilt, hbuilt, hbuilt⟩

/-- The 129th of as many doubles does not fit. -/
theorem doubles_not_inside :
    ¬AppendsInside scalarPackLen (List.replicate 129 (.scalar .double (0 : BitVec 64))) ∧
      AppendsInside scalarPackLen (List.replicate 128 (.scalar .double (0 : BitVec 64))) := by
  decide +kernel

end KoheronServer.Session
