import KoheronServer.Wire.Serializer

/-!
# Packs of arguments

`build_args_packs` of devgen groups adjacent scalars for one `deserialize` and
leaves every container alone for one `recv`. What the generated parser asserts at
compile time about the sizes is part of an `Operation`.
-/

namespace KoheronServer.Wire

open Foundation

inductive Pack where
  | scalar (args : List ScalarType)
  | array (t : ScalarType) (n : Nat)
  | vector (t : ScalarType)
  | string
  deriving DecidableEq, Repr

def Pack.types : Pack → List ArgType
  | scalar args => args.map .scalar
  | array t n => [.array t n]
  | vector t => [.vector t]
  | string => [.string]

/-- The pack is a `std::array<T, 0>`. -/
def Pack.isEmptyArray : Pack → Bool
  | array _ n => n == 0
  | scalar _ | vector _ | string => false

theorem Pack.isEmptyArray_iff (p : Pack) : p.isEmptyArray = true ↔ ∃ t, p = .array t 0 := by
  cases p <;> simp [isEmptyArray]

structure PackState where
  packs : List Pack
  argsList : List ScalarType
  hasVector : Bool

/-- `if len(args_list) > 0: ...`, before a container and after the loop. -/
def PackState.flush (st : PackState) : PackState :=
  if st.argsList.length > 0 then
    { st with packs := st.packs ++ [.scalar st.argsList], argsList := [] }
  else st

def packArg (st : PackState) : ArgType → PackState
  | .array t n =>
      let st := st.flush
      { st with packs := st.packs ++ [.array t n] }
  | .vector t =>
      let st := { st with hasVector := true }.flush
      { st with packs := st.packs ++ [.vector t] }
  | .string =>
      let st := { st with hasVector := true }.flush
      { st with packs := st.packs ++ [.string] }
  | .scalar t => { st with argsList := st.argsList ++ [t] }

/-- `build_args_packs`: the packs and `has_vector`. -/
def buildArgsPacks (arguments : Signature) : List Pack × Bool :=
  let st := (arguments.foldl packArg ⟨[], [], false⟩).flush
  (st.packs, st.hasVector)

/-- The arguments that the packs and the pending scalars stand for, in order. -/
def PackState.types (st : PackState) : List ArgType :=
  st.packs.flatMap Pack.types ++ st.argsList.map .scalar

theorem PackState.flush_types (st : PackState) :
    st.flush.packs.flatMap Pack.types = st.types ∧ st.flush.argsList = [] := by
  unfold flush PackState.types
  by_cases h : st.argsList.length > 0
  · simp [h, Pack.types]
  · have hnil : st.argsList = [] := List.eq_nil_of_length_eq_zero (by omega)
    simp [hnil]

theorem packArg_types (st : PackState) (a : ArgType) : (packArg st a).types = st.types ++ [a] := by
  cases a with
  | scalar t => simp [packArg, PackState.types]
  | array t n =>
      obtain ⟨hpacks, hnil⟩ := st.flush_types
      simp [packArg, PackState.types, hnil, hpacks, Pack.types]
  | vector t =>
      obtain ⟨hpacks, hnil⟩ := PackState.flush_types { st with hasVector := true }
      simp only [packArg, PackState.types, hnil, List.flatMap_append, hpacks]
      simp [Pack.types]
  | string =>
      obtain ⟨hpacks, hnil⟩ := PackState.flush_types { st with hasVector := true }
      simp only [packArg, PackState.types, hnil, List.flatMap_append, hpacks]
      simp [Pack.types]

theorem foldl_packArg_types (arguments : Signature) (st : PackState) :
    (arguments.foldl packArg st).types = st.types ++ arguments := by
  induction arguments generalizing st with
  | nil => simp
  | cons a arguments ih => simp [ih, packArg_types]

/-- No argument is lost, doubled or moved. -/
theorem buildArgsPacks_types (arguments : Signature) :
    (buildArgsPacks arguments).1.flatMap Pack.types = arguments := by
  rw [buildArgsPacks, (PackState.flush_types _).1, foldl_packArg_types]
  rfl

theorem PackState.flush_hasVector (st : PackState) : st.flush.hasVector = st.hasVector := by
  unfold flush
  split
  · rfl
  · rfl

theorem packArg_hasVector {st : PackState} {a : ArgType} (h : (packArg st a).hasVector = false) :
    st.hasVector = false ∧ (∀ t, a ≠ .vector t) ∧ a ≠ .string := by
  cases a with
  | scalar t => exact ⟨h, by simp⟩
  | array t n =>
      have hflush : st.flush.hasVector = false := h
      rw [st.flush_hasVector] at hflush
      exact ⟨hflush, by simp⟩
  | vector t =>
      have hflush : (PackState.flush { st with hasVector := true }).hasVector = false := h
      rw [PackState.flush_hasVector] at hflush
      cases hflush
  | string =>
      have hflush : (PackState.flush { st with hasVector := true }).hasVector = false := h
      rw [PackState.flush_hasVector] at hflush
      cases hflush

theorem foldl_packArg_hasVector {arguments : Signature} {st : PackState}
    (h : (arguments.foldl packArg st).hasVector = false) :
    st.hasVector = false ∧ ∀ a ∈ arguments, (∀ t, a ≠ .vector t) ∧ a ≠ .string := by
  induction arguments generalizing st with
  | nil => exact ⟨h, by simp⟩
  | cons a arguments ih =>
      obtain ⟨hst, hrest⟩ := ih h
      obtain ⟨hfirst, ha⟩ := packArg_hasVector hst
      exact ⟨hfirst, List.forall_mem_cons.mpr ⟨ha, hrest⟩⟩

theorem pack_of_not_hasVector {arguments : Signature} (h : (buildArgsPacks arguments).2 = false) :
    ∀ p ∈ (buildArgsPacks arguments).1, (∃ ts, p = .scalar ts) ∨ ∃ t n, p = .array t n := by
  intro p hp
  have hfold : (arguments.foldl packArg ⟨[], [], false⟩).flush.hasVector = false := h
  rw [PackState.flush_hasVector] at hfold
  have hnone := (foldl_packArg_hasVector hfold).2
  have hmem : ∀ a ∈ p.types, a ∈ arguments := by
    intro a ha
    rw [← buildArgsPacks_types arguments]
    exact List.mem_flatMap_of_mem hp ha
  cases p with
  | scalar ts => exact .inl ⟨ts, rfl⟩
  | array t n => exact .inr ⟨t, n, rfl⟩
  | vector t => exact absurd rfl ((hnone _ (hmem _ (List.mem_singleton.mpr rfl))).1 t)
  | string => exact absurd rfl (hnone _ (hmem _ (List.mem_singleton.mpr rfl))).2

theorem PackState.flush_nonempty {st : PackState} (h : ∀ p ∈ st.packs, p ≠ .scalar []) :
    ∀ p ∈ st.flush.packs, p ≠ .scalar [] := by
  unfold flush
  split
  · rename_i hlen
    intro p hp
    rcases List.mem_append.mp hp with hp | hp
    · exact h p hp
    · rw [List.mem_singleton.mp hp]
      intro hnil
      rw [Pack.scalar.inj hnil] at hlen
      exact absurd hlen (by decide)
  · exact h

theorem packArg_nonempty {st : PackState} (h : ∀ p ∈ st.packs, p ≠ .scalar []) (a : ArgType) :
    ∀ p ∈ (packArg st a).packs, p ≠ .scalar [] := by
  have hpush : ∀ (st : PackState) (pack : Pack), (∀ p ∈ st.packs, p ≠ .scalar []) →
    pack ≠ .scalar [] →
      ∀ p ∈ st.flush.packs ++ [pack], p ≠ .scalar [] := by
    intro st pack hst hpack p hp
    rcases List.mem_append.mp hp with hp | hp
    · exact PackState.flush_nonempty hst p hp
    · rw [List.mem_singleton.mp hp]
      exact hpack
  cases a with
  | scalar t => exact h
  | array t n => exact hpush st (.array t n) h (by simp)
  | vector t => exact hpush { st with hasVector := true } (.vector t) h (by simp)
  | string => exact hpush { st with hasVector := true } .string h (by simp)

theorem foldl_packArg_nonempty {arguments : Signature} {st : PackState}
    (h : ∀ p ∈ st.packs, p ≠ .scalar []) :
    ∀ p ∈ (arguments.foldl packArg st).packs, p ≠ .scalar [] := by
  induction arguments generalizing st with
  | nil => exact h
  | cons a arguments ih => exact ih (packArg_nonempty h a)

theorem buildArgsPacks_nonempty (arguments : Signature) :
    ∀ p ∈ (buildArgsPacks arguments).1, p ≠ .scalar [] :=
  PackState.flush_nonempty (foldl_packArg_nonempty (by simp))

/-! ## Operations -/

def cmdPayloadBufferLen : Nat := 16384 * 8

/-- What `print_req_buff_size` adds up, for packs without a vector or string. -/
def reqBuffSize : List Pack → Nat
  | [] => 0
  | .scalar args :: packs => requiredBufferSize args + reqBuffSize packs
  | .array t n :: packs => t.sizeOfArray n + reqBuffSize packs
  | _ :: packs => reqBuffSize packs

/-- The `static_assert` of `Buffer::deserialize`, which `Session<WEBSOCK>` applies to the
payload: a pack of scalars fits in it. -/
def Pack.Fits : Pack → Prop
  | scalar args => requiredBufferSize args ≤ cmdPayloadBufferLen
  | _ => True

instance (p : Pack) : Decidable p.Fits :=
  match p with
  | .scalar args => inferInstanceAs (Decidable (requiredBufferSize args ≤ cmdPayloadBufferLen))
  | .array .. | .vector _ | .string => inferInstanceAs (Decidable True)

/-- An operation of a device whose generated parser compiles. -/
structure Operation where
  arguments : Signature
  reqBuffSize_le : (buildArgsPacks arguments).2 = false →
    reqBuffSize (buildArgsPacks arguments).1 ≤ cmdPayloadBufferLen
  fits : ∀ p ∈ (buildArgsPacks arguments).1, p.Fits

end KoheronServer.Wire
