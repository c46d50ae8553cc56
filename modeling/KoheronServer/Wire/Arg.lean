import KoheronServer.Wire.Scalar

/-!
# Arguments of operations

An operation takes scalars, `std::array`, `std::vector` and `std::string` of
scalars. The elements of a container are kept as their object representation,
which is all that the serializer and the receiving side copy. `Arg.wire` is the
message format that `build_command` and the generated parsers have to agree on.
-/

namespace KoheronServer.Wire

open Foundation

structure Scalar where
  type : ScalarType
  value : type.Val

inductive ArgType where
  | scalar (t : ScalarType)
  | array (t : ScalarType) (n : Nat)
  | vector (t : ScalarType)
  | string
  deriving DecidableEq, Repr

abbrev Signature := List ArgType

/-- An argument with its type. The bytes of a container are those of its elements. -/
inductive Arg where
  | scalar (t : ScalarType) (value : t.Val)
  | array (t : ScalarType) (n : Nat) (bytes : Bytes) (size : bytes.length = n * t.sizeOf)
  | vector (t : ScalarType) (bytes : Bytes) (whole : t.sizeOf ∣ bytes.length)
  | string (bytes : Bytes)

namespace Arg

def type : Arg → ArgType
  | scalar t _ => .scalar t
  | array t n _ _ => .array t n
  | vector t _ _ => .vector t
  | string _ => .string

/-- The object representation of a container; a scalar has none of its own. -/
def contents : Arg → Bytes
  | scalar _ _ => []
  | array _ _ bytes _ | vector _ bytes _ | string bytes => bytes

def IsScalar (a : Arg) : Prop := ∃ t, a.type = .scalar t

def IsEmptyArray (a : Arg) : Prop := ∃ t, a.type = .array t 0

instance (a : Arg) : Decidable a.IsScalar :=
  match a with
  | scalar t _ => .isTrue ⟨t, rfl⟩
  | array .. => .isFalse (by rintro ⟨_, h⟩; cases h)
  | vector .. => .isFalse (by rintro ⟨_, h⟩; cases h)
  | string _ => .isFalse (by rintro ⟨_, h⟩; cases h)

instance (a : Arg) : Decidable a.IsEmptyArray :=
  match a with
  | scalar .. => .isFalse (by rintro ⟨_, h⟩; cases h)
  | array t 0 _ _ => .isTrue ⟨t, rfl⟩
  | array _ (_ + 1) _ _ => .isFalse (by rintro ⟨_, h⟩; cases h)
  | vector .. => .isFalse (by rintro ⟨_, h⟩; cases h)
  | string _ => .isFalse (by rintro ⟨_, h⟩; cases h)

/-- The bytes of a dynamic container: its byte count in 32 bits, then as many bytes. -/
def containerWire (bytes : Bytes) : Bytes :=
  appendUint32 (BitVec.ofNat 32 bytes.length) ++ bytes.take (bytes.length % 2 ^ 32)

def wire : Arg → Bytes
  | scalar t value => append t value
  | array _ _ bytes _ => bytes
  | vector _ bytes _ | string bytes => containerWire bytes

theorem containerWire_of_lt {bytes : Bytes} (h : bytes.length < 2 ^ 32) :
    containerWire bytes = appendUint32 (BitVec.ofNat 32 bytes.length) ++ bytes := by
  rw [containerWire, Nat.mod_eq_of_lt h, List.take_length]

theorem containerWire_inj {xs ys : Bytes} (hxs : xs.length < 2 ^ 32) (hys : ys.length < 2 ^ 32)
    (h : containerWire xs = containerWire ys) : xs = ys := by
  rw [containerWire_of_lt hxs, containerWire_of_lt hys] at h
  exact (List.append_inj h (by simp [appendUint32])).2

@[simp] theorem containerWire_length (bytes : Bytes) :
    (containerWire bytes).length = 4 + bytes.length % 2 ^ 32 := by
  have hle := Nat.mod_le bytes.length (2 ^ 32)
  simp [containerWire, appendUint32]
  omega

theorem wire_eq_nil_iff (a : Arg) : a.wire = [] ↔ a.IsEmptyArray := by
  cases a with
  | scalar t value =>
      have hpos := t.sizeOf_pos
      have hlen := append_length t value
      constructor
      · intro h
        rw [wire] at h
        rw [h] at hlen
        simp only [List.length_nil] at hlen
        omega
      · rintro ⟨_, h⟩
        cases h
  | array t n bytes size =>
      have hpos := t.sizeOf_pos
      rw [wire, ← List.length_eq_zero_iff, size]
      constructor
      · intro h
        obtain rfl : n = 0 := by
          rcases Nat.mul_eq_zero.mp h with h | h
          · exact h
          · omega
        exact ⟨t, rfl⟩
      · rintro ⟨_, h⟩
        cases h
        simp
  | vector t bytes whole =>
      simp [wire, ← List.length_eq_zero_iff, IsEmptyArray, type]
  | string bytes =>
      simp [wire, ← List.length_eq_zero_iff, IsEmptyArray, type]

end Arg

def argsWire (args : List Arg) : Bytes := args.flatMap Arg.wire

@[simp] theorem argsWire_nil : argsWire [] = [] := rfl

@[simp] theorem argsWire_cons (a : Arg) (args : List Arg) :
    argsWire (a :: args) = a.wire ++ argsWire args := rfl

@[simp] theorem argsWire_append (xs ys : List Arg) :
    argsWire (xs ++ ys) = argsWire xs ++ argsWire ys := by
  simp [argsWire]

/-- What holds at every place of a list holds at its head and at every place of its tail. -/
theorem forall_split_cons {α : Type} {P : α → List α → Prop} (x : α) (xs : List α) :
    (∀ pre a post, x :: xs = pre ++ a :: post → P a post) ↔
      P x xs ∧ ∀ pre a post, xs = pre ++ a :: post → P a post := by
  constructor
  · intro h
    refine ⟨h [] x xs rfl, ?_⟩
    rintro pre a post rfl
    exact h (x :: pre) a post rfl
  · rintro ⟨hhead, htail⟩ pre a post heq
    cases pre with
    | nil =>
        obtain ⟨rfl, rfl⟩ := List.cons.inj heq
        exact hhead
    | cons b pre =>
        obtain ⟨rfl, rfl⟩ := List.cons.inj heq
        exact htail pre a post rfl

/-- Behind a `std::array<T, 0>` among `args`, neither the other arguments nor `rest` bring a
byte. -/
def EmptyArraysLast (args : List Arg) (rest : Bytes) : Prop :=
  ∀ pre a post, args = pre ++ a :: post → a.IsEmptyArray → argsWire post ++ rest = []

theorem emptyArraysLast_nil (rest : Bytes) : EmptyArraysLast [] rest := by
  intro pre a post h
  simp at h

theorem emptyArraysLast_cons (a : Arg) (args : List Arg) (rest : Bytes) :
    EmptyArraysLast (a :: args) rest ↔
      (a.IsEmptyArray → argsWire args ++ rest = []) ∧ EmptyArraysLast args rest :=
  forall_split_cons (P := fun (a : Arg) post => a.IsEmptyArray → argsWire post ++ rest = []) a args

theorem emptyArraysLast_append {xs ys : List Arg} (rest : Bytes) (h : ∀ a ∈ xs, ¬ a.IsEmptyArray) :
    EmptyArraysLast (xs ++ ys) rest ↔ EmptyArraysLast ys rest := by
  induction xs with
  | nil => rfl
  | cons a xs ih =>
      rw [List.cons_append, emptyArraysLast_cons, ih fun b hb => h b (by simp [hb])]
      simp [h a (by simp)]

end KoheronServer.Wire
