import Mathlib.Data.List.Basic

/-!
# Slices of a list

The part of a list from one place on, and the list when a part of it has been replaced.
A replacement that does not stay inside makes the list longer.
-/

namespace Foundation

variable {α : Type}

def slice (p n : Nat) (m : List α) : List α := (m.drop p).take n

/-- The list when `xs` has been copied to place `p`. -/
def splice (p : Nat) (xs m : List α) : List α := m.take p ++ xs ++ m.drop (p + xs.length)

variable {p n : Nat} {xs m : List α}

theorem slice_append_left (more : List α) (h : p + n ≤ m.length) :
    slice p n (m ++ more) = slice p n m := by
  rw [slice, slice, List.drop_append_of_le_length (by omega),
    List.take_append_of_le_length (by rw [List.length_drop]; omega)]

theorem slice_append_right (h : m.length ≤ p) (more : List α) :
    slice p n (m ++ more) = slice (p - m.length) n more := by
  rw [slice, slice, List.drop_append, List.drop_eq_nil_of_le h, List.nil_append]

@[simp] theorem splice_length (h : p + xs.length ≤ m.length) :
    (splice p xs m).length = m.length := by
  rw [splice, List.length_append, List.length_append, List.length_take, List.length_drop]
  omega

@[simp] theorem splice_nil : splice p [] m = m := by
  simp [splice]

theorem splice_all (h : xs.length = m.length) : splice 0 xs m = xs := by
  rw [splice, Nat.zero_add, h, List.drop_length, List.take_zero, List.nil_append, List.append_nil]

theorem slice_splice_self {n : Nat} (hn : xs.length = n) (h : p ≤ m.length) :
    slice p n (splice p xs m) = xs := by
  subst hn
  have hfront : (m.take p).length = p := by
    rw [List.length_take]
    omega
  rw [splice, List.append_assoc, slice_append_right (by omega), hfront, Nat.sub_self, slice,
    List.drop_zero, List.take_left]

/-- The elements in front of the replacement are those that were there. -/
theorem slice_splice_before {q : Nat} (h : q + n ≤ p) (hp : p ≤ m.length) :
    slice q n (splice p xs m) = slice q n m := by
  have hfront : (m.take p).length = p := by
    rw [List.length_take]
    omega
  have hwhole := slice_append_left (p := q) (n := n) (m := m.take p) (m.drop p) (by omega)
  rw [List.take_append_drop] at hwhole
  rw [splice, List.append_assoc, slice_append_left _ (by omega), hwhole]

theorem slice_splice_after {q : Nat} (h : p + xs.length ≤ q) (hp : p ≤ m.length) :
    slice q n (splice p xs m) = slice q n m := by
  have hfront : (m.take p ++ xs).length = p + xs.length := by
    rw [List.length_append, List.length_take]
    omega
  rw [splice, slice_append_right (by omega), hfront, slice, slice, List.drop_drop]
  congr 2
  omega

theorem take_splice (h : p ≤ m.length) :
    (splice p xs m).take (p + xs.length) = m.take p ++ xs := by
  refine List.take_left' ?_
  rw [List.length_append, List.length_take]
  omega

end Foundation
