import Mathlib.Data.List.Basic

/-!
# Searching in a string

The place where a pattern occurs first. It stays where it is when more is appended, so
what is found in a part of a string is what is found in all of it.
-/

namespace Foundation

variable {α : Type} [DecidableEq α]

/-- `find`, from the start of the string. -/
def find (pattern : List α) : List α → Option Nat
  | [] => if pattern = [] then some 0 else none
  | a :: s => if pattern <+: a :: s then some 0 else (find pattern s).map (· + 1)

theorem find_isSome_iff {pattern s : List α} : (find pattern s).isSome ↔ pattern <:+: s := by
  induction s with
  | nil =>
      by_cases hnil : pattern = []
      · simp [find, hnil]
      · simp [find, hnil]
  | cons a s ih =>
      rw [List.infix_cons_iff, ← ih, find]
      by_cases hstart : pattern <+: a :: s
      · simp [hstart]
      · simp [hstart]

theorem find_eq_none_iff {pattern s : List α} : find pattern s = none ↔ ¬pattern <:+: s := by
  rw [← find_isSome_iff, Option.not_isSome_iff_eq_none]

theorem find_le {pattern s : List α} {i : Nat} (h : find pattern s = some i) :
    i + pattern.length ≤ s.length := by
  induction s generalizing i with
  | nil =>
      rw [find] at h
      split_ifs at h with hnil
      obtain rfl := Option.some.inj h
      simp [hnil]
  | cons a s ih =>
      rw [find] at h
      split_ifs at h with hstart
      · obtain rfl := Option.some.inj h
        rw [Nat.zero_add]
        exact hstart.length_le
      · obtain ⟨j, hj, rfl⟩ := Option.map_eq_some_iff.mp h
        have hle := ih hj
        rw [List.length_cons]
        omega

theorem find_append {pattern s : List α} {i : Nat} (h : find pattern s = some i) (rest : List α) :
    find pattern (s ++ rest) = some i := by
  induction s generalizing i with
  | nil =>
      rw [find] at h
      split_ifs at h with hnil
      obtain rfl := Option.some.inj h
      cases rest with
      | nil => simp [find, hnil]
      | cons b rest => simp [find, hnil]
  | cons a s ih =>
      rw [find] at h
      rw [List.cons_append, find]
      split_ifs at h with hstart
      · obtain rfl := Option.some.inj h
        exact if_pos (hstart.trans (List.prefix_append (a :: s) rest))
      · obtain ⟨j, hj, rfl⟩ := Option.map_eq_some_iff.mp h
        -- a pattern that starts here and that fits in the tail does not reach into the rest
        have hle := find_le hj
        have hnot : ¬pattern <+: a :: (s ++ rest) := by
          intro hlong
          refine hstart (List.prefix_of_prefix_length_le hlong
            (List.prefix_append (a :: s) rest) ?_)
          rw [List.length_cons]
          omega
        rw [if_neg hnot, ih hj]
        rfl

/-- Nothing is found in a string that ends in front of the end of the first place. -/
theorem find_eq_none_of_prefix {pattern s t : List α} {i : Nat} (hfirst : find pattern t = some i)
    (hs : s <+: t) (hcut : s.length < i + pattern.length) : find pattern s = none := by
  obtain ⟨rest, rfl⟩ := hs
  cases hfind : find pattern s with
  | none => rfl
  | some j =>
      have hsame := find_append hfind rest
      rw [hfirst] at hsame
      obtain rfl := Option.some.inj hsame
      have hle := find_le hfind
      omega

end Foundation
