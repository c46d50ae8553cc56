import KoheronServer.Foundation.Slices
import Mathlib.Data.List.Induction

/-!
# Taking a text block by block

A text that comes in pieces is taken in blocks of one length: what does not fill a
block is kept until more has come. How the text was cut into pieces cannot be seen
from what was taken of it.
-/

namespace Foundation

variable {α σ : Type}

/-- What the full blocks have made of the state, and what there is of the next block. -/
structure Blocks (σ α : Type) (n : Nat) where
  state : σ
  part : List α
  short : part.length < n

def block (n i : Nat) (text : List α) : List α := slice (n * i) n text

/-- The state when the full blocks of a text have been taken. -/
def taken (n : Nat) (take : σ → List α → σ) (s : σ) (text : List α) : σ :=
  (List.range (text.length / n)).foldl (fun s i => take s (block n i text)) s

namespace Blocks

variable {n : Nat} (take : σ → List α → σ)

/-- One more element: the block that it fills is taken. -/
def feed (x : Blocks σ α n) (a : α) : Blocks σ α n :=
  if h : x.part.length + 1 = n then
    ⟨take x.state (x.part ++ [a]), [], by rw [← h]; exact Nat.succ_pos _⟩
  else
    ⟨x.state, x.part ++ [a], by
      have hshort := x.short
      rw [List.length_append, List.length_singleton]
      omega⟩

theorem feed_state (x : Blocks σ α n) (a : α) :
    (x.feed take a).state =
      if x.part.length + 1 = n then take x.state (x.part ++ [a]) else x.state := by
  by_cases h : x.part.length + 1 = n
  · rw [feed, dif_pos h, if_pos h]
  · rw [feed, dif_neg h, if_neg h]

theorem feed_part (x : Blocks σ α n) (a : α) :
    (x.feed take a).part = if x.part.length + 1 = n then [] else x.part ++ [a] := by
  by_cases h : x.part.length + 1 = n
  · rw [feed, dif_pos h, if_pos h]
  · rw [feed, dif_neg h, if_neg h]

theorem foldl_feed_of_lt (x : Blocks σ α n) {text : List α}
    (h : x.part.length + text.length < n) :
    (text.foldl (feed take) x).state = x.state ∧
      (text.foldl (feed take) x).part = x.part ++ text := by
  induction text generalizing x with
  | nil => simp
  | cons a text ih =>
      rw [List.length_cons] at h
      have hopen : x.part.length + 1 ≠ n := by omega
      have hpart : (x.feed take a).part = x.part ++ [a] := by rw [feed_part, if_neg hopen]
      have hrest := ih (x.feed take a) (by
        rw [hpart, List.length_append, List.length_singleton]
        omega)
      rw [List.foldl_cons, hrest.1, hrest.2, hpart, feed_state, if_neg hopen]
      exact ⟨rfl, by rw [List.append_assoc, List.singleton_append]⟩

/-- What fills it is taken with it. -/
theorem foldl_feed_of_eq (x : Blocks σ α n) {text : List α}
    (h : x.part.length + text.length = n) :
    (text.foldl (feed take) x).state = take x.state (x.part ++ text) ∧
      (text.foldl (feed take) x).part = [] := by
  induction text generalizing x with
  | nil => exact absurd x.short (by rw [List.length_nil] at h; omega)
  | cons a text ih =>
      rw [List.length_cons] at h
      by_cases hlast : x.part.length + 1 = n
      · obtain rfl : text = [] := List.eq_nil_of_length_eq_zero (by omega)
        rw [List.foldl_cons, List.foldl_nil, feed_state, feed_part, if_pos hlast, if_pos hlast]
        exact ⟨rfl, rfl⟩
      · have hpart : (x.feed take a).part = x.part ++ [a] := by rw [feed_part, if_neg hlast]
        have hrest := ih (x.feed take a) (by
          rw [hpart, List.length_append, List.length_singleton]
          omega)
        rw [List.foldl_cons, hrest.1, hrest.2, hpart, feed_state, if_neg hlast, List.append_assoc,
          List.singleton_append]
        exact ⟨rfl, rfl⟩

end Blocks

/-! ## Whole texts -/

theorem block_append {n i : Nat} {text : List α} (more : List α) (h : i < text.length / n) :
    block n i (text ++ more) = block n i text := by
  have hle : n * (i + 1) ≤ text.length :=
    Nat.le_trans (Nat.mul_le_mul_left n h) (Nat.mul_div_le text.length n)
  rw [Nat.mul_succ] at hle
  exact slice_append_left more hle

theorem taken_append {n : Nat} {take : σ → List α → σ} (s : σ) {text more : List α}
    (h : (text ++ more).length / n = text.length / n) :
    taken n take s (text ++ more) = taken n take s text := by
  rw [taken, taken, h]
  refine List.foldl_ext _ _ s fun s i hi => ?_
  rw [block_append more (List.mem_range.mp hi)]

theorem taken_concat {n : Nat} {take : σ → List α → σ} (s : σ) {text : List α} {a : α}
    (h : (text ++ [a]).length / n = text.length / n + 1) :
    taken n take s (text ++ [a]) =
      take (taken n take s text) (block n (text.length / n) (text ++ [a])) := by
  rw [taken, h, List.range_succ, List.foldl_append, List.foldl_cons, List.foldl_nil, taken]
  congr 1
  refine List.foldl_ext _ _ s fun s i hi => ?_
  rw [block_append [a] (List.mem_range.mp hi)]

/-- A text that is fed from the start has its full blocks taken and the rest kept. -/
theorem Blocks.foldl_feed {n : Nat} (take : σ → List α → σ) (s : σ) (hn : 0 < n)
    (text : List α) :
    (text.foldl (Blocks.feed take) ⟨s, [], hn⟩).state = taken n take s text ∧
      (text.foldl (Blocks.feed take) ⟨s, [], hn⟩).part =
        text.drop (n * (text.length / n)) := by
  induction text using List.reverseRecOn with
  | nil => simp [taken]
  | append_singleton text a ih =>
      obtain ⟨hstate, hpart⟩ := ih
      have hmod := Nat.div_add_mod text.length n
      have hlt := Nat.mod_lt text.length hn
      have hlength : (text.drop (n * (text.length / n))).length = text.length % n := by
        rw [List.length_drop]
        omega
      have hdrop : (text ++ [a]).drop (n * (text.length / n)) =
          text.drop (n * (text.length / n)) ++ [a] :=
        List.drop_append_of_le_length (Nat.mul_div_le text.length n)
      rw [List.foldl_append, List.foldl_cons, List.foldl_nil, feed_state, feed_part, hstate, hpart,
        hlength]
      by_cases hfull : text.length % n + 1 = n
      · have hdiv : (text ++ [a]).length / n = text.length / n + 1 := by
          rw [List.length_append, List.length_singleton]
          rw [show text.length + 1 = n * (text.length / n + 1) by rw [Nat.mul_succ]; omega,
            Nat.mul_div_cancel_left _ hn]
        rw [if_pos hfull, if_pos hfull, taken_concat s hdiv, hdiv, block, slice, hdrop]
        refine ⟨?_, ?_⟩
        · rw [List.take_of_length_le]
          rw [List.length_append, hlength, List.length_singleton]
          omega
        · symm
          apply List.drop_eq_nil_of_le
          rw [List.length_append, List.length_singleton, Nat.mul_succ]
          omega
      · have hdiv : (text ++ [a]).length / n = text.length / n := by
          rw [List.length_append, List.length_singleton]
          rw [show text.length + 1 = (text.length % n + 1) + n * (text.length / n) by omega,
            Nat.add_mul_div_left _ _ hn, Nat.div_eq_of_lt (by omega), Nat.zero_add]
        rw [if_neg hfull, if_neg hfull, taken_append s hdiv, hdiv, hdrop]
        exact ⟨rfl, rfl⟩

end Foundation
