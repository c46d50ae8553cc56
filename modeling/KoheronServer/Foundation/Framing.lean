import Mathlib.Data.List.Basic

/-!
# Streams of frames

Values are written as frames, one behind the other. A reader that finds a value in its
whole frame, whatever follows, and nothing in a part of one, takes a stream apart into
the values and what there is of the next frame.
-/

namespace Foundation

variable {α β : Type}

/-- A reader of the frames of some values. -/
structure Framing (valid : α → Prop) (encode : α → List β) (read : List β → Option (α × List β)) :
    Prop where
  whole : ∀ x, valid x → ∀ rest, read (encode x ++ rest) = some (x, rest)
  cut : ∀ x, valid x → ∀ p, p <+: encode x → p ≠ encode x → read p = none
  nonempty : ∀ x, valid x → encode x ≠ []

def readFrames (read : List β → Option (α × List β)) : Nat → List β → List α × List β
  | 0, text => ([], text)
  | fuel + 1, text =>
      match read text with
      | none => ([], text)
      | some (x, rest) =>
          let (xs, rest) := readFrames read fuel rest
          (x :: xs, rest)

def readStream (read : List β → Option (α × List β)) (text : List β) : List α × List β :=
  readFrames read (text.length + 1) text

namespace Framing

variable {valid : α → Prop} {encode : α → List β} {read : List β → Option (α × List β)}

theorem length_le (h : Framing valid encode read) {xs : List α} (hxs : ∀ x ∈ xs, valid x) :
    xs.length ≤ (xs.flatMap encode).length := by
  induction xs with
  | nil => exact Nat.le_refl 0
  | cons x xs ih =>
      have hpos := List.length_pos_iff.mpr (h.nonempty x (hxs x List.mem_cons_self))
      have hrest := ih fun y hy => hxs y (List.mem_cons_of_mem x hy)
      rw [List.flatMap_cons, List.length_append, List.length_cons]
      omega

theorem readFrames_eq (h : Framing valid encode read) {xs : List α} (hxs : ∀ x ∈ xs, valid x)
    {rest : List β} (hrest : read rest = none) {fuel : Nat} (hfuel : xs.length < fuel) :
    readFrames read fuel (xs.flatMap encode ++ rest) = (xs, rest) := by
  induction xs generalizing fuel with
  | nil =>
      obtain ⟨fuel, rfl⟩ := Nat.exists_eq_add_of_lt hfuel
      rw [List.flatMap_nil, List.nil_append, readFrames, hrest]
  | cons x xs ih =>
      rw [List.length_cons] at hfuel
      obtain ⟨fuel, rfl⟩ : ∃ n, fuel = n + 1 := ⟨fuel - 1, by omega⟩
      have hread := h.whole x (hxs x List.mem_cons_self) (xs.flatMap encode ++ rest)
      have hxs' := @ih (fun y hy => hxs y (List.mem_cons_of_mem x hy)) fuel (by omega)
      rw [List.flatMap_cons, List.append_assoc, readFrames, hread]
      simp only [hxs']

theorem readStream_eq (h : Framing valid encode read) {xs : List α} (hxs : ∀ x ∈ xs, valid x)
    {rest : List β} (hrest : read rest = none) :
    readStream read (xs.flatMap encode ++ rest) = (xs, rest) := by
  have hlength := h.length_le hxs
  refine h.readFrames_eq hxs hrest ?_
  rw [List.length_append]
  omega

end Framing

end Foundation
