import Mathlib.Data.List.DropRight
import Mathlib.Data.List.TakeWhile
import Mathlib.Tactic.SplitIfs

/-!
# Texts

The methods of a Python string that cut it: `strip` and the pieces of `split`. A text is the
list of its characters.
-/

namespace Foundation

def isBlank (c : Char) : Bool := c = ' ' || ('\t' ≤ c && c ≤ '\r')

def Blank (s : List Char) : Prop := ∀ c ∈ s, isBlank c = true

instance (s : List Char) : Decidable (Blank s) := List.decidableBAll (isBlank · = true) s

/-- `strip`: without the white space at both ends. -/
def strip (s : List Char) : List Char := (s.dropWhile isBlank).rdropWhile isBlank

def Trimmed (s : List Char) : Prop := strip s = s

instance (s : List Char) : Decidable (Trimmed s) := inferInstanceAs (Decidable (strip s = s))

@[simp] theorem blank_nil : Blank [] := by
  simp [Blank]

theorem Blank.append {s t : List Char} (hs : Blank s) (ht : Blank t) : Blank (s ++ t) :=
  List.forall_mem_append.mpr ⟨hs, ht⟩

theorem strip_append_left {b : List Char} (hb : Blank b) (s : List Char) :
    strip (b ++ s) = strip s := by
  rw [strip, List.dropWhile_append_of_pos hb, strip]

theorem dropWhile_eq_nil_of_blank {b : List Char} (hb : Blank b) : b.dropWhile isBlank = [] :=
  List.dropWhile_eq_nil_iff.mpr hb

theorem rdropWhile_append_blank {b : List Char} (hb : Blank b) (s : List Char) :
    (s ++ b).rdropWhile isBlank = s.rdropWhile isBlank := by
  have hreverse : ∀ c ∈ b.reverse, isBlank c = true := fun c hc => hb c (List.mem_reverse.mp hc)
  rw [List.rdropWhile, List.reverse_append, List.dropWhile_append_of_pos hreverse, List.rdropWhile]

theorem strip_append_right {b : List Char} (hb : Blank b) (s : List Char) :
    strip (s ++ b) = strip s := by
  cases hs : s.dropWhile isBlank with
  | nil =>
      have hall : Blank s := List.dropWhile_eq_nil_iff.mp hs
      rw [strip, List.dropWhile_append_of_pos hall, dropWhile_eq_nil_of_blank hb, strip, hs]
  | cons c rest =>
      have hdrop : (s ++ b).dropWhile isBlank = s.dropWhile isBlank ++ b := by
        rw [List.dropWhile_append, hs]
        rfl
      rw [strip, hdrop, rdropWhile_append_blank hb, strip]

theorem strip_trimmed (s : List Char) : Trimmed (strip s) := by
  unfold Trimmed
  cases hfront : (strip s).dropWhile isBlank with
  | nil =>
      have hblank : Blank (strip s) := List.dropWhile_eq_nil_iff.mp hfront
      have hnil : strip s = [] := by
        rw [strip, ← List.rdropWhile_idempotent, ← strip]
        exact List.rdropWhile_eq_nil_iff.mpr hblank
      rw [hnil]
      rfl
  | cons c rest =>
      have hhead : (strip s).dropWhile isBlank = strip s := by
        cases hstrip : strip s with
        | nil => rfl
        | cons d tail =>
            -- the first character is the first of `dropWhile`
            obtain ⟨behind, hsplit⟩ := List.rdropWhile_prefix isBlank (s.dropWhile isBlank)
            have hs : s.dropWhile isBlank = d :: (tail ++ behind) := by
              rw [← hsplit, ← strip, hstrip]
              rfl
            have hd : ¬isBlank d = true := by
              have hne : s.dropWhile isBlank ≠ [] := by simp [hs]
              have hnot := List.head_dropWhile_not isBlank hne
              simpa [hs] using hnot
            rw [List.dropWhile_cons_of_neg hd]
      rw [strip, hhead, strip, List.rdropWhile_idempotent]

theorem trimmed_of_ends {s : List Char} (hfront : ∀ c, s.head? = some c → isBlank c = false)
    (hback : ∀ c, s.getLast? = some c → isBlank c = false) : Trimmed s := by
  cases s with
  | nil => rfl
  | cons c s =>
      have hc : ¬isBlank c = true := by simp [hfront c rfl]
      rw [Trimmed, strip, List.dropWhile_cons_of_neg hc]
      refine List.rdropWhile_eq_self_iff.mpr fun hne => ?_
      simp [hback _ (List.getLast?_eq_some_getLast hne)]

/-- A text is what `strip` leaves, between white space. -/
theorem exists_strip_append (s : List Char) :
    ∃ b c, Blank b ∧ Blank c ∧ s = b ++ strip s ++ c := by
  refine ⟨s.takeWhile isBlank, (s.dropWhile isBlank).rtakeWhile isBlank, ?_, ?_, ?_⟩
  · intro c hc
    exact List.mem_takeWhile_imp hc
  · intro c hc
    exact List.mem_rtakeWhile_imp hc
  · rw [strip, List.append_assoc, List.rdropWhile_append_rtakeWhile,
      List.takeWhile_append_dropWhile]

theorem strip_between {s b c : List Char} (hs : Trimmed s) (hb : Blank b) (hc : Blank c) :
    strip (b ++ s ++ c) = s := by
  rw [strip_append_right hc, strip_append_left hb, hs]

/-! ## Pieces -/

section

variable {α : Type} [DecidableEq α] {a : α}

/-- A text that a separator follows is what stands in front of the first separator. -/
theorem takeWhile_ne_append {s : List α} (h : a ∉ s) (rest : List α) :
    (s ++ a :: rest).takeWhile (· ≠ a) = s := by
  have hpass : ∀ b ∈ s, decide (b ≠ a) = true := by
    intro b hb
    exact decide_eq_true fun heq => h (heq ▸ hb)
  rw [List.takeWhile_append_of_pos hpass, List.takeWhile_cons_of_neg (by simp), List.append_nil]

theorem takeWhile_ne_of_notMem {s : List α} (h : a ∉ s) : s.takeWhile (· ≠ a) = s := by
  refine List.takeWhile_eq_self_iff.mpr fun b hb => ?_
  exact decide_eq_true fun heq => h (heq ▸ hb)

/-- The first piece of a text ends in front of the first separator. -/
theorem splitOn_getElem?_zero (a : α) (s : List α) :
    (s.splitOn a)[0]? = some (s.takeWhile (· ≠ a)) := by
  by_cases hmem : a ∈ s
  · obtain ⟨front, rest, rfl, hfront⟩ := List.eq_append_cons_of_mem hmem
    rw [List.splitOn_append_cons_self_of_not_mem hfront, takeWhile_ne_append hfront]
    rfl
  · rw [List.splitOn_eq_singleton hmem, takeWhile_ne_of_notMem hmem]
    rfl

/-- The pieces behind the first separator are those of the text behind it. -/
theorem splitOn_getElem?_succ {s : List α} (h : a ∉ s) (rest : List α) (i : Nat) :
    ((s ++ a :: rest).splitOn a)[i + 1]? = (rest.splitOn a)[i]? := by
  rw [List.splitOn_append_cons_self_of_not_mem h rest, List.getElem?_cons_succ]

theorem splitOn_getElem?_one_isSome_iff {s : List α} :
    (s.splitOn a)[1]?.isSome ↔ a ∈ s := by
  constructor
  · intro hsome
    by_contra hnot
    rw [List.splitOn_eq_singleton hnot] at hsome
    cases hsome
  · intro hmem
    obtain ⟨front, rest, rfl, hfront⟩ := List.eq_append_cons_of_mem hmem
    rw [splitOn_getElem?_succ hfront, splitOn_getElem?_zero]
    rfl

end

/-! ## Replacing -/

/-- `replace`, where the next `skip` characters belong to an occurrence. -/
def replaceFrom (old new : List Char) : Nat → List Char → List Char
  | _, [] => []
  | skip + 1, _ :: s => replaceFrom old new skip s
  | 0, c :: s =>
      if old.isPrefixOf (c :: s) then new ++ replaceFrom old new (old.length - 1) s
      else c :: replaceFrom old new 0 s

/-- `s.replace(old, new)`, for a pattern that is not empty: from left to right, the occurrences do
not overlap. -/
def replace (old new s : List Char) : List Char := replaceFrom old new 0 s

@[simp] theorem replace_nil (old new : List Char) : replace old new [] = [] := rfl

theorem replace_cons_of_ne {d c : Char} {old : List Char} (h : c ≠ d) (new s : List Char) :
    replace (d :: old) new (c :: s) = c :: replace (d :: old) new s := by
  have hnot : ¬(d :: old).isPrefixOf (c :: s) = true := by
    rw [List.isPrefixOf_iff_prefix, List.cons_prefix_cons]
    exact fun hprefix => h hprefix.1.symm
  rw [replace, replaceFrom, if_neg hnot]
  rfl

theorem replace_char (d : Char) (new s : List Char) :
    replace [d] new (d :: s) = new ++ replace [d] new s := by
  have hprefix : [d].isPrefixOf (d :: s) = true := by simp
  rw [replace, replaceFrom, if_pos hprefix]
  rfl

theorem replace_pair (d e : Char) (new s : List Char) :
    replace [d, e] new (d :: e :: s) = new ++ replace [d, e] new s := by
  have hprefix : [d, e].isPrefixOf (d :: e :: s) = true := by simp
  rw [replace, replaceFrom, if_pos hprefix]
  rfl

theorem replace_pair_of_ne {d e c : Char} (h : c ≠ e) (new s : List Char) :
    replace [d, e] new (d :: c :: s) = d :: replace [d, e] new (c :: s) := by
  have hnot : ¬[d, e].isPrefixOf (d :: c :: s) = true := by
    simp [h.symm]
  rw [replace, replaceFrom, if_neg hnot]
  rfl

end Foundation
