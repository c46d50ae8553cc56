import Mathlib.Data.List.Nodup
import Mathlib.Data.List.Perm.Basic
import Mathlib.Tactic.Ring

/-!
# Removing from a vector by a swap

The idiom that exchanges the first occurrence of an element with the last
element and pops the end. It removes what `List.erase` removes, up to order.
-/

namespace Foundation

variable {α : Type} [DecidableEq α]

/-- `it = find(begin, end, a); if (it != end) { swap(*it, back()); pop_back(); }` -/
def swapRemove (a : α) (l : List α) : List α :=
  match l.getLast? with
  | none => l
  | some back => if a ∈ l then (l.set (l.idxOf a) back).dropLast else l

omit [DecidableEq α] in
theorem getLast?_moved (pre : List α) (a : α) (mid : List α) (back : α) :
    (pre ++ a :: (mid ++ [back])).getLast? = some back := by
  rw [show pre ++ a :: (mid ++ [back]) = (pre ++ a :: mid) ++ [back] by simp, List.getLast?_concat]

theorem swapRemove_of_notMem {a : α} {l : List α} (h : a ∉ l) : swapRemove a l = l := by
  unfold swapRemove
  split
  · rfl
  · rw [if_neg h]

/-- The last element goes where the first occurrence was. -/
theorem swapRemove_append {a : α} {pre : List α} (hpre : a ∉ pre) (mid : List α) (back : α) :
    swapRemove a (pre ++ a :: (mid ++ [back])) = pre ++ back :: mid := by
  have hidx : (pre ++ a :: (mid ++ [back])).idxOf a = pre.length := by
    simp [List.idxOf_append, hpre]
  have hset : (pre ++ a :: (mid ++ [back])).set pre.length back =
      (pre ++ back :: mid) ++ [back] := by
    rw [List.set_append_right _ _ (Nat.le_refl _)]
    simp
  simp only [swapRemove, getLast?_moved, hidx, hset, List.dropLast_concat]
  exact if_pos (by simp)

theorem swapRemove_concat {a : α} {pre : List α} (hpre : a ∉ pre) :
    swapRemove a (pre ++ [a]) = pre := by
  have hidx : (pre ++ [a]).idxOf a = pre.length := by
    simp [List.idxOf_append, hpre]
  have hset : (pre ++ [a]).set pre.length a = pre ++ [a] := by
    rw [List.set_append_right _ _ (Nat.le_refl _)]
    simp
  simp [swapRemove, hidx, hset]

theorem swapRemove_perm (a : α) (l : List α) : (swapRemove a l).Perm (l.erase a) := by
  by_cases ha : a ∈ l
  · obtain ⟨pre, post, rfl, hpre⟩ := List.eq_append_cons_of_mem ha
    have herase : (pre ++ a :: post).erase a = pre ++ post := by
      rw [List.erase_append_right _ hpre, List.erase_cons_head]
    rw [herase]
    rcases List.eq_nil_or_concat post with rfl | ⟨mid, back, rfl⟩
    · rw [swapRemove_concat hpre, List.append_nil]
    · rw [List.concat_eq_append, swapRemove_append hpre]
      exact (List.perm_append_singleton back mid).symm.append_left pre
  · rw [swapRemove_of_notMem ha, List.erase_of_not_mem ha]

/-- From a vector without duplicates all of an element is removed, and nothing else. -/
theorem mem_swapRemove {a b : α} {l : List α} (h : l.Nodup) : b ∈ swapRemove a l ↔
    b ≠ a ∧ b ∈ l := by
  rw [(swapRemove_perm a l).mem_iff, h.mem_erase_iff]

theorem nodup_swapRemove (a : α) {l : List α} (h : l.Nodup) : (swapRemove a l).Nodup :=
  (swapRemove_perm a l).nodup_iff.mpr (h.erase a)

/-! ## The slot behind the end -/

/-- What the popped slot holds: the element removed, or still the last one where the compiler has
dropped the write to a slot that the pop gives up. -/
def vacated (kept : Bool) (a : α) (l : List α) : List α :=
  match l.getLast? with
  | none => []
  | some back => if a ∈ l then [if kept then back else a] else []

variable {kept : Bool}

theorem vacated_of_notMem {a : α} {l : List α} (h : a ∉ l) : vacated kept a l = [] := by
  unfold vacated
  split
  · rfl
  · rw [if_neg h]

theorem vacated_append {a : α} (pre mid : List α) (back : α) :
    vacated kept a (pre ++ a :: (mid ++ [back])) = [if kept then back else a] := by
  simp only [vacated, getLast?_moved]
  exact if_pos (by simp)

theorem vacated_concat {a : α} (pre : List α) : vacated kept a (pre ++ [a]) = [a] := by
  simp [vacated]

/-- The vector and the slot together are as long as before. -/
theorem length_swapRemove_vacated (a : α) (l : List α) :
    (swapRemove a l).length + (vacated kept a l).length = l.length := by
  by_cases ha : a ∈ l
  · obtain ⟨pre, post, rfl, hpre⟩ := List.eq_append_cons_of_mem ha
    rcases List.eq_nil_or_concat post with rfl | ⟨mid, back, rfl⟩
    · rw [swapRemove_concat hpre, vacated_concat]
      simp
    · rw [List.concat_eq_append, swapRemove_append hpre, vacated_append]
      simp
      omega
  · rw [swapRemove_of_notMem ha, vacated_of_notMem ha]
    rfl

/-- A slot keeps what it holds, or gets an element of the vector. -/
theorem getElem?_swapRemove_vacated {a x : α} {l popped : List α} {i : Nat}
    (h : (swapRemove a l ++ (vacated kept a l ++ popped))[i]? = some x) :
    (l ++ popped)[i]? = some x ∨ x ∈ l := by
  by_cases ha : a ∈ l
  · obtain ⟨pre, post, rfl, hpre⟩ := List.eq_append_cons_of_mem ha
    rcases List.eq_nil_or_concat post with rfl | ⟨mid, back, rfl⟩
    · rw [swapRemove_concat hpre, vacated_concat, ← List.append_assoc] at h
      exact .inl h
    · rw [List.concat_eq_append] at h ⊢
      rw [swapRemove_append hpre, vacated_append] at h
      rcases Nat.lt_trichotomy i pre.length with hlt | rfl | hgt
      · left
        simpa [List.getElem?_append_left, hlt] using h
      · right
        have hback : back = x := by simpa using h
        simp [hback]
      · obtain ⟨j, rfl⟩ : ∃ j, i = pre.length + (j + 1) := ⟨i - pre.length - 1, by omega⟩
        simp only [List.append_assoc, List.cons_append, List.nil_append,
          List.getElem?_append_right (Nat.le_add_right _ _), Nat.add_sub_cancel_left,
          List.getElem?_cons_succ] at h ⊢
        by_cases hmid : j = mid.length
        · subst hmid
          right
          have hleft : (if kept then back else a) = x := by simpa using h
          subst hleft
          split
          · simp
          · simp
        · left
          rcases Nat.lt_or_gt_of_ne hmid with hlt | hgt
          · rwa [List.getElem?_append_left hlt] at h ⊢
          · obtain ⟨k, rfl⟩ : ∃ k, j = mid.length + (k + 1) := ⟨j - mid.length - 1, by omega⟩
            simpa [List.getElem?_append_right] using h
  · rw [swapRemove_of_notMem ha, vacated_of_notMem ha] at h
    exact .inl h

end Foundation
