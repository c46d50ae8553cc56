import KoheronServer.Foundation.Runs
import KoheronServer.Foundation.SwapRemove

/-!
# Walking a vector that shrinks

A loop over a vector that has fixed its end at the start goes on through the slots that
removals by a swap give up behind the end of the vector. What stays in the vector is
still visited once, unless a removal moves it from the part that the loop has before it
to the part behind it, or leaves it in both.
-/

namespace Foundation

variable {α : Type}

/-- A vector, the slots behind its end, the index of the next visit, and what has been visited. -/
structure Walk (α : Type) where
  items : List α
  popped : List α
  cursor : Nat
  visited : List α

inductive WalkAction (α : Type) where
  | visit
  | remove (a : α)
  | stay

namespace Walk

/-- The slots in which the loop began. -/
def slots (w : Walk α) : List α := w.items ++ w.popped

/-- What the loop will visit if nothing changes. -/
def ahead (w : Walk α) : List α := w.slots.drop w.cursor

variable [DecidableEq α]

def remove (kept : Bool) (w : Walk α) (a : α) : Walk α :=
  { w with
    items := swapRemove a w.items
    popped := vacated kept a w.items ++ w.popped }

def step (kept : Bool) (w : Walk α) : WalkAction α → Option (Walk α)
  | .visit =>
      match w.slots[w.cursor]? with
      | none => none
      | some a => some { w with cursor := w.cursor + 1, visited := w.visited ++ [a] }
  | .remove a => some (w.remove kept a)
  | .stay => some w

/-- How often `b` has been visited or is going to be. -/
def due (w : Walk α) (b : α) : Nat := w.visited.count b + w.ahead.count b

/-! ## One removal -/

/-- The three ways of a removal: nothing is there, the last element goes, or it moves. -/
theorem remove_cases (kept : Bool) (w : Walk α) (a : α) :
    (a ∉ w.items ∧ w.remove kept a = w) ∨
      (∃ pre, a ∉ pre ∧ w.items = pre ++ [a] ∧
        w.remove kept a = { w with items := pre, popped := a :: w.popped }) ∨
      ∃ pre mid back, a ∉ pre ∧ w.items = pre ++ a :: (mid ++ [back]) ∧
        w.remove kept a =
          { w with
            items := pre ++ back :: mid
            popped := (if kept then back else a) :: w.popped } := by
  by_cases ha : a ∈ w.items
  · right
    obtain ⟨pre, post, hitems, hpre⟩ := List.eq_append_cons_of_mem ha
    rcases List.eq_nil_or_concat post with rfl | ⟨mid, back, rfl⟩
    · left
      refine ⟨pre, hpre, hitems, ?_⟩
      rw [remove, hitems, swapRemove_concat hpre, vacated_concat]
      rfl
    · right
      rw [List.concat_eq_append] at hitems
      refine ⟨pre, mid, back, hpre, hitems, ?_⟩
      rw [remove, hitems, swapRemove_append hpre, vacated_append]
      rfl
  · left
    refine ⟨ha, ?_⟩
    rw [remove, swapRemove_of_notMem ha, vacated_of_notMem ha]
    rfl

/-- A removal of `a` changes how often the loop comes to `b`: it moves `b` from behind the cursor
to the part that is done, or it leaves `b` in the slot that it moves it from. -/
inductive Displaces (w : Walk α) (a b : α) : Bool → Prop where
  | overtaken (mem : a ∈ w.items) (last : w.items.getLast? = some b)
      (passed : w.items.idxOf a < w.cursor) (unvisited : w.cursor < w.items.length) :
      Displaces w a b false
  | doubled (mem : a ∈ w.items) (last : w.items.getLast? = some b)
      (unvisited : w.cursor ≤ w.items.idxOf a) : Displaces w a b true

theorem count_drop_append_cons (pre : List α) (a : α) (rest : List α) (c : Nat) (b : α) :
    ((pre ++ a :: rest).drop c).count b =
      if c ≤ pre.length then
        (pre.drop c).count b + (if a = b then 1 else 0) + rest.count b
      else (rest.drop (c - pre.length - 1)).count b := by
  split
  case isTrue hle =>
    rw [List.drop_append_of_le_length hle, List.count_append, List.count_cons]
    simp only [beq_iff_eq]
    omega
  case isFalse hgt =>
    rw [List.drop_append, List.drop_eq_nil_of_le (by omega), List.nil_append]
    obtain ⟨n, hn⟩ : ∃ n, c - pre.length = n + 1 := ⟨c - pre.length - 1, by omega⟩
    rw [hn, List.drop_succ_cons, Nat.add_sub_cancel]

theorem count_drop_overwrite {a b : α} (hne : b ≠ a) (pre : List α) (back : α) (rest : List α)
    (c : Nat) :
    ((pre ++ back :: rest).drop c).count b =
      ((pre ++ a :: rest).drop c).count b + if c ≤ pre.length ∧ back = b then 1 else 0 := by
  rw [count_drop_append_cons pre back, count_drop_append_cons pre a, if_neg (Ne.symm hne)]
  by_cases hplace : c ≤ pre.length
  · simp only [hplace, if_true, true_and]
    omega
  · simp only [hplace, if_false, false_and, Nat.add_zero]

theorem count_drop_exchange {a b : α} (hne : b ≠ a) (pre mid : List α) (back : α) (rest : List α)
    (c : Nat) :
    ((pre ++ back :: (mid ++ a :: rest)).drop c).count b +
        (if pre.length < c ∧ c ≤ pre.length + mid.length + 1 ∧ back = b then 1 else 0) =
      ((pre ++ a :: (mid ++ back :: rest)).drop c).count b := by
  have hnot : ¬a = b := Ne.symm hne
  rw [count_drop_append_cons pre back, count_drop_append_cons pre a]
  by_cases hplace : c ≤ pre.length
  · simp only [if_pos hplace, if_neg hnot, Nat.not_lt.mpr hplace, false_and, if_false,
      List.count_append, List.count_cons, beq_iff_eq]
    omega
  · simp only [if_neg hplace, Nat.not_le.mp hplace, true_and]
    rw [count_drop_append_cons mid a, count_drop_append_cons mid back]
    by_cases hmid : c - pre.length - 1 ≤ mid.length
    · simp only [if_pos hmid, if_neg hnot, show c ≤ pre.length + mid.length + 1 by omega, true_and]
      omega
    · simp only [if_neg hmid, show ¬c ≤ pre.length + mid.length + 1 by omega, false_and, if_false,
        Nat.add_zero]

section

variable {w w' : Walk α} {a b : α} {kept : Bool}

/-- A removal that displaces `b` moves the last element. -/
theorem Displaces.moves (h : w.Displaces a b kept) (hne : b ≠ a) :
    ∃ pre mid, a ∉ pre ∧ w.items = pre ++ a :: (mid ++ [b]) := by
  have hmem : a ∈ w.items := by
    cases h with
    | overtaken hmem => exact hmem
    | doubled hmem => exact hmem
  have hlast : w.items.getLast? = some b := by
    cases h with
    | overtaken _ hlast => exact hlast
    | doubled _ hlast => exact hlast
  rcases remove_cases kept w a with ⟨hnot, -⟩ | ⟨pre, -, hitems, -⟩ |
    ⟨pre, mid, back, hpre, hitems, -⟩
  · exact absurd hmem hnot
  · rw [hitems, List.getLast?_concat] at hlast
    exact absurd (Option.some.inj hlast).symm hne
  · rw [hitems, getLast?_moved] at hlast
    obtain rfl := Option.some.inj hlast
    exact ⟨pre, mid, hpre, hitems⟩

/-- And where the last element moves, this is what displaces it. -/
theorem displaces_iff {pre mid : List α} {back : α} (hpre : a ∉ pre)
    (hitems : w.items = pre ++ a :: (mid ++ [back])) :
    w.Displaces a b kept ↔
      back = b ∧
        bif kept then decide (w.cursor ≤ pre.length)
        else decide (pre.length < w.cursor ∧ w.cursor ≤ pre.length + mid.length + 1) := by
  have hlast : w.items.getLast? = some back := by rw [hitems, getLast?_moved]
  have hmem : a ∈ w.items := by simp [hitems]
  have hidx : w.items.idxOf a = pre.length := by
    rw [hitems]
    simp [List.idxOf_append, hpre]
  have hlength : w.items.length = pre.length + mid.length + 2 := by
    rw [hitems]
    simp
    omega
  constructor
  · intro h
    cases h with
    | overtaken _ hb hpassed hunvisited =>
        refine ⟨Option.some.inj (hlast.symm.trans hb), ?_⟩
        simp only [cond_false, decide_eq_true_eq]
        omega
    | doubled _ hb hunvisited =>
        refine ⟨Option.some.inj (hlast.symm.trans hb), ?_⟩
        simp only [cond_true, decide_eq_true_eq]
        omega
  · rintro ⟨rfl, hplace⟩
    cases kept with
    | true =>
        simp only [cond_true, decide_eq_true_eq] at hplace
        exact .doubled hmem hlast (by omega)
    | false =>
        simp only [cond_false, decide_eq_true_eq] at hplace
        exact .overtaken hmem hlast (by omega) (by omega)

/-- With the write dropped, the last element is in both slots. -/
theorem due_remove_true {pre mid : List α} {back : α} (hpre : a ∉ pre)
    (hitems : w.items = pre ++ a :: (mid ++ [back])) (hne : b ≠ a) :
    (w.remove true a).due b = w.due b + if w.cursor ≤ pre.length ∧ back = b then 1 else 0 := by
  have hahead := count_drop_overwrite hne pre back (mid ++ back :: w.popped) w.cursor
  simp only [due, ahead, slots, remove, hitems, swapRemove_append hpre, vacated_append, if_true,
    List.append_assoc, List.cons_append, List.nil_append]
  omega

theorem due_remove_false {pre mid : List α} {back : α} (hpre : a ∉ pre)
    (hitems : w.items = pre ++ a :: (mid ++ [back])) (hne : b ≠ a) :
    (w.remove false a).due b +
        (if pre.length < w.cursor ∧ w.cursor ≤ pre.length + mid.length + 1 ∧ back = b then 1 else 0) =
      w.due b := by
  have hahead := count_drop_exchange hne pre mid back w.popped w.cursor
  simp only [due, ahead, slots, remove, hitems, swapRemove_append hpre, vacated_append,
    Bool.false_eq_true, if_false, List.append_assoc, List.cons_append, List.nil_append]
  omega

theorem due_remove_of_displaces (hne : b ≠ a) (h : w.Displaces a b kept) :
    bif kept then (w.remove kept a).due b = w.due b + 1
    else (w.remove kept a).due b + 1 = w.due b := by
  obtain ⟨pre, mid, hpre, hitems⟩ := h.moves hne
  obtain ⟨-, hplace⟩ := (displaces_iff hpre hitems).mp h
  cases kept with
  | true =>
      have hdue := due_remove_true hpre hitems hne
      rwa [if_pos ⟨of_decide_eq_true hplace, rfl⟩] at hdue
  | false =>
      have hdue := due_remove_false hpre hitems hne
      have hplace := of_decide_eq_true hplace
      rwa [if_pos ⟨hplace.1, hplace.2, rfl⟩] at hdue

theorem due_remove_of_not (hne : b ≠ a) (h : ¬w.Displaces a b kept) :
    (w.remove kept a).due b = w.due b := by
  rcases remove_cases kept w a with
    ⟨-, hremove⟩ | ⟨pre, -, hitems, hremove⟩ | ⟨pre, mid, back, hpre, hitems, -⟩
  · rw [hremove]
  · rw [hremove]
    simp [due, ahead, slots, hitems]
  · rw [displaces_iff hpre hitems] at h
    cases kept with
    | true =>
        rw [due_remove_true hpre hitems hne, if_neg, Nat.add_zero]
        rintro ⟨hplace, hback⟩
        exact h ⟨hback, decide_eq_true hplace⟩
    | false =>
        have hdue := due_remove_false hpre hitems hne
        rwa [if_neg, Nat.add_zero] at hdue
        rintro ⟨hpassed, hunvisited, hback⟩
        exact h ⟨hback, decide_eq_true ⟨hpassed, hunvisited⟩⟩

/-- What has left the vector stays in the slots behind it. -/
theorem count_ahead_remove_of_notMem (kept : Bool) (hb : b ∉ w.items) :
    (w.remove kept a).ahead.count b = w.ahead.count b := by
  by_cases hne : b = a
  · subst hne
    rw [remove, swapRemove_of_notMem hb, vacated_of_notMem hb]
    rfl
  · have hnot : ¬w.Displaces a b kept := by
      intro h
      obtain ⟨pre, mid, -, hitems⟩ := h.moves hne
      exact hb (by simp [hitems])
    have hdue := due_remove_of_not hne hnot
    have hvisited : (w.remove kept a).visited = w.visited := rfl
    rw [due, due, hvisited] at hdue
    exact Nat.add_left_cancel hdue

theorem mem_ahead_remove (h : b ∈ (w.remove kept a).ahead) : b ∈ w.ahead ∨ b ∈ w.items := by
  obtain ⟨i, hi⟩ := List.mem_iff_getElem?.mp h
  rw [ahead, List.getElem?_drop] at hi
  rcases getElem?_swapRemove_vacated hi with hslot | hmem
  · left
    rw [ahead, List.mem_iff_getElem?]
    exact ⟨i, by rw [List.getElem?_drop]; exact hslot⟩
  · exact .inr hmem

theorem length_slots_remove : (w.remove kept a).slots.length = w.slots.length := by
  have hlength : (swapRemove a w.items).length + (vacated kept a w.items).length =
      w.items.length := length_swapRemove_vacated a w.items
  simp only [slots, remove, List.length_append]
  omega

/-! ## Runs -/

theorem step_visit (hstep : w.step kept .visit = some w') :
    ∃ a, w.slots[w.cursor]? = some a ∧
      w' = { w with cursor := w.cursor + 1, visited := w.visited ++ [a] } := by
  unfold step at hstep
  cases hget : w.slots[w.cursor]? with
  | none => simp [hget] at hstep
  | some a =>
      simp only [hget, Option.some.injEq] at hstep
      exact ⟨a, rfl, hstep.symm⟩

theorem due_visit (hstep : w.step kept .visit = some w') : w'.due b = w.due b := by
  obtain ⟨a, hget, rfl⟩ := step_visit hstep
  obtain ⟨hlt, hgetElem⟩ := List.getElem?_eq_some_iff.mp hget
  have hahead : w.ahead = a :: w.slots.drop (w.cursor + 1) := by
    rw [ahead, List.drop_eq_getElem_cons hlt, hgetElem]
  have hahead' : ahead { w with cursor := w.cursor + 1, visited := w.visited ++ [a] } =
      w.slots.drop (w.cursor + 1) := rfl
  rw [due, due, hahead, hahead', List.count_append, List.count_cons, List.count_cons,
    List.count_nil]
  omega

/-- A removal among the steps taken has displaced `b`. -/
def Displaced (kept : Bool) (past : List (Walk α × WalkAction α)) (b : α) : Prop :=
  ∃ w a, (w, WalkAction.remove a) ∈ past ∧ w.Displaces a b kept

theorem displaced_cons {past : List (Walk α × WalkAction α)} {action : WalkAction α} :
    Displaced kept ((w, action) :: past) b ↔
      (∃ a, action = .remove a ∧ w.Displaces a b kept) ∨ Displaced kept past b := by
  constructor
  · rintro ⟨w', a, hmem, hdisplaces⟩
    rcases List.mem_cons.mp hmem with heq | hmem
    · obtain ⟨rfl, rfl⟩ := Prod.mk.inj heq
      exact .inl ⟨a, rfl, hdisplaces⟩
    · exact .inr ⟨w', a, hmem, hdisplaces⟩
  · rintro (⟨a, rfl, hdisplaces⟩ | ⟨w', a, hmem, hdisplaces⟩)
    · exact ⟨w, a, List.mem_cons_self, hdisplaces⟩
    · exact ⟨w', a, List.mem_cons_of_mem _ hmem, hdisplaces⟩

variable {past : List (Walk α × WalkAction α)} {items : List α}

/-- One build only loses visits and the other one only adds some, so that a displacement is never
made up for. -/
structure Stays (kept : Bool) (past : List (Walk α × WalkAction α)) (w : Walk α)
    (b : α) : Prop where
  once : ¬Displaced kept past b → w.due b = 1
  displaced : Displaced kept past b → bif kept then 1 < w.due b else w.due b = 0

theorem Stays.due_eq_one_iff (h : Stays kept past w b) : w.due b = 1 ↔ ¬Displaced kept past b := by
  constructor
  · intro hone hdisplaced
    have hdue := h.displaced hdisplaced
    cases kept with
    | true =>
        simp only [cond_true] at hdue
        omega
    | false =>
        simp only [cond_false] at hdue
        omega
  · exact h.once

theorem Stays.remove (h : Stays kept past w b) (hne : b ≠ a) :
    Stays kept ((w, .remove a) :: past) (w.remove kept a) b := by
  have hcons : Displaced kept ((w, .remove a) :: past) b ↔
      w.Displaces a b kept ∨ Displaced kept past b := by
    simp [displaced_cons]
  by_cases hdisplaces : w.Displaces a b kept
  · refine ⟨fun hnot => absurd (hcons.mpr (.inl hdisplaces)) hnot, fun _ => ?_⟩
    have hdue := due_remove_of_displaces hne hdisplaces
    by_cases hpast : Displaced kept past b
    · have hbefore := h.displaced hpast
      cases kept with
      | true =>
          simp only [cond_true] at hbefore hdue ⊢
          omega
      | false =>
          simp only [cond_false] at hbefore hdue ⊢
          omega
    · have hbefore := h.once hpast
      cases kept with
      | true =>
          simp only [cond_true] at hdue ⊢
          omega
      | false =>
          simp only [cond_false] at hdue ⊢
          omega
  · have hsame : Displaced kept ((w, .remove a) :: past) b ↔ Displaced kept past b := by
      rw [hcons]
      simp [hdisplaces]
    constructor
    · intro hnot
      rw [due_remove_of_not hne hdisplaces]
      exact h.once fun hpast => hnot (hsame.mpr hpast)
    · intro hpast
      rw [due_remove_of_not hne hdisplaces]
      exact h.displaced (hsame.mp hpast)

theorem Stays.of_same {action : WalkAction α} (h : Stays kept past w b)
    (haction : ∀ a, action ≠ .remove a) (hdue : w'.due b = w.due b) :
    Stays kept ((w, action) :: past) w' b := by
  have hsame : Displaced kept ((w, action) :: past) b ↔ Displaced kept past b := by
    rw [displaced_cons]
    constructor
    · rintro (⟨a, heq, -⟩ | hpast)
      · exact absurd heq (haction a)
      · exact hpast
    · exact .inr
  constructor
  · intro hnot
    rw [hdue]
    exact h.once fun hpast => hnot (hsame.mpr hpast)
  · intro hpast
    rw [hdue]
    exact h.displaced (hsame.mp hpast)

theorem run_nodup (hnodup : items.Nodup)
    (h : Run (fun w action w' => step kept w action = some w') ⟨items, [], 0, []⟩ past w) :
    w.items.Nodup := by
  refine h.invariant (P := fun w => w.items.Nodup) hnodup ?_
  intro w action w' hw hstep
  cases action with
  | visit =>
      obtain ⟨a, -, rfl⟩ := step_visit hstep
      exact hw
  | remove a =>
      obtain rfl := Option.some.inj hstep
      exact nodup_swapRemove a hw
  | stay =>
      obtain rfl := Option.some.inj hstep
      exact hw

/-- What is still in the vector has stayed there. -/
theorem stays (hnodup : items.Nodup)
    (h : Run (fun w action w' => step kept w action = some w') ⟨items, [], 0, []⟩ past w)
    (hb : b ∈ w.items) : Stays kept past w b := by
  induction h with
  | start =>
      constructor
      · intro _
        have hone := List.count_eq_one_of_mem hnodup hb
        simpa [due, ahead, slots] using hone
      · rintro ⟨w₀, a, hmem, -⟩
        cases hmem
  | next run taken ih =>
      rename_i past w w' action
      cases action with
      | visit =>
          have hsame : w'.items = w.items := by
            obtain ⟨a, -, rfl⟩ := step_visit taken
            rfl
          rw [hsame] at hb
          exact (ih hb).of_same (by simp) (due_visit taken)
      | remove a =>
          obtain rfl := Option.some.inj taken
          obtain ⟨hne, hmem⟩ := (mem_swapRemove (run_nodup hnodup run)).mp hb
          exact (ih hmem).remove hne
      | stay =>
          obtain rfl := Option.some.inj taken
          exact (ih hb).of_same (by simp) rfl

/-- When the loop is at its end, what has stayed has been visited as often as it was due. -/
theorem count_visited_of_ahead (h : w.ahead = []) : w.visited.count b = w.due b := by
  rw [due, h]
  rfl

end

end Walk

end Foundation
