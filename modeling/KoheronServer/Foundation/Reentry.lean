import Mathlib.Data.Finset.Card
import Mathlib.Data.Finset.Range
import Mathlib.Data.Finset.Union
import Mathlib.Order.Interval.Finset.Nat
import Mathlib.Tactic.Ring

/-!
# Loops that start themselves

A loop visits the sites of a list, and a visit that fails starts the loop once
more before it goes on. Every start of the loop is a frame with a number of its
own, in the order of the starts. A failure has a token; a visit that fails under
a token that has been used is passed over.

The loop returns exactly when the failures of some first frames are fewer than
these frames: each frame but the first one is the answer to a failure.
-/

namespace Foundation.Reentry

variable {Site τ : Type} [DecidableEq τ]

/-- The frames started and the failures met so far. -/
structure Visits (τ : Type) where
  frames : Nat
  failed : Finset τ

def Visits.start : Visits τ := ⟨0, ∅⟩

def Visits.enter (v : Visits τ) : Visits τ := ⟨v.frames + 1, v.failed⟩

def Visits.fail (v : Visits τ) (t : τ) : Visits τ := ⟨v.frames, insert t v.failed⟩

section

variable (sites : Nat → List Site) (fails : Nat → Site → Bool) (token : Nat → Site → τ)

/-- The visits of frame `n`; `again` is the loop that a failure starts. -/
def visitAll (again : Visits τ → Option (Visits τ)) (n : Nat) :
    List Site → Visits τ → Option (Visits τ)
  | [], v => some v
  | s :: ss, v =>
      if fails n s = true ∧ token n s ∉ v.failed then
        match again (v.fail (token n s)) with
        | none => none
        | some v => visitAll again n ss v
      else visitAll again n ss v

/-- The loop, with at most `depth` frames open at a time. -/
def run : Nat → Visits τ → Option (Visits τ)
  | 0, _ => none
  | depth + 1, v => visitAll fails token (run depth) v.frames (sites v.frames) v.enter

/-- The failures of the frames up to `K`. -/
def failures (K : Nat) : Finset τ :=
  (Finset.range (K + 1)).biUnion fun n => (((sites n).filter (fails n)).map (token n)).toFinset

end

section

variable {sites : Nat → List Site} {fails : Nat → Site → Bool} {token : Nat → Site → τ}

theorem visitAll_fail {again : Visits τ → Option (Visits τ)} {n : Nat} {s : Site} {v : Visits τ}
    (h : fails n s = true ∧ token n s ∉ v.failed) (ss : List Site) :
    visitAll fails token again n (s :: ss) v =
      (again (v.fail (token n s))).bind (visitAll fails token again n ss) := by
  rw [visitAll, if_pos h]
  cases again (v.fail (token n s)) <;> rfl

theorem visitAll_pass {again : Visits τ → Option (Visits τ)} {n : Nat} {s : Site} {v : Visits τ}
    (h : ¬(fails n s = true ∧ token n s ∉ v.failed)) (ss : List Site) :
    visitAll fails token again n (s :: ss) v = visitAll fails token again n ss v := by
  rw [visitAll, if_neg h]

theorem mem_failures {K : Nat} {t : τ} :
    t ∈ failures sites fails token K ↔
      ∃ n ≤ K, ∃ s ∈ sites n, fails n s = true ∧ token n s = t := by
  simp only [failures, Finset.mem_biUnion, Finset.mem_range, Nat.lt_succ_iff, List.mem_toFinset,
    List.mem_map, List.mem_filter, and_assoc]

/-- The failures met are failures of frames that have been started. -/
def Sound (sites : Nat → List Site) (fails : Nat → Site → Bool) (token : Nat → Site → τ)
    (v : Visits τ) : Prop :=
  ∀ t ∈ v.failed, ∃ n < v.frames, ∃ s ∈ sites n, fails n s = true ∧ token n s = t

omit [DecidableEq τ] in
theorem Sound.enter {v : Visits τ} (h : Sound sites fails token v) :
    Sound sites fails token v.enter := by
  intro t ht
  obtain ⟨n, hn, hs⟩ := h t ht
  exact ⟨n, Nat.lt_succ_of_lt hn, hs⟩

theorem Sound.fail {v : Visits τ} (h : Sound sites fails token v) {n : Nat} {s : Site}
    (hn : n < v.frames) (hs : s ∈ sites n) (hfails : fails n s = true) :
    Sound sites fails token (v.fail (token n s)) := by
  intro t ht
  rcases Finset.mem_insert.mp ht with rfl | ht
  · exact ⟨n, hn, s, hs, hfails, rfl⟩
  · exact h t ht

/-- Failures met in the frames up to `K` are no more than `failures`. -/
theorem Sound.card_le {v : Visits τ} (h : Sound sites fails token v) {K : Nat}
    (hK : v.frames ≤ K + 1) : v.failed.card ≤ (failures sites fails token K).card := by
  apply Finset.card_le_card
  intro t ht
  obtain ⟨n, hn, hs⟩ := h t ht
  exact mem_failures.mpr ⟨n, by omega, hs⟩

theorem Visits.fail_card {v : Visits τ} {t : τ} (h : t ∉ v.failed) :
    (v.fail t).failed.card = v.failed.card + 1 :=
  Finset.card_insert_of_notMem h

/-! ## What a loop that returns has done -/

/-- What holds between the states before and behind a part of the loop that has returned. -/
structure Returned (sites : Nat → List Site) (fails : Nat → Site → Bool) (token : Nat → Site → τ)
    (v v' : Visits τ) : Prop where
  sound : Sound sites fails token v'
  card : v'.failed.card + 1 = v'.frames
  mono : v.failed ⊆ v'.failed
  frames : v.frames ≤ v'.frames
  /-- The failures of the frames that have been started meanwhile have all been met. -/
  complete : ∀ m, v.frames ≤ m → m < v'.frames → ∀ s ∈ sites m, fails m s = true →
    token m s ∈ v'.failed

omit [DecidableEq τ] in
theorem Returned.trans {v v₁ v' : Visits τ} (h : Returned sites fails token v v₁)
    (h' : Returned sites fails token v₁ v') : Returned sites fails token v v' := by
  refine ⟨h'.sound, h'.card, h.mono.trans h'.mono, Nat.le_trans h.frames h'.frames, ?_⟩
  intro m hle hlt s hs hfails
  by_cases hm : m < v₁.frames
  · exact h'.mono (h.complete m hle hm s hs hfails)
  · exact h'.complete m (Nat.not_lt.mp hm) hlt s hs hfails

/-- The visits of a frame meet the failures of their sites. -/
theorem visitAll_spec {again : Visits τ → Option (Visits τ)}
    (hagain : ∀ {v v'}, Sound sites fails token v → v.failed.card = v.frames → again v = some v' →
      Returned sites fails token v v' ∧ v.frames < v'.frames)
    {n : Nat} {ss : List Site} {v v' : Visits τ} (hss : ∀ s ∈ ss, s ∈ sites n) (hn : n < v.frames)
    (hsound : Sound sites fails token v) (hcard : v.failed.card + 1 = v.frames)
    (hvisit : visitAll fails token again n ss v = some v') :
    Returned sites fails token v v' ∧ ∀ s ∈ ss, fails n s = true → token n s ∈ v'.failed := by
  induction ss generalizing v with
  | nil =>
      obtain rfl := Option.some.inj hvisit
      exact ⟨⟨hsound, hcard, Finset.Subset.refl _, Nat.le_refl _,
        fun m hle hlt => absurd hlt (Nat.not_lt.mpr hle)⟩, by simp⟩
  | cons s ss ih =>
      obtain ⟨hs, hrest⟩ := List.forall_mem_cons.mp hss
      rw [visitAll] at hvisit
      rw [List.forall_mem_cons]
      split at hvisit
      case isTrue hfail =>
        cases hnested : again (v.fail (token n s)) with
        | none => simp [hnested] at hvisit
        | some v₁ =>
            simp only [hnested] at hvisit
            have hcard' : (v.fail (token n s)).failed.card = (v.fail (token n s)).frames :=
              (Visits.fail_card hfail.2).trans hcard
            obtain ⟨hreturned, hlt⟩ := hagain (hsound.fail hn hs hfail.1) hcard' hnested
            have hmono : insert (token n s) v.failed ⊆ v₁.failed := hreturned.mono
            have hframes : v.frames < v₁.frames := hlt
            obtain ⟨hvisited, hmet⟩ := ih hrest (Nat.lt_trans hn hframes) hreturned.sound
              hreturned.card hvisit
            have hfirst : Returned sites fails token v v₁ :=
              ⟨hreturned.sound, hreturned.card, (Finset.subset_insert _ _).trans hmono,
                Nat.le_of_lt hframes, hreturned.complete⟩
            exact ⟨hfirst.trans hvisited,
              fun _ => hvisited.mono (hmono (Finset.mem_insert_self _ _)), hmet⟩
      case isFalse hpass =>
        obtain ⟨hvisited, hmet⟩ := ih hrest hn hsound hcard hvisit
        refine ⟨hvisited, fun hfails => ?_, hmet⟩
        by_contra hnone
        exact hpass ⟨hfails, fun hmem => hnone (hvisited.mono hmem)⟩

theorem run_spec {depth : Nat} {v v' : Visits τ} (hsound : Sound sites fails token v)
    (hcard : v.failed.card = v.frames) (hrun : run sites fails token depth v = some v') :
    Returned sites fails token v v' ∧ v.frames < v'.frames := by
  induction depth generalizing v v' with
  | zero => cases hrun
  | succ depth ih =>
      obtain ⟨hvisited, hmet⟩ := visitAll_spec (fun hs hc hr => ih hs hc hr) (fun _ h => h)
        (Nat.lt_succ_self v.frames) hsound.enter
        (show v.enter.failed.card + 1 = v.enter.frames by rw [Visits.enter, hcard]) hrun
      have hframes : v.frames < v'.frames := hvisited.frames
      refine ⟨⟨hvisited.sound, hvisited.card, hvisited.mono, Nat.le_of_lt hframes, ?_⟩, hframes⟩
      intro m hle hlt s hs hfails
      by_cases hm : m = v.frames
      · rw [hm] at hs hfails ⊢
        exact hmet s hs hfails
      · exact hvisited.complete m (show v.frames + 1 ≤ m by omega) hlt s hs hfails

/-! ## What a loop leaves alone -/

/-- The failures that a part of the loop adds are those of its sites in frame `n`, or of frames
that it starts. -/
theorem visitAll_fresh {again : Visits τ → Option (Visits τ)}
    (hagain : ∀ {v v'}, again v = some v' → v.frames ≤ v'.frames ∧
      ∀ t ∈ v'.failed, t ∈ v.failed ∨ ∃ m s, v.frames ≤ m ∧ token m s = t)
    {n : Nat} {ss : List Site} {v v' : Visits τ}
    (hvisit : visitAll fails token again n ss v = some v') :
    v.frames ≤ v'.frames ∧
      ∀ t ∈ v'.failed, t ∈ v.failed ∨ (∃ s ∈ ss, token n s = t) ∨
        ∃ m s, v.frames ≤ m ∧ token m s = t := by
  induction ss generalizing v with
  | nil =>
      obtain rfl := Option.some.inj hvisit
      exact ⟨Nat.le_refl _, fun t ht => .inl ht⟩
  | cons s ss ih =>
      rw [visitAll] at hvisit
      split at hvisit
      case isTrue =>
        cases hnested : again (v.fail (token n s)) with
        | none => simp [hnested] at hvisit
        | some v₁ =>
            simp only [hnested] at hvisit
            obtain ⟨hle, hnew⟩ := hagain hnested
            obtain ⟨hle', hnew'⟩ := ih hvisit
            have hframes : v.frames ≤ v₁.frames := hle
            refine ⟨Nat.le_trans hframes hle', fun t ht => ?_⟩
            rcases hnew' t ht with hmem | ⟨s', hs', rfl⟩ | ⟨m, s', hm, rfl⟩
            · rcases hnew t hmem with hold | ⟨m, s', hm, rfl⟩
              · rcases Finset.mem_insert.mp hold with rfl | hold
                · exact .inr (.inl ⟨s, List.mem_cons_self, rfl⟩)
                · exact .inl hold
              · exact .inr (.inr ⟨m, s', hm, rfl⟩)
            · exact .inr (.inl ⟨s', List.mem_cons_of_mem _ hs', rfl⟩)
            · exact .inr (.inr ⟨m, s', Nat.le_trans hframes hm, rfl⟩)
      case isFalse =>
        obtain ⟨hle, hnew⟩ := ih hvisit
        refine ⟨hle, fun t ht => ?_⟩
        rcases hnew t ht with hold | ⟨s', hs', rfl⟩ | hlater
        · exact .inl hold
        · exact .inr (.inl ⟨s', List.mem_cons_of_mem _ hs', rfl⟩)
        · exact .inr (.inr hlater)

theorem run_fresh {depth : Nat} {v v' : Visits τ} (hrun : run sites fails token depth v = some v') :
    v.frames ≤ v'.frames ∧ ∀ t ∈ v'.failed, t ∈ v.failed ∨ ∃ m s, v.frames ≤ m ∧ token m s = t := by
  induction depth generalizing v v' with
  | zero => cases hrun
  | succ depth ih =>
      obtain ⟨hle, hnew⟩ := visitAll_fresh ih hrun
      have hframes : v.frames + 1 ≤ v'.frames := hle
      refine ⟨by omega, fun t ht => ?_⟩
      rcases hnew t ht with hold | ⟨s, -, rfl⟩ | ⟨m, s, hm, rfl⟩
      · exact .inl hold
      · exact .inr ⟨v.frames, s, Nat.le_refl _, rfl⟩
      · exact .inr ⟨m, s, Nat.le_of_succ_le hm, rfl⟩

/-! ## When the loop returns -/

/-- With `K` failures at most in the frames up to `K`, no frame behind these is started. -/
theorem visitAll_returns {K depth : Nat} {again : Visits τ → Option (Visits τ)}
    (hK : (failures sites fails token K).card ≤ K)
    (hagain : ∀ {v}, Sound sites fails token v → v.failed.card = v.frames → v.frames ≤ K →
      K < v.frames + depth → ∃ v', again v = some v' ∧ v'.frames ≤ K + 1 ∧
        Returned sites fails token v v')
    {n : Nat} {ss : List Site} {v : Visits τ} (hss : ∀ s ∈ ss, s ∈ sites n) (hn : n < v.frames)
    (hsound : Sound sites fails token v) (hcard : v.failed.card + 1 = v.frames)
    (hframes : v.frames ≤ K + 1) (hdepth : K < v.frames + depth) :
    ∃ v', visitAll fails token again n ss v = some v' ∧ v'.frames ≤ K + 1 := by
  induction ss generalizing v with
  | nil => exact ⟨v, rfl, hframes⟩
  | cons s ss ih =>
      have hs := hss s List.mem_cons_self
      have hrest : ∀ s ∈ ss, s ∈ sites n := fun s h => hss s (List.mem_cons_of_mem _ h)
      rw [visitAll]
      split
      case isTrue hfail =>
        have hsound' := hsound.fail hn hs hfail.1
        have hcard' := Visits.fail_card hfail.2
        have hlast : v.frames ≤ K := by
          have hle := hsound'.card_le (K := K) hframes
          omega
        obtain ⟨v₁, hnested, hle, hreturned⟩ :=
          hagain hsound' (hcard'.trans hcard) hlast hdepth
        have hmono : v.frames ≤ v₁.frames := hreturned.frames
        simp only [hnested]
        exact ih hrest (by omega) hreturned.sound hreturned.card hle (by omega)
      case isFalse => exact ih hrest hn hsound hcard hframes hdepth

theorem run_returns {K : Nat} (hK : (failures sites fails token K).card ≤ K) {depth : Nat}
    {v : Visits τ} (hsound : Sound sites fails token v) (hcard : v.failed.card = v.frames)
    (hframes : v.frames ≤ K) (hdepth : K < v.frames + depth) :
    ∃ v', run sites fails token depth v = some v' ∧ v'.frames ≤ K + 1 := by
  induction depth generalizing v with
  | zero => omega
  | succ depth ih =>
      have hagain : ∀ {v : Visits τ}, Sound sites fails token v → v.failed.card = v.frames →
          v.frames ≤ K → K < v.frames + depth → ∃ v', run sites fails token depth v = some v' ∧
            v'.frames ≤ K + 1 ∧ Returned sites fails token v v' := by
        intro v hsound hcard hframes hdepth
        obtain ⟨v', hrun, hle⟩ := ih hsound hcard hframes hdepth
        exact ⟨v', hrun, hle, (run_spec hsound hcard hrun).1⟩
      exact visitAll_returns hK hagain (fun _ h => h) (Nat.lt_succ_self v.frames) hsound.enter
        (show v.enter.failed.card + 1 = v.enter.frames by rw [Visits.enter, hcard])
        (Nat.succ_le_succ hframes) (show K < v.frames + 1 + depth by omega)

/-- The loop returns when some first frames have fewer failures than there are frames, and
only then. -/
theorem run_returns_iff :
    (∃ depth v, run sites fails token depth .start = some v) ↔
      ∃ K, (failures sites fails token K).card ≤ K := by
  have hsound : Sound sites fails token .start := by
    intro t ht
    cases ht
  constructor
  · rintro ⟨depth, v, hrun⟩
    obtain ⟨hreturned, -⟩ := run_spec hsound rfl hrun
    have hcard := hreturned.card
    refine ⟨v.failed.card, Finset.card_le_card ?_⟩
    intro t ht
    obtain ⟨n, hn, s, hs, hfails, rfl⟩ := mem_failures.mp ht
    exact hreturned.complete n (Nat.zero_le n) (by omega) s hs hfails
  · rintro ⟨K, hK⟩
    obtain ⟨v, hrun, -⟩ := run_returns hK hsound rfl (Nat.zero_le K)
      (show K < (Visits.start (τ := τ)).frames + (K + 1) by rw [Visits.start]; omega)
    exact ⟨K + 1, v, hrun⟩

/-- A loop that has a fixed stock of tokens always returns. -/
theorem run_returns_of_subset (stock : Finset τ)
    (h : ∀ n, ∀ s ∈ sites n, fails n s = true → token n s ∈ stock) :
    ∃ depth v, run sites fails token depth .start = some v := by
  refine run_returns_iff.mpr ⟨stock.card, Finset.card_le_card ?_⟩
  intro t ht
  obtain ⟨n, -, s, hs, hfails, rfl⟩ := mem_failures.mp ht
  exact h n s hs hfails

end

end Foundation.Reentry
