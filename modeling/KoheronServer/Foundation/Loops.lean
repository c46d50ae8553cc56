import Mathlib.Logic.Relation

/-!
# Loops

A loop goes round by a step function that ends it with a result or gives the next
state. A measure that every round lowers gives the number of rounds that are enough,
so that the loop is a function; its result is spoken of without that number.
-/

namespace Foundation

variable {σ τ ρ : Type}

/-- The result of a loop within some rounds. -/
def rounds (step : σ → ρ ⊕ σ) : Nat → σ → Option ρ
  | 0, _ => none
  | n + 1, s =>
      match step s with
      | .inl r => some r
      | .inr s' => rounds step n s'

def Ends (step : σ → ρ ⊕ σ) (s : σ) (r : ρ) : Prop := ∃ n, rounds step n s = some r

abbrev Reaches (step : σ → ρ ⊕ σ) : σ → σ → Prop :=
  Relation.ReflTransGen fun s s' => step s = .inr s'

variable {step : σ → ρ ⊕ σ} {s s' : σ} {r : ρ}

theorem ends_inl {r' : ρ} (h : step s = .inl r') : Ends step s r ↔ r = r' := by
  constructor
  · rintro ⟨n, hn⟩
    cases n with
    | zero => cases hn
    | succ n =>
        rw [rounds, h] at hn
        exact (Option.some.inj hn).symm
  · rintro rfl
    exact ⟨1, by rw [rounds, h]⟩

theorem ends_inr (h : step s = .inr s') : Ends step s r ↔ Ends step s' r := by
  constructor
  · rintro ⟨n, hn⟩
    cases n with
    | zero => cases hn
    | succ n =>
        rw [rounds, h] at hn
        exact ⟨n, hn⟩
  · rintro ⟨n, hn⟩
    exact ⟨n + 1, by rw [rounds, h]; exact hn⟩

/-- The rule for a loop that has an end: its result is that of the last round. -/
theorem Ends.induction {P : σ → Prop} (hlast : ∀ s, step s = .inl r → P s)
    (hround : ∀ s s', step s = .inr s' → Ends step s' r → P s' → P s)
    (h : Ends step s r) : P s := by
  obtain ⟨n, hn⟩ := h
  induction n generalizing s with
  | zero => cases hn
  | succ n ih =>
      cases hstep : step s with
      | inl r' =>
          rw [rounds, hstep] at hn
          obtain rfl := Option.some.inj hn
          exact hlast s hstep
      | inr s' =>
          rw [rounds, hstep] at hn
          exact hround s s' hstep ⟨n, hn⟩ (ih hn)

theorem ends_congr (h : step s = step s') : Ends step s r ↔ Ends step s' r := by
  cases hstep : step s with
  | inl r' => rw [ends_inl hstep, ends_inl (h.symm.trans hstep)]
  | inr t => rw [ends_inr hstep, ends_inr (h.symm.trans hstep)]

theorem Reaches.ends_iff (h : Reaches step s s') : Ends step s r ↔ Ends step s' r := by
  induction h with
  | refl => exact Iff.rfl
  | tail _ hstep ih => exact ih.trans (ends_inr hstep)

/-- Two states with the same round come to states with the same round. -/
theorem Reaches.of_step_eq {t : σ} (hstep : step s = step s') (h : Reaches step s' t) :
    ∃ t', Reaches step s t' ∧ step t' = step t := by
  rcases h.cases_head with rfl | ⟨u, hu, hreaches⟩
  · exact ⟨s, .refl, hstep⟩
  · exact ⟨t, .head (hstep.trans hu) hreaches, rfl⟩

/-- What can be decided holds in every state that a loop comes to. -/
def everyRound (step : σ → ρ ⊕ σ) (p : σ → Bool) : Nat → σ → Bool
  | 0, _ => false
  | n + 1, s =>
      p s &&
        match step s with
        | .inl _ => true
        | .inr s' => everyRound step p n s'

theorem everyRound_reaches {p : σ → Bool} {n : Nat} (h : everyRound step p n s = true)
    (hreaches : Reaches step s s') : p s' = true := by
  induction hreaches using Relation.ReflTransGen.head_induction_on generalizing n with
  | refl =>
      cases n with
      | zero => cases h
      | succ n => exact ((Bool.and_eq_true _ _).mp h).1
  | head hstep _ ih =>
      cases n with
      | zero => cases h
      | succ n =>
          rw [everyRound, hstep, Bool.and_eq_true] at h
          exact ih h.2

section

variable {measure : σ → Nat} (hmeasure : ∀ s s', step s = .inr s' → measure s' < measure s)

include hmeasure

/-- As many rounds as the measure says are enough. -/
theorem rounds_enough (n : Nat) (s : σ) (hn : measure s < n) : ∃ r, rounds step n s = some r := by
  induction n generalizing s with
  | zero => exact absurd hn (Nat.not_lt_zero _)
  | succ n ih =>
      cases hstep : step s with
      | inl r => exact ⟨r, by rw [rounds, hstep]⟩
      | inr s' =>
          have hlt := hmeasure s s' hstep
          obtain ⟨r, hr⟩ := ih s' (by omega)
          exact ⟨r, by rw [rounds, hstep]; exact hr⟩

theorem rounds_eq_iff {n : Nat} (hn : measure s < n) : rounds step n s = some r ↔
    Ends step s r := by
  constructor
  · exact fun h => ⟨n, h⟩
  · intro h
    induction n generalizing s with
    | zero => exact absurd hn (Nat.not_lt_zero _)
    | succ n ih =>
        cases hstep : step s with
        | inl r' =>
            obtain rfl := (ends_inl hstep).mp h
            rw [rounds, hstep]
        | inr s' =>
            have hlt := hmeasure s s' hstep
            rw [rounds, hstep]
            exact ih (by omega) ((ends_inr hstep).mp h)

end

/-- A loop that goes round with another one ends as that one does. -/
theorem Ends.simulate {ρ' : Type} {step' : τ → ρ' ⊕ τ} {R : σ → τ → Prop} {P : ρ' → Prop}
    (hlast : ∀ s t, R s t → step s = .inl r → ∃ r', P r' ∧ Ends step' t r')
    (hround : ∀ s t s', R s t → step s = .inr s' → ∃ t', step' t = .inr t' ∧ R s' t')
    (h : Ends step s r) {t : τ} (hrel : R s t) : ∃ r', P r' ∧ Ends step' t r' := by
  revert t
  refine Ends.induction (P := fun s => ∀ {t}, R s t → ∃ r', P r' ∧ Ends step' t r') ?_ ?_ h
  · intro s hstep t hrel
    exact hlast s t hrel hstep
  · intro s s' hstep _ ih t hrel
    obtain ⟨t', hstep', hrel'⟩ := hround s t s' hrel hstep
    obtain ⟨r', hr', hends⟩ := ih hrel'
    exact ⟨r', hr', (ends_inr hstep').mpr hends⟩

/-! ## Counting loops -/

/-- `for (t = lo; t < hi; t++)`. -/
def countFrom (body : σ → Nat → σ) (lo hi : Nat) (s : σ) : σ :=
  (List.range' lo (hi - lo)).foldl body s

/-- What holds at the first index and is kept by every round holds behind the last. -/
theorem countFrom_invariant {body : σ → Nat → σ} {P : Nat → σ → Prop} {lo hi : Nat} (hle : lo ≤ hi)
    (hbody : ∀ t s, lo ≤ t → t < hi → P t s → P (t + 1) (body s t)) {s : σ} (h : P lo s) :
    P hi (countFrom body lo hi s) := by
  obtain ⟨n, rfl⟩ := Nat.exists_eq_add_of_le hle
  rw [countFrom, Nat.add_sub_cancel_left]
  clear hle
  induction n generalizing lo s with
  | zero => exact h
  | succ n ih =>
      rw [List.range'_succ, List.foldl_cons]
      have hfirst := hbody lo s (Nat.le_refl lo) (by omega) h
      have hrest := ih hfirst fun t s hlo hhi => hbody t s (by omega) (by omega)
      rwa [Nat.add_right_comm] at hrest

end Foundation
