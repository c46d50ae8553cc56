import Mathlib.Tactic.Ring

/-!
# Runs of a transition system

A run of a labelled step relation with its history: the steps taken, the last one
first, each with the state it was taken from. An invariant is proved for one step
and holds in every state of every run; it may speak of the history.
-/

namespace Foundation

variable {σ α : Type} {step : σ → α → σ → Prop} {init : σ}

inductive Run (step : σ → α → σ → Prop) (init : σ) : List (σ × α) → σ → Prop where
  | start : Run step init [] init
  | next {past : List (σ × α)} {s s' : σ} {a : α} (run : Run step init past s)
      (taken : step s a s') : Run step init ((s, a) :: past) s'

namespace Run

/-- What holds initially and is kept by every step holds after every run. -/
theorem invariant {P : σ → Prop} (hinit : P init) (hstep : ∀ {s a s'}, P s → step s a s' → P s')
    {past : List (σ × α)} {s : σ} (h : Run step init past s) : P s := by
  induction h with
  | start => exact hinit
  | next _ taken ih => exact hstep ih taken

/-- The same for a relation between the history and the state, which a step may keep only
where an invariant of the states holds. -/
theorem history_invariant {I : σ → Prop} {P : List (σ × α) → σ → Prop}
    (hI : ∀ {past s}, Run step init past s → I s) (hinit : P [] init)
    (hstep : ∀ {past s a s'}, I s → P past s → step s a s' → P ((s, a) :: past) s')
    {past : List (σ × α)} {s : σ} (h : Run step init past s) : P past s := by
  induction h with
  | start => exact hinit
  | next run taken ih => exact hstep (hI run) ih taken

/-- A run of one system is a run of another, when every step is. -/
theorem map {σ' : Type} {step' : σ' → α → σ' → Prop} (f : σ → σ')
    (hstep : ∀ {s a s'}, step s a s' → step' (f s) a (f s')) {past : List (σ × α)} {s : σ}
    (h : Run step init past s) : Run step' (f init) (past.map (Prod.map f id)) (f s) := by
  induction h with
  | start => exact .start
  | next _ taken ih => exact ih.next (hstep taken)

/-- The same where an invariant of the states holds, when the steps are named in another way. -/
theorem relabel {σ' β : Type} {step' : σ' → β → σ' → Prop} {I : σ → Prop} (f : σ → σ')
    (g : σ → α → β) (hI : ∀ {past s}, Run step init past s → I s)
    (hstep : ∀ {s a s'}, I s → step s a s' → step' (f s) (g s a) (f s'))
    {past : List (σ × α)} {s : σ}
    (h : Run step init past s) :
    Run step' (f init) (past.map fun x => (f x.1, g x.1 x.2)) (f s) := by
  induction h with
  | start => exact .start
  | next run taken ih => exact ih.next (hstep (hI run) taken)

/-- The runs of a system that can do in each step what another one does. -/
theorem lift {σ' : Type} {step' : σ' → α → σ' → Prop} (f : σ → σ')
    (hstep : ∀ {s a x}, step' (f s) a x → ∃ s', step s a s' ∧ f s' = x)
    {past : List (σ' × α)} {x : σ'}
    (h : Run step' (f init) past x) :
    ∃ past' s, Run step init past' s ∧ past = past'.map (Prod.map f id) ∧ x = f s := by
  induction h with
  | start => exact ⟨[], init, .start, rfl, rfl⟩
  | next _ taken ih =>
      obtain ⟨past', s, hrun, rfl, rfl⟩ := ih
      obtain ⟨s', htaken, rfl⟩ := hstep taken
      exact ⟨_, s', hrun.next htaken, rfl, rfl⟩

end Run

/-! ## Runs of a step function -/

section

variable {step : σ → α → Option σ}

def follow (step : σ → α → Option σ) (past : List (σ × α)) (s : σ) :
    List α → Option (List (σ × α) × σ)
  | [] => some (past, s)
  | a :: actions =>
      match step s a with
      | none => none
      | some s' => follow step ((s, a) :: past) s' actions

theorem Run.append_follow {past past' : List (σ × α)} {s s' : σ} {actions : List α}
    (h : Run (fun s a s' => step s a = some s') init past s)
    (hsteps : follow step past s actions = some (past', s')) :
    Run (fun s a s' => step s a = some s') init past' s' := by
  induction actions generalizing past s with
  | nil =>
      cases hsteps
      exact h
  | cons a actions ih =>
      unfold follow at hsteps
      cases hstep : step s a with
      | none => simp [hstep] at hsteps
      | some next =>
          simp only [hstep] at hsteps
          exact ih (h.next hstep) hsteps

end

theorem Run.of_follow (step : σ → α → Option σ) (init : σ) (actions : List α)
    {past : List (σ × α)} {s : σ} (h : follow step [] init actions = some (past, s)) :
    Run (fun s a s' => step s a = some s') init past s :=
  Run.start.append_follow h

theorem Run.exists_of_follow (step : σ → α → Option σ) (init : σ) (actions : List α)
    {P : List (σ × α) → σ → Prop} [∀ past s, Decidable (P past s)]
    (h : (follow step [] init actions).any fun x => decide (P x.1 x.2)) :
    ∃ past s, Run (fun s a s' => step s a = some s') init past s ∧ P past s := by
  obtain ⟨⟨past, s⟩, hfollow, hP⟩ := (Option.any_eq_true _ _).mp h
  exact ⟨past, s, Run.of_follow step init actions hfollow, of_decide_eq_true hP⟩

end Foundation
