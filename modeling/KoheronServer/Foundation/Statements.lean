/-!
# Statements that are executed in order

A function body is a list of statements. Each of them ends the function with a result, stops it
with an error, or goes on with the next one in another state.
-/

namespace Foundation

variable {τ ε ρ σ : Type}

/-- The statements from the first on, where `fallOff` stands for the end without a result. -/
def runStatements (run : τ → σ → Except ε (ρ ⊕ σ)) (fallOff : ε) : List τ → σ → Except ε ρ
  | [], _ => .error fallOff
  | statement :: rest, s =>
      match run statement s with
      | .error e => .error e
      | .ok (.inl result) => .ok result
      | .ok (.inr s) => runStatements run fallOff rest s

inductive GoesOn (run : τ → σ → Except ε (ρ ⊕ σ)) : List τ → σ → σ → Prop where
  | nil (s : σ) : GoesOn run [] s s
  | cons {statement : τ} {rest : List τ} {s s' s'' : σ} (h : run statement s = .ok (.inr s'))
      (hrest : GoesOn run rest s' s'') : GoesOn run (statement :: rest) s s''

section

variable {run : τ → σ → Except ε (ρ ⊕ σ)} {fallOff : ε} {statement : τ} {s s' s'' : σ}

theorem runStatements_next (h : run statement s = .ok (.inr s')) (rest : List τ) :
    runStatements run fallOff (statement :: rest) s = runStatements run fallOff rest s' := by
  simp only [runStatements, h]

theorem runStatements_ended {result : ρ} (h : run statement s = .ok (.inl result)) (rest : List τ) :
    runStatements run fallOff (statement :: rest) s = .ok result := by
  simp only [runStatements, h]

theorem runStatements_error {e : ε} (h : run statement s = .error e) (rest : List τ) :
    runStatements run fallOff (statement :: rest) s = .error e := by
  simp only [runStatements, h]

theorem GoesOn.append {front : List τ} (h : GoesOn run front s s') (rest : List τ) :
    runStatements run fallOff (front ++ rest) s = runStatements run fallOff rest s' := by
  induction h with
  | nil s => rfl
  | cons hstep _ ih =>
      rw [List.cons_append, runStatements_next hstep]
      exact ih

end

end Foundation
