import Mathlib.Logic.Relation
import Mathlib.Tactic.Ring

/-!
# Dependencies

A relation `r a b` is read as "`a` needs `b`". What is accessible along it needs
nothing that needs itself again; where no element needs itself, a chain of needs
does not come back.
-/

namespace Foundation

open Relation

variable {α : Type} (r : α → α → Prop)

def Acyclic : Prop := ∀ a, ¬TransGen r a a

/-- `a` needs, directly, through others or by itself, an element that needs itself. -/
def ReachesCycle (a : α) : Prop := ∃ c, ReflTransGen r a c ∧ TransGen r c c

/-- Everything that `a` needs can be put in front of it. -/
abbrev Founded (a : α) : Prop := Acc (fun b a => r a b) a

variable {r}

theorem Founded.not_transGen {a : α} (h : Founded r a) : ¬TransGen r a a := by
  induction h with
  | intro a _ ih =>
      intro hcycle
      obtain ⟨b, hab, hba⟩ := TransGen.head'_iff.mp hcycle
      exact ih b hab (TransGen.tail' hba hab)

theorem Founded.of_reaches {a b : α} (h : Founded r a) (hab : ReflTransGen r a b) :
    Founded r b := by
  induction hab with
  | refl => exact h
  | tail _ hbc ih => exact ih.inv hbc

/-- What reaches a cycle is not founded. -/
theorem ReachesCycle.not_founded {a : α} (h : ReachesCycle r a) : ¬Founded r a := by
  intro hfounded
  rcases h with ⟨c, hac, hcycle⟩
  exact (hfounded.of_reaches hac).not_transGen hcycle

/-- An element that is needed by a chain is not part of it. -/
theorem Acyclic.not_reaches {a b : α} (h : Acyclic r) (hab : r a b) : ¬ReflTransGen r b a := by
  intro hba
  exact h a (TransGen.head' hab hba)

/-- A rank that falls from an element to what it needs. -/
theorem Acyclic.of_rank (rank : α → Nat) (h : ∀ a b, r a b → rank b < rank a) : Acyclic r := by
  have hless : ∀ a b, TransGen r a b → rank b < rank a := by
    intro a b hab
    induction hab with
    | single hab => exact h _ _ hab
    | tail _ hbc ih => exact Nat.lt_trans (h _ _ hbc) ih
  intro a ha
  exact Nat.lt_irrefl _ (hless a a ha)

end Foundation
