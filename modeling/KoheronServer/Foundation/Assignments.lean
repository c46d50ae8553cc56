import Mathlib.Data.List.Basic

/-!
# Assignments to the fields of a record

Each assignment gives one field its value and leaves the others alone. Behind a list
of assignments a field has the value that they agree on, or the one that it had.
-/

namespace Foundation

/-- The fields of a record `σ` and the assignments `A` to them. -/
structure Assignments (σ A F V : Type) where
  get : σ → F → V
  apply : A → σ → σ
  field : A → F
  value : A → V
  get_apply_self : ∀ a s, get (apply a s) (field a) = value a
  get_apply_of_ne : ∀ a s f, f ≠ field a → get (apply a s) f = get s f

namespace Assignments

variable {σ A F V : Type} (r : Assignments σ A F V)

def applyAll (as : List A) (s : σ) : σ := as.foldl (fun s a => r.apply a s) s

theorem get_applyAll_of_notMem {as : List A} {f : F} (h : ∀ a ∈ as, r.field a ≠ f) (s : σ) :
    r.get (r.applyAll as s) f = r.get s f := by
  induction as generalizing s with
  | nil => rfl
  | cons a as ih =>
      have hne : f ≠ r.field a := (h a List.mem_cons_self).symm
      have hrest := ih (fun b hb => h b (List.mem_cons_of_mem _ hb)) (r.apply a s)
      exact hrest.trans (r.get_apply_of_ne a s f hne)

theorem get_applyAll_of_mem {as : List A} {a : A} (ha : a ∈ as)
    (hagree : ∀ b ∈ as, r.field b = r.field a → r.value b = r.value a) (s : σ) :
    r.get (r.applyAll as s) (r.field a) = r.value a := by
  induction as generalizing s a with
  | nil => cases ha
  | cons b as ih =>
      by_cases hlater : ∃ c ∈ as, r.field c = r.field a
      · obtain ⟨c, hc, hfield⟩ := hlater
        have hcagree : ∀ d ∈ as, r.field d = r.field c → r.value d = r.value c := by
          intro d hd hdc
          rw [hagree d (List.mem_cons_of_mem _ hd) (hdc.trans hfield),
            hagree c (List.mem_cons_of_mem _ hc) hfield]
        have hlast := ih hc hcagree (r.apply b s)
        rw [hfield, hagree c (List.mem_cons_of_mem _ hc) hfield] at hlast
        exact hlast
      · have hnone : ∀ c ∈ as, r.field c ≠ r.field a := fun c hc heq => hlater ⟨c, hc, heq⟩
        have hab : a = b := by
          rcases List.mem_cons.mp ha with hab | ha
          · exact hab
          · exact absurd rfl (hnone a ha)
        subst hab
        exact (r.get_applyAll_of_notMem hnone (r.apply a s)).trans (r.get_apply_self a s)

end Assignments

end Foundation
