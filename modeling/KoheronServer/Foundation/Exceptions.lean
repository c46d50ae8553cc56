import Mathlib.Data.List.Forall2

/-!
# Code that raises exceptions

A sequence of statements, or a loop over a list, comes to its end exactly when each of its parts
does.
-/

namespace Foundation

variable {ε α β γ : Type}

/-- It returns, whatever the value. -/
def Returns (x : Except ε α) : Prop := ∃ a, x = .ok a

@[simp] theorem returns_ok (a : α) : Returns (.ok a : Except ε α) := ⟨a, rfl⟩

@[simp] theorem not_returns_error (e : ε) : ¬Returns (.error e : Except ε α) := by
  rintro ⟨_, h⟩
  cases h

theorem bind_ok_iff {x : Except ε α} {f : α → Except ε β} {b : β} :
    x >>= f = .ok b ↔ ∃ a, x = .ok a ∧ f a = .ok b := by
  cases x with
  | error e => simp [bind, Except.bind]
  | ok a => simp [bind, Except.bind]

theorem returns_bind_iff {x : Except ε α} {f : α → Except ε β} :
    Returns (x >>= f) ↔ ∃ a, x = .ok a ∧ Returns (f a) := by
  cases x with
  | error e => simp [bind, Except.bind]
  | ok a => simp [bind, Except.bind]

/-- A loop that collects its results returns what each round returns. -/
theorem mapM_ok_iff {f : α → Except ε β} {xs : List α} {ys : List β} :
    xs.mapM f = .ok ys ↔ List.Forall₂ (fun x y => f x = .ok y) xs ys := by
  induction xs generalizing ys with
  | nil =>
      rw [List.mapM_nil, List.forall₂_nil_left_iff]
      exact ⟨fun h => (Except.ok.inj h).symm, fun h => congrArg Except.ok h.symm⟩
  | cons x xs ih =>
      rw [List.mapM_cons, bind_ok_iff]
      constructor
      · rintro ⟨y, hy, hrest⟩
        obtain ⟨zs, hzs, hlast⟩ := bind_ok_iff.mp hrest
        obtain rfl := Except.ok.inj hlast
        exact .cons hy (ih.mp hzs)
      · intro h
        cases h with
        | @cons _ y _ zs hy hzs => exact ⟨y, hy, bind_ok_iff.mpr ⟨zs, ih.mpr hzs, rfl⟩⟩

/-- What a loop has collected comes from one of its rounds. -/
theorem exists_of_mapM_ok {f : α → Except ε β} {xs : List α} {ys : List β} (h : xs.mapM f = .ok ys)
    {y : β} (hy : y ∈ ys) : ∃ x ∈ xs, f x = .ok y := by
  have hall := mapM_ok_iff.mp h
  clear h
  induction hall with
  | nil => cases hy
  | @cons x z xs ys hx _ ih =>
      rcases List.mem_cons.mp hy with rfl | hy
      · exact ⟨x, List.mem_cons_self, hx⟩
      · rcases ih hy with ⟨x', hmem, hx'⟩
        exact ⟨x', List.mem_cons_of_mem x hmem, hx'⟩

theorem returns_mapM_iff {f : α → Except ε β} {xs : List α} :
    Returns (xs.mapM f) ↔ ∀ x ∈ xs, Returns (f x) := by
  induction xs with
  | nil =>
      rw [List.mapM_nil]
      exact ⟨fun _ _ h => absurd h List.not_mem_nil, fun _ => returns_ok _⟩
  | cons x xs ih =>
      rw [List.mapM_cons, returns_bind_iff, List.forall_mem_cons, ← ih]
      constructor
      · rintro ⟨y, hy, hrest⟩
        obtain ⟨zs, hzs, -⟩ := returns_bind_iff.mp hrest
        exact ⟨⟨y, hy⟩, zs, hzs⟩
      · rintro ⟨⟨y, hy⟩, zs, hzs⟩
        exact ⟨y, hy, returns_bind_iff.mpr ⟨zs, hzs, returns_ok _⟩⟩

end Foundation
