import Mathlib.Logic.Basic

/-!
# Functions with a trace

A function that leaves events on its way, and that may have no result. Without
its events it is a function into `Option`; what holds of its events is put together
from its parts by the rules for `Ensures`.
-/

namespace Foundation

def Traced (ε α : Type) : Type := Option (α × List ε)

namespace Traced

variable {ε α β : Type}

def never : Traced ε α := none

def emit (events : List ε) : Traced ε Unit := some ((), events)

protected def bind (x : Traced ε α) (f : α → Traced ε β) : Traced ε β :=
  match x with
  | none => none
  | some (a, events) =>
      match f a with
      | none => none
      | some (b, events') => some (b, events ++ events')

instance : Monad (Traced ε) where
  pure a := some (a, [])
  bind := Traced.bind

def erase (x : Traced ε α) : Option α := x.map Prod.fst

@[simp] theorem erase_never : (never : Traced ε α).erase = none := rfl

@[simp] theorem erase_pure (a : α) : (pure a : Traced ε α).erase = some a := rfl

@[simp] theorem erase_emit (events : List ε) : (emit events).erase = some () := rfl

@[simp] theorem erase_bind (x : Traced ε α) (f : α → Traced ε β) :
    (x >>= f).erase = x.erase.bind fun a => (f a).erase := by
  change (Traced.bind x f).erase = _
  rcases x with _ | ⟨a, events⟩
  · rfl
  · change (Traced.bind (some (a, events)) f).erase = (f a).erase
    unfold Traced.bind
    dsimp only
    cases f a with
    | none => rfl
    | some result => rfl

theorem bind_eq_some {x : Traced ε α} {f : α → Traced ε β} {a : α} {b : β} {events events' : List ε}
    (hx : x = some (a, events)) (hf : f a = some (b, events')) :
    x >>= f = some (b, events ++ events') := by
  change Traced.bind x f = _
  rw [hx]
  unfold Traced.bind
  dsimp only
  rw [hf]

theorem exists_of_erase {x : Traced ε α} {a : α} (h : x.erase = some a) :
    ∃ events, x = some (a, events) := by
  rcases x with _ | ⟨a', events⟩
  · cases h
  · obtain rfl : a' = a := Option.some.inj h
    exact ⟨events, rfl⟩

/-- The result and the events, if there are any, satisfy `R`. -/
def Ensures (x : Traced ε α) (R : α → List ε → Prop) : Prop :=
  ∀ a events, x = some (a, events) → R a events

variable {x : Traced ε α} {f : α → Traced ε β} {R : α → List ε → Prop} {S : β → List ε → Prop}

theorem Ensures.mono {R' : α → List ε → Prop} (h : x.Ensures R)
    (hR : ∀ a events, R a events → R' a events) :
    x.Ensures R' :=
  fun a events hx => hR a events (h a events hx)

theorem ensures_never : (never : Traced ε α).Ensures R := by
  intro a events h
  cases h

theorem ensures_pure {a : α} (h : R a []) : (pure a : Traced ε α).Ensures R := by
  intro a' events hpure
  cases hpure
  exact h

theorem ensures_emit {events : List ε} {R : Unit → List ε → Prop} (h : R () events) :
    (emit events).Ensures R := by
  intro u events' hemit
  cases hemit
  exact h

/-- The rule for two functions one behind the other. -/
theorem Ensures.bind (hx : x.Ensures R)
    (hf : ∀ a events, x.erase = some a → R a events →
      (f a).Ensures fun b events' => S b (events ++ events')) : (x >>= f).Ensures S := by
  intro b all h
  change Traced.bind x f = some (b, all) at h
  rcases x with _ | ⟨a, events⟩
  · cases h
  · change Traced.bind (some (a, events)) f = some (b, all) at h
    unfold Traced.bind at h
    dsimp only at h
    cases hfa : f a with
    | none =>
        rw [hfa] at h
        cases h
    | some result =>
        obtain ⟨b', events'⟩ := result
        rw [hfa] at h
        cases h
        exact hf a events rfl (hx a events rfl) b events' hfa

/-- What comes behind a function matters only on its results. -/
theorem Ensures.bind_congr {g : α → Traced ε β} (hx : x.Ensures R)
    (hfg : ∀ a events, R a events → f a = g a) : x >>= f = x >>= g := by
  change Traced.bind x f = Traced.bind x g
  rcases x with _ | ⟨a, events⟩
  · rfl
  · unfold Traced.bind
    dsimp only
    rw [hfg a events (hx a events rfl)]

theorem bind_eq_none {a : α} {events : List ε} (hx : x = some (a, events)) (hf : f a = none) :
    x >>= f = none := by
  change Traced.bind x f = _
  rw [hx]
  unfold Traced.bind
  dsimp only
  rw [hf]

/-- Every event satisfies `P`, and the result satisfies `Q`. -/
def Only (P : ε → Prop) (Q : α → Prop) (x : Traced ε α) : Prop :=
  x.Ensures fun a events => (∀ e ∈ events, P e) ∧ Q a

variable {P : ε → Prop} {Q : α → Prop} {Q' : β → Prop}

theorem only_pure {a : α} (h : Q a) : Only P Q (pure a : Traced ε α) :=
  ensures_pure ⟨fun _ he => absurd he List.not_mem_nil, h⟩

theorem only_emit {events : List ε} (h : ∀ e ∈ events, P e) :
    Only P (fun _ => True) (emit events) :=
  ensures_emit ⟨h, trivial⟩

theorem Only.bind (hx : Only P Q x) (hf : ∀ a, x.erase = some a → Q a → Only P Q' (f a)) :
    Only P Q' (x >>= f) := by
  refine Ensures.bind hx fun a events ha hQ => (hf a ha hQ.2).mono fun b events' h => ⟨?_, h.2⟩
  intro e he
  exact (List.mem_append.mp he).elim (hQ.1 e) (h.1 e)

end Traced

end Foundation
