import KoheronServer.Foundation.Runs
import Mathlib.Data.List.Nodup
import Mathlib.Logic.Function.Basic

/-!
# Ownership of handles

A system gives out handles on resources. A handle is open from the call that
returns it up to the one that closes it, and may then be given out again. A
program keeps its handles at places and passes them from one place to another. A
resource whose handle is open and at no place is lost; where none is dropped, each
one is at one place or has been closed once.
-/

namespace Foundation

variable {Place Handle : Type}

/-- The resources of the open handles, the number of resources that have been opened, which are
numbered in this order, and those that have been closed. -/
structure HandleTable (Handle : Type) where
  resource : Handle → Option Nat
  opened : Nat
  closed : List Nat

namespace HandleTable

def empty : HandleTable Handle := ⟨fun _ => none, 0, []⟩

/-- Every resource is open under one handle or has been closed once. -/
structure Valid (table : HandleTable Handle) : Prop where
  lt : ∀ h r, table.resource h = some r → r < table.opened
  notMem : ∀ h r, table.resource h = some r → r ∉ table.closed
  unique : ∀ h h' r, table.resource h = some r → table.resource h' = some r → h = h'
  nodup : table.closed.Nodup
  closed_lt : ∀ r ∈ table.closed, r < table.opened
  accounted : ∀ r < table.opened, r ∈ table.closed ∨ ∃ h, table.resource h = some r

theorem empty_valid : (empty : HandleTable Handle).Valid where
  lt _ _ h := nomatch h
  notMem _ _ h := nomatch h
  unique _ _ _ h := nomatch h
  nodup := List.nodup_nil
  closed_lt _ h := nomatch h
  accounted _ h := nomatch h

variable [DecidableEq Handle] {table : HandleTable Handle} {h : Handle}

def acquire (table : HandleTable Handle) (h : Handle) : HandleTable Handle where
  resource := Function.update table.resource h (some table.opened)
  opened := table.opened + 1
  closed := table.closed

/-- The close of a handle that is not open fails. -/
def close (table : HandleTable Handle) (h : Handle) : HandleTable Handle :=
  match table.resource h with
  | none => table
  | some r => { table with resource := Function.update table.resource h none, closed := r :: table.closed }

theorem resource_acquire {h' : Handle} {r : Nat} (hr : (table.acquire h).resource h' = some r) :
    (h' = h ∧ r = table.opened) ∨ (h' ≠ h ∧ table.resource h' = some r) := by
  by_cases heq : h' = h
  · subst heq
    simp only [acquire, Function.update_self] at hr
    exact .inl ⟨rfl, (Option.some.inj hr).symm⟩
  · simp only [acquire, Function.update_of_ne heq] at hr
    exact .inr ⟨heq, hr⟩

theorem Valid.acquire (hvalid : table.Valid) (hfree : table.resource h = none) :
    (table.acquire h).Valid where
  lt h' r hr := by
    rcases resource_acquire hr with ⟨-, rfl⟩ | ⟨-, hr⟩
    · exact Nat.lt_succ_self _
    · exact Nat.lt_succ_of_lt (hvalid.lt h' r hr)
  notMem h' r hr := by
    rcases resource_acquire hr with ⟨-, rfl⟩ | ⟨-, hr⟩
    · exact fun hmem => Nat.lt_irrefl _ (hvalid.closed_lt _ hmem)
    · exact hvalid.notMem h' r hr
  unique h₁ h₂ r hr₁ hr₂ := by
    rcases resource_acquire hr₁ with ⟨rfl, rfl⟩ | ⟨-, hr₁⟩
    · rcases resource_acquire hr₂ with ⟨rfl, -⟩ | ⟨-, hr₂⟩
      · rfl
      · exact absurd (hvalid.lt h₂ _ hr₂) (Nat.lt_irrefl _)
    · rcases resource_acquire hr₂ with ⟨-, rfl⟩ | ⟨-, hr₂⟩
      · exact absurd (hvalid.lt h₁ _ hr₁) (Nat.lt_irrefl _)
      · exact hvalid.unique h₁ h₂ r hr₁ hr₂
  nodup := hvalid.nodup
  closed_lt r hmem := Nat.lt_succ_of_lt (hvalid.closed_lt r hmem)
  accounted r hr := by
    rcases Nat.lt_succ_iff_lt_or_eq.mp hr with hlt | rfl
    · rcases hvalid.accounted r hlt with hmem | ⟨h', hr'⟩
      · exact .inl hmem
      · have hne : h' ≠ h := by
          rintro rfl
          rw [hfree] at hr'
          cases hr'
        exact .inr ⟨h', (Function.update_of_ne hne _ _).trans hr'⟩
    · exact .inr ⟨h, Function.update_self _ _ _⟩

theorem close_eq {r : Nat} (hr : table.resource h = some r) :
    table.close h =
      { table with resource := Function.update table.resource h none, closed := r :: table.closed } := by
  rw [close, hr]

theorem resource_close {h' : Handle} {r : Nat} :
    (table.close h).resource h' = some r ↔ h' ≠ h ∧ table.resource h' = some r := by
  by_cases heq : h' = h
  · subst heq
    cases hr : table.resource h' with
    | none => simp [close, hr]
    | some r' => simp [close_eq hr]
  · cases hr : table.resource h with
    | none => simp [close, hr, heq]
    | some r' => simp [close_eq hr, heq]

theorem Valid.close (hvalid : table.Valid) (h : Handle) : (table.close h).Valid := by
  cases hr : table.resource h with
  | none =>
      rw [HandleTable.close, hr]
      exact hvalid
  | some r =>
      refine ⟨?lt, ?notMem, ?unique, ?nodup, ?closed_lt, ?accounted⟩
      case lt =>
        intro h' r' hr'
        rw [close_eq hr]
        exact hvalid.lt h' r' (resource_close.mp hr').2
      case notMem =>
        intro h' r' hr'
        obtain ⟨hne, hr'⟩ := resource_close.mp hr'
        rw [close_eq hr, List.mem_cons, not_or]
        refine ⟨?_, hvalid.notMem h' r' hr'⟩
        rintro rfl
        exact hne (hvalid.unique h' h r' hr' hr)
      case unique =>
        intro h₁ h₂ r' hr₁ hr₂
        exact hvalid.unique h₁ h₂ r' (resource_close.mp hr₁).2 (resource_close.mp hr₂).2
      case nodup =>
        rw [close_eq hr]
        exact hvalid.nodup.cons (hvalid.notMem h r hr)
      case closed_lt =>
        rw [close_eq hr]
        exact List.forall_mem_cons.mpr ⟨hvalid.lt h r hr, hvalid.closed_lt⟩
      case accounted =>
        intro r' hlt
        have hopened : (table.close h).opened = table.opened := by rw [close_eq hr]
        have hclosed : (table.close h).closed = r :: table.closed := by rw [close_eq hr]
        rw [hclosed, List.mem_cons]
        rcases hvalid.accounted r' (hopened ▸ hlt) with hmem | ⟨h', hr'⟩
        · exact .inl (.inr hmem)
        · by_cases heq : h' = h
          · subst heq
            exact .inl (.inl (Option.some.inj (hr'.symm.trans hr)))
          · exact .inr ⟨h', resource_close.mpr ⟨heq, hr'⟩⟩

end HandleTable

/-! ## Places -/

/-- The handles of a system and the places of a program that hold one. -/
structure Ownership (Place Handle : Type) where
  table : HandleTable Handle
  held : Place → Option Handle

/-- What a step of the program does with the handles: a place gets a new one, a new one is closed at
once, a place passes its handle to another one, closes it, forgets it, or nothing happens. -/
inductive Handover (Place Handle : Type) where
  | acquire (p : Place) (h : Handle)
  | refuse (h : Handle)
  | pass (p p' : Place)
  | release (p : Place)
  | drop (p : Place)
  | keep

namespace Ownership

def empty : Ownership Place Handle := ⟨.empty, fun _ => none⟩

/-- The place holds the handle of the resource. -/
def Owns (o : Ownership Place Handle) (p : Place) (r : Nat) : Prop :=
  ∃ h, o.held p = some h ∧ o.table.resource h = some r

/-- A resource is at one place, or it has been closed, once, and is at none. -/
def OwnedOnce (o : Ownership Place Handle) (r : Nat) : Prop :=
  (r ∉ o.table.closed ∧ ∃! p, o.Owns p r) ∨ (o.table.closed.count r = 1 ∧ ∀ p, ¬o.Owns p r)

/-- A resource is open, and no place can close it. -/
def Lost (o : Ownership Place Handle) (r : Nat) : Prop :=
  ∃ h, o.table.resource h = some r ∧ ∀ p, o.held p ≠ some h

/-- The places hold open handles, each another one. -/
structure Valid (o : Ownership Place Handle) : Prop where
  table : o.table.Valid
  isOpen : ∀ p h, o.held p = some h → ∃ r, o.table.resource h = some r
  distinct : ∀ p p' h, o.held p = some h → o.held p' = some h → p = p'

variable {o o' : Ownership Place Handle}

theorem empty_valid : (empty : Ownership Place Handle).Valid :=
  ⟨HandleTable.empty_valid, fun _ _ h => (nomatch h), fun _ _ _ h => (nomatch h)⟩

theorem Valid.ownedOnce_iff (h : o.Valid) {r : Nat} (hr : r < o.table.opened) :
    o.OwnedOnce r ↔ ¬o.Lost r := by
  rcases h.table.accounted r hr with hclosed | ⟨fd, hfd⟩
  · have hgone : ∀ h', o.table.resource h' ≠ some r := fun h' hr' => h.table.notMem h' r hr' hclosed
    have hcount : o.table.closed.count r = 1 := List.count_eq_one_of_mem h.table.nodup hclosed
    constructor
    · rintro - ⟨h', hr', -⟩
      exact hgone h' hr'
    · intro _
      exact .inr ⟨hcount, fun p ⟨h', _, hr'⟩ => hgone h' hr'⟩
  · have hopen := h.table.notMem fd r hfd
    have hheld : ∀ p, o.Owns p r ↔ o.held p = some fd := by
      intro p
      constructor
      · rintro ⟨fd', hp, hfd'⟩
        rwa [h.table.unique fd fd' r hfd hfd']
      · exact fun hp => ⟨fd, hp, hfd⟩
    constructor
    · rintro (⟨-, p, hp, -⟩ | ⟨hcount, -⟩) ⟨fd', hfd', hnone⟩
      · obtain rfl := h.table.unique fd fd' r hfd hfd'
        exact hnone p ((hheld p).mp hp)
      · rw [List.count_eq_zero_of_not_mem hopen] at hcount
        cases hcount
    · intro hlost
      have hplace : ∃ p, o.held p = some fd := by
        by_contra hnone
        exact hlost ⟨fd, hfd, fun p hp => hnone ⟨p, hp⟩⟩
      obtain ⟨p, hp⟩ := hplace
      exact .inl ⟨hopen, p, (hheld p).mpr hp, fun p' hp' =>
        h.distinct p' p fd ((hheld p').mp hp') hp⟩

/-! ## What a step does -/

theorem Valid.refuse [DecidableEq Handle] (h : o.Valid) {fd : Handle}
    (hfree : o.table.resource fd = none) :
    Valid ⟨(o.table.acquire fd).close fd, o.held⟩ := by
  refine ⟨(h.table.acquire hfree).close fd, ?_, h.distinct⟩
  intro p fd' hp
  obtain ⟨r, hr⟩ := h.isOpen p fd' hp
  have hne : fd' ≠ fd := by
    rintro rfl
    rw [hfree] at hr
    cases hr
  exact ⟨r, HandleTable.resource_close.mpr ⟨hne, (Function.update_of_ne hne _ _).trans hr⟩⟩

section

variable [DecidableEq Place]

theorem held_update {held : Place → Option Handle} {p q : Place} {x : Option Handle} {h : Handle}
    (hq : Function.update held p x q = some h) :
    (q = p ∧ x = some h) ∨ (q ≠ p ∧ held q = some h) := by
  by_cases heq : q = p
  · subst heq
    rw [Function.update_self] at hq
    exact .inl ⟨rfl, hq⟩
  · rw [Function.update_of_ne heq] at hq
    exact .inr ⟨heq, hq⟩

theorem Valid.forget (h : o.Valid) (p : Place) :
    Valid ⟨o.table, Function.update o.held p none⟩ := by
  have hkept : ∀ {q fd}, Function.update o.held p none q = some fd → o.held q = some fd := by
    intro q fd hq
    rcases held_update hq with ⟨-, heq⟩ | ⟨-, hq⟩
    · cases heq
    · exact hq
  exact ⟨h.table, fun q fd hq => h.isOpen q fd (hkept hq),
    fun q q' fd hq hq' => h.distinct q q' fd (hkept hq) (hkept hq')⟩

theorem Valid.pass (h : o.Valid) {p p' : Place} {fd : Handle} (hp : o.held p = some fd) :
    Valid ⟨o.table, Function.update (Function.update o.held p none) p' (some fd)⟩ := by
  have hother : ∀ q, Function.update o.held p none q ≠ some fd := by
    intro q hq
    rcases held_update hq with ⟨-, heq⟩ | ⟨hne, hq⟩
    · cases heq
    · exact hne (h.distinct q p fd hq hp)
  have hforget := h.forget p
  refine ⟨h.table, ?_, ?_⟩
  · intro q fd' hq
    rcases held_update hq with ⟨-, heq⟩ | ⟨-, hq⟩
    · obtain rfl := Option.some.inj heq
      exact h.isOpen p fd hp
    · exact hforget.isOpen q fd' hq
  · intro q q' fd' hq hq'
    rcases held_update hq with ⟨rfl, heq⟩ | ⟨-, hq⟩
    · rcases held_update hq' with ⟨rfl, -⟩ | ⟨-, hq'⟩
      · rfl
      · obtain rfl := Option.some.inj heq
        exact absurd hq' (hother q')
    · rcases held_update hq' with ⟨-, heq⟩ | ⟨-, hq'⟩
      · obtain rfl := Option.some.inj heq
        exact absurd hq (hother q)
      · exact hforget.distinct q q' fd' hq hq'

variable [DecidableEq Handle]

def step (o : Ownership Place Handle) : Handover Place Handle → Option (Ownership Place Handle)
  | .acquire p h =>
      if o.table.resource h = none ∧ o.held p = none then
        some ⟨o.table.acquire h, Function.update o.held p (some h)⟩
      else none
  | .refuse h =>
      if o.table.resource h = none then some ⟨(o.table.acquire h).close h, o.held⟩ else none
  | .pass p p' =>
      match o.held p, o.held p' with
      | some h, none =>
          some ⟨o.table, Function.update (Function.update o.held p none) p' (some h)⟩
      | _, _ => none
  | .release p =>
      match o.held p with
      | some h => some ⟨o.table.close h, Function.update o.held p none⟩
      | none => none
  | .drop p =>
      match o.held p with
      | some _ => some ⟨o.table, Function.update o.held p none⟩
      | none => none
  | .keep => some o

theorem Valid.acquire (h : o.Valid) {p : Place} {fd : Handle} (hfree : o.table.resource fd = none) :
    Valid ⟨o.table.acquire fd, Function.update o.held p (some fd)⟩ := by
  have hother : ∀ q fd', o.held q = some fd' → fd' ≠ fd := by
    rintro q fd' hq rfl
    obtain ⟨r, hr⟩ := h.isOpen q fd' hq
    rw [hfree] at hr
    cases hr
  refine ⟨h.table.acquire hfree, ?_, ?_⟩
  · intro q fd' hq
    rcases held_update hq with ⟨-, heq⟩ | ⟨-, hq⟩
    · obtain rfl := Option.some.inj heq
      exact ⟨_, Function.update_self _ _ _⟩
    · obtain ⟨r, hr⟩ := h.isOpen q fd' hq
      exact ⟨r, (Function.update_of_ne (hother q fd' hq) _ _).trans hr⟩
  · intro q q' fd' hq hq'
    rcases held_update hq with ⟨rfl, heq⟩ | ⟨-, hq⟩
    · rcases held_update hq' with ⟨rfl, -⟩ | ⟨-, hq'⟩
      · rfl
      · exact absurd (Option.some.inj heq).symm (hother q' fd' hq')
    · rcases held_update hq' with ⟨-, heq⟩ | ⟨-, hq'⟩
      · exact absurd (Option.some.inj heq).symm (hother q fd' hq)
      · exact h.distinct q q' fd' hq hq'

theorem Valid.release (h : o.Valid) {p : Place} {fd : Handle} (hp : o.held p = some fd) :
    Valid ⟨o.table.close fd, Function.update o.held p none⟩ := by
  have hforget := h.forget p
  refine ⟨h.table.close fd, ?_, hforget.distinct⟩
  intro q fd' hq
  obtain ⟨r, hr⟩ := hforget.isOpen q fd' hq
  have hne : fd' ≠ fd := by
    rintro rfl
    rcases held_update hq with ⟨-, heq⟩ | ⟨hne, hq⟩
    · cases heq
    · exact hne (h.distinct q p fd' hq hp)
  exact ⟨r, HandleTable.resource_close.mpr ⟨hne, hr⟩⟩

inductive Steps (o : Ownership Place Handle) : Handover Place Handle →
    Ownership Place Handle → Prop where
  | acquire {p : Place} {h : Handle} (hfree : o.table.resource h = none) (hp : o.held p = none) :
      Steps o (.acquire p h) ⟨o.table.acquire h, Function.update o.held p (some h)⟩
  | refuse {h : Handle} (hfree : o.table.resource h = none) :
      Steps o (.refuse h) ⟨(o.table.acquire h).close h, o.held⟩
  | pass {p p' : Place} {h : Handle} (hp : o.held p = some h) (hp' : o.held p' = none) :
      Steps o (.pass p p') ⟨o.table, Function.update (Function.update o.held p none) p' (some h)⟩
  | release {p : Place} {h : Handle} (hp : o.held p = some h) :
      Steps o (.release p) ⟨o.table.close h, Function.update o.held p none⟩
  | drop {p : Place} {h : Handle} (hp : o.held p = some h) :
      Steps o (.drop p) ⟨o.table, Function.update o.held p none⟩
  | keep : Steps o .keep o

theorem step_steps {a : Handover Place Handle} (hstep : o.step a = some o') : o.Steps a o' := by
  cases a with
  | acquire p h =>
      obtain ⟨⟨hfree, hp⟩, heq⟩ := Option.ite_none_right_eq_some.mp hstep
      obtain rfl := Option.some.inj heq
      exact .acquire hfree hp
  | refuse h =>
      obtain ⟨hfree, heq⟩ := Option.ite_none_right_eq_some.mp hstep
      obtain rfl := Option.some.inj heq
      exact .refuse hfree
  | pass p p' =>
      simp only [step] at hstep
      split at hstep
      case h_1 hp hp' =>
        obtain rfl := Option.some.inj hstep
        exact .pass hp hp'
      case h_2 => cases hstep
  | release p =>
      simp only [step] at hstep
      split at hstep
      case h_1 hp =>
        obtain rfl := Option.some.inj hstep
        exact .release hp
      case h_2 => cases hstep
  | drop p =>
      simp only [step] at hstep
      split at hstep
      case h_1 hp =>
        obtain rfl := Option.some.inj hstep
        exact .drop hp
      case h_2 => cases hstep
  | keep =>
      obtain rfl := Option.some.inj hstep
      exact .keep

theorem Valid.step {a : Handover Place Handle} (h : o.Valid) (hstep : o.step a = some o') :
    o'.Valid := by
  cases step_steps hstep with
  | acquire hfree => exact h.acquire hfree
  | refuse hfree => exact h.refuse hfree
  | pass hp => exact h.pass hp
  | release hp => exact h.release hp
  | @drop p => exact h.forget p
  | keep => exact h

theorem Lost.step {a : Handover Place Handle} {r : Nat} (h : o.Lost r)
    (hstep : o.step a = some o') :
    o'.Lost r := by
  obtain ⟨fd, hr, hnone⟩ := h
  have hforget : ∀ p q, Function.update o.held p none q ≠ some fd := by
    intro p q hq
    rcases held_update hq with ⟨-, heq⟩ | ⟨-, hq⟩
    · cases heq
    · exact hnone q hq
  cases step_steps hstep with
  | @acquire p fd' hfree =>
      have hne : fd ≠ fd' := by
        rintro rfl
        rw [hfree] at hr
        cases hr
      refine ⟨fd, (Function.update_of_ne hne _ _).trans hr, fun q hq => ?_⟩
      rcases held_update hq with ⟨-, heq⟩ | ⟨-, hq⟩
      · exact hne (Option.some.inj heq).symm
      · exact hnone q hq
  | @refuse fd' hfree =>
      have hne : fd ≠ fd' := by
        rintro rfl
        rw [hfree] at hr
        cases hr
      have hr' := (Function.update_of_ne hne (some o.table.opened) _).trans hr
      exact ⟨fd, HandleTable.resource_close.mpr ⟨hne, hr'⟩, hnone⟩
  | @pass p p' fd' hp =>
      refine ⟨fd, hr, fun q hq => ?_⟩
      rcases held_update hq with ⟨-, heq⟩ | ⟨-, hq⟩
      · exact hnone p (hp.trans heq)
      · exact hforget p q hq
  | @release p fd' hp =>
      have hne : fd ≠ fd' := by
        rintro rfl
        exact hnone p hp
      exact ⟨fd, HandleTable.resource_close.mpr ⟨hne, hr⟩, hforget p⟩
  | @drop p => exact ⟨fd, hr, hforget p⟩
  | keep => exact ⟨fd, hr, hnone⟩

/-- A place that forgets its handle loses the resource. -/
theorem Valid.lost_drop (h : o.Valid) {p : Place} (hstep : o.step (.drop p) = some o') :
    ∃ r, o'.Lost r := by
  cases step_steps hstep with
  | @drop _ fd hp =>
      obtain ⟨r, hr⟩ := h.isOpen p fd hp
      refine ⟨r, fd, hr, fun q hq => ?_⟩
      rcases held_update hq with ⟨-, heq⟩ | ⟨hne, hq⟩
      · cases heq
      · exact hne (h.distinct q p fd hq hp)

theorem Lost.of_step {a : Handover Place Handle} {r : Nat} (h : o'.Lost r)
    (hstep : o.step a = some o') (hdrop : ∀ p, a ≠ .drop p) : o.Lost r := by
  obtain ⟨fd, hr, hnone⟩ := h
  cases step_steps hstep with
  | @acquire p fd' hfree hp =>
      rcases HandleTable.resource_acquire hr with ⟨rfl, -⟩ | ⟨-, hr⟩
      · exact absurd (Function.update_self _ _ _) (hnone p)
      · refine ⟨fd, hr, fun q hq => hnone q ?_⟩
        have hne : q ≠ p := by
          rintro rfl
          rw [hp] at hq
          cases hq
        exact (Function.update_of_ne hne _ _).trans hq
  | refuse =>
      obtain ⟨hne, hr⟩ := HandleTable.resource_close.mp hr
      exact ⟨fd, (Function.update_of_ne hne _ _).symm.trans hr, hnone⟩
  | @pass p p' fd' hp hp' =>
      refine ⟨fd, hr, fun q hq => ?_⟩
      by_cases hqp : q = p
      · subst hqp
        obtain rfl := Option.some.inj (hp.symm.trans hq)
        exact hnone p' (Function.update_self _ _ _)
      · have hqp' : q ≠ p' := by
          rintro rfl
          rw [hp'] at hq
          cases hq
        refine hnone q ((Function.update_of_ne hqp' _ _).trans ?_)
        exact (Function.update_of_ne hqp _ _).trans hq
  | @release p fd' hp =>
      obtain ⟨hne, hr⟩ := HandleTable.resource_close.mp hr
      refine ⟨fd, hr, fun q hq => hnone q ?_⟩
      have hqp : q ≠ p := by
        rintro rfl
        exact hne (Option.some.inj (hq.symm.trans hp))
      exact (Function.update_of_ne hqp _ _).trans hq
  | @drop p => exact absurd rfl (hdrop p)
  | keep => exact ⟨fd, hr, hnone⟩

/-! ## Runs -/

abbrev Runs (past : List (Ownership Place Handle × Handover Place Handle))
    (o : Ownership Place Handle) : Prop :=
  Run (fun o a o' => step o a = some o') empty past o

variable {past : List (Ownership Place Handle × Handover Place Handle)}

theorem Runs.valid (h : Runs past o) : o.Valid :=
  Run.invariant (P := Valid) empty_valid (fun hvalid hstep => hvalid.step hstep) h

theorem Runs.lost_iff (h : Runs past o) :
    (∃ r, o.Lost r) ↔ ∃ x ∈ past, ∃ p, x.2 = .drop p := by
  induction h with
  | start =>
      constructor
      · rintro ⟨r, fd, hr, -⟩
        cases hr
      · rintro ⟨x, hx, -⟩
        cases hx
  | @next past o o' a run taken ih =>
      have hvalid := Runs.valid run
      constructor
      · rintro ⟨r, hlost⟩
        by_cases hdrop : ∃ p, a = Handover.drop p
        · exact ⟨_, List.mem_cons_self, hdrop⟩
        · have hbefore := hlost.of_step taken fun p heq => hdrop ⟨p, heq⟩
          obtain ⟨x, hx, hp⟩ := ih.mp ⟨r, hbefore⟩
          exact ⟨x, List.mem_cons_of_mem _ hx, hp⟩
      · rintro ⟨x, hx, p, hp⟩
        rcases List.mem_cons.mp hx with rfl | hx
        · subst hp
          exact hvalid.lost_drop taken
        · obtain ⟨r, hlost⟩ := ih.mpr ⟨x, hx, p, hp⟩
          exact ⟨r, hlost.step taken⟩

/-- Every resource is owned once where no place has forgotten its handle. -/
theorem Runs.ownedOnce_iff (h : Runs past o) :
    (∀ r < o.table.opened, o.OwnedOnce r) ↔ ∀ x ∈ past, ∀ p, x.2 ≠ .drop p := by
  have hvalid := Runs.valid h
  have hlost := Runs.lost_iff h
  constructor
  · intro howned x hx p hp
    obtain ⟨r, hr⟩ := hlost.mpr ⟨x, hx, p, hp⟩
    have hlt : r < o.table.opened := by
      obtain ⟨fd, hfd, -⟩ := hr
      exact hvalid.table.lt fd r hfd
    exact (hvalid.ownedOnce_iff hlt).mp (howned r hlt) hr
  · intro hkept r hlt
    refine (hvalid.ownedOnce_iff hlt).mpr fun hr => ?_
    obtain ⟨x, hx, p, hp⟩ := hlost.mp ⟨r, hr⟩
    exact hkept x hx p hp

end

end Ownership

end Foundation
