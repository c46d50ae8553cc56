import KoheronServer.Foundation.Dependencies
import Mathlib.Data.Fintype.Card
import Mathlib.Data.Fintype.Sets
import Mathlib.Logic.Function.Basic

/-!
# The device manager

`DeviceManager` and its `DevicesContainer`. A device is started by the first
command that names it or by the constructor of another device that gets it
through the context, so `alloc_device` calls itself along the calls of
`ctx.get` in the constructors.
-/

namespace KoheronServer.Devices

open Foundation Relation

/-- The devices that each constructor gets through its context, in order. Device `i` has id
`i + 2`, and there are `device_num - 2` of them. -/
abbrev Constructors (n : Nat) := Fin n → List (Fin n)

/-- `a` gets `b` in its constructor. -/
def Constructors.Needs {n : Nat} (constructors : Constructors n) (a b : Fin n) : Prop :=
  b ∈ constructors a

/-- Starts and ends of constructors, and what `ctx.get` returns to one: a reference to an object,
or one through a null pointer. -/
inductive Event (n : Nat) where
  | construct (dev : Fin n)
  | constructed (dev : Fin n)
  | got (caller dev : Fin n) (object : Bool)
  deriving DecidableEq, Repr

structure DevicesContainer (n : Nat) where
  isStarted : Fin n → Bool
  isStarting : Fin n → Bool
  /-- Which pointers of the tuple hold an object. -/
  devtup : Fin n → Bool

/-- The events are in reverse order. A `KDevice` of `device_list` is its `kind`. -/
structure DeviceManager (n : Nat) where
  deviceList : Fin n → Option Nat
  devCont : DevicesContainer n
  isStarted : Fin n → Bool
  exitAll : Bool
  events : List (Event n)

def deviceId {n : Nat} (dev : Fin n) : Nat := dev + 2

namespace DeviceManager

variable {n : Nat}

def created (n : Nat) : DeviceManager n where
  deviceList _ := none
  devCont := ⟨fun _ => false, fun _ => false, fun _ => false⟩
  isStarted _ := false
  exitAll := false
  events := []

/-- `is_starting` is set and the constructor is called. -/
def enter (m : DeviceManager n) (dev : Fin n) : DeviceManager n :=
  { m with
    devCont := { m.devCont with isStarting := Function.update m.devCont.isStarting dev true }
    events := .construct dev :: m.events }

/-- The constructor has returned, and the flags are set behind it. -/
def leave (m : DeviceManager n) (dev : Fin n) : DeviceManager n :=
  { m with
    devCont :=
      { isStarted := Function.update m.devCont.isStarted dev true
        isStarting := Function.update m.devCont.isStarting dev false
        devtup := Function.update m.devCont.devtup dev true }
    events := .constructed dev :: m.events }

/-- `device_list` and `is_started` behind a successful `alloc`. -/
def list (m : DeviceManager n) (dev : Fin n) : DeviceManager n :=
  { m with
    deviceList := Function.update m.deviceList dev (some (deviceId dev))
    isStarted := Function.update m.isStarted dev true }

/-- `DevicesContainer::alloc`; `construct` is the body of the constructor. -/
def alloc (construct : DeviceManager n → Option (DeviceManager n)) (dev : Fin n)
    (m : DeviceManager n) : Option (Int × DeviceManager n) :=
  if m.devCont.isStarted dev then some (0, m)
  else if m.devCont.isStarting dev then some (-1, m)
  else
    match construct (m.enter dev) with
    | none => none
    | some m => some (0, m.leave dev)

/-- `DeviceManager::get`: whether the pointer that it dereferences holds an object. -/
def get (allocDevice : Fin n → DeviceManager n → Option (DeviceManager n)) (dev : Fin n)
    (m : DeviceManager n) : Option (Bool × DeviceManager n) :=
  if m.isStarted dev then some (m.devCont.devtup dev, m)
  else
    match allocDevice dev m with
    | none => none
    | some m => some (m.devCont.devtup dev, m)

/-- The calls of `ctx.get` in the constructor of `caller`. -/
def getAll (allocDevice : Fin n → DeviceManager n → Option (DeviceManager n)) (caller : Fin n) :
    List (Fin n) → DeviceManager n → Option (DeviceManager n)
  | [], m => some m
  | dev :: devs, m =>
      match get allocDevice dev m with
      | none => none
      | some (object, m) =>
          getAll allocDevice caller devs { m with events := .got caller dev object :: m.events }

/-- `DeviceManager::alloc_device`, with `fuel` calls inside each other at most. -/
def allocDevice (constructors : Constructors n) :
    Nat → Fin n → DeviceManager n → Option (DeviceManager n)
  | 0, _, _ => none
  | fuel + 1, dev, m =>
      if m.isStarted dev then some m
      else
        match m.alloc (getAll (allocDevice constructors fuel) dev (constructors dev)) dev with
        | none => none
        | some (ret, m) => some (if ret < 0 then { m with exitAll := true } else m.list dev)

/-! ## What `alloc_device` keeps -/

/-- No `ctx.get` has returned a reference through a null pointer. -/
def Clean (m : DeviceManager n) : Prop := ∀ caller dev, .got caller dev false ∉ m.events

/-- What `ctx.get` has returned a reference to had been constructed by then. -/
def GetsConstructed (events : List (Event n)) : Prop :=
  ∀ later caller dev earlier, events = later ++ .got caller dev true :: earlier →
    .constructed dev ∈ earlier

theorem GetsConstructed.cons {events : List (Event n)} (h : GetsConstructed events) {e : Event n}
    (hnew : ∀ caller dev, e = .got caller dev true → .constructed dev ∈ events) :
    GetsConstructed (e :: events) := by
  intro later caller dev earlier heq
  cases later with
  | nil =>
      obtain ⟨rfl, rfl⟩ := List.cons.inj heq
      exact hnew caller dev rfl
  | cons d later => exact h later caller dev earlier (List.cons.inj heq).2

/-- What holds of a manager whenever none of its own functions is between two of its stores. -/
structure Consistent (constructors : Constructors n) (m : DeviceManager n) : Prop where
  agree : m.isStarted = m.devCont.isStarted
  object : m.devCont.devtup = m.devCont.isStarted
  listed : ∀ dev, m.deviceList dev = if m.isStarted dev then some (deviceId dev) else none
  starting : ∀ dev, m.devCont.isStarting dev = true → m.isStarted dev = false
  construct : ∀ dev, m.events.count (.construct dev) =
    if m.isStarted dev || m.devCont.isStarting dev then 1 else 0
  constructed : ∀ dev, m.isStarted dev = true ↔ .constructed dev ∈ m.events
  gets : GetsConstructed m.events
  founded : m.Clean → ∀ dev, m.isStarted dev = true → Founded constructors.Needs dev
  exits : ¬m.Clean → m.exitAll = true

theorem created_consistent (constructors : Constructors n) :
    (created n).Consistent constructors where
  agree := rfl
  object := rfl
  listed _ := rfl
  starting _ _ := rfl
  construct _ := rfl
  constructed _ := by simp [created]
  gets := by
    intro later caller dev earlier h
    simp [created] at h
  founded _ _ h := by simp [created] at h
  exits h := by simp [created, Clean] at h

def unstarting (m : DeviceManager n) : Nat :=
  (Finset.univ.filter fun dev => m.devCont.isStarting dev = false).card

theorem unstarting_le (m : DeviceManager n) : m.unstarting ≤ n := by
  have hle := Finset.card_filter_le Finset.univ fun dev : Fin n => m.devCont.isStarting dev = false
  rwa [Finset.card_univ, Fintype.card_fin] at hle

theorem enter_unstarting {m : DeviceManager n} {dev : Fin n}
    (h : m.devCont.isStarting dev = false) : (m.enter dev).unstarting + 1 = m.unstarting := by
  have hfilter : (Finset.univ.filter fun d => (m.enter dev).devCont.isStarting d = false) =
      (Finset.univ.filter fun d => m.devCont.isStarting d = false).erase dev := by
    ext d
    simp only [Finset.mem_filter, Finset.mem_erase, Finset.mem_univ, true_and]
    by_cases hd : d = dev
    · simp [enter, hd]
    · simp [enter, hd]
  have hmem : dev ∈ Finset.univ.filter fun d => m.devCont.isStarting d = false := by simpa using h
  have hpos := Finset.card_pos.mpr ⟨dev, hmem⟩
  rw [unstarting, unstarting, hfilter, Finset.card_erase_of_mem hmem]
  omega

theorem enter_clean (m : DeviceManager n) (dev : Fin n) : (m.enter dev).Clean ↔ m.Clean := by
  simp [Clean, enter]

theorem leave_clean (m : DeviceManager n) (dev : Fin n) :
    ((m.leave dev).list dev).Clean ↔ m.Clean := by
  simp [Clean, leave, list]

section

variable {constructors : Constructors n} {m : DeviceManager n} {dev : Fin n}

theorem Consistent.enter (hm : m.Consistent constructors) (hstarted : m.isStarted dev = false)
    (hstarting : m.devCont.isStarting dev = false) : (m.enter dev).Consistent constructors where
  agree := hm.agree
  object := hm.object
  listed := hm.listed
  starting d h := by
    by_cases hd : d = dev
    · rw [hd]
      exact hstarted
    · simp only [DeviceManager.enter, Function.update_of_ne hd] at h
      exact hm.starting d h
  construct d := by
    have hcount := hm.construct d
    by_cases hd : d = dev
    · subst hd
      simpa [DeviceManager.enter, hstarted, hstarting] using hcount
    · have hne : Event.construct dev ≠ .construct d := by
        intro heq
        cases heq
        exact hd rfl
      simpa [DeviceManager.enter, hd, List.count_cons_of_ne hne] using hcount
  constructed d := by
    rw [DeviceManager.enter]
    simpa using hm.constructed d
  gets := hm.gets.cons (by simp)
  founded hclean := hm.founded ((enter_clean m dev).mp hclean)
  exits h := hm.exits (mt (enter_clean m dev).mpr h)

/-- A reference through a null pointer comes with `exit_all`. -/
theorem Consistent.got (hm : m.Consistent constructors) (caller : Fin n)
    (hexit : m.devCont.devtup dev = false → m.exitAll = true) :
    { m with events := .got caller dev (m.devCont.devtup dev) :: m.events }.Consistent
      constructors where
  agree := hm.agree
  object := hm.object
  listed := hm.listed
  starting := hm.starting
  construct d := by simpa using hm.construct d
  constructed d := by simpa using hm.constructed d
  gets := by
    apply hm.gets.cons
    intro caller' d heq
    obtain ⟨-, rfl, hobject⟩ := Event.got.inj heq
    rw [← hm.constructed, hm.agree, ← hm.object]
    exact hobject
  founded hclean := by
    apply hm.founded
    intro c d hmem
    exact hclean c d (List.mem_cons_of_mem _ hmem)
  exits h := by
    cases hobject : m.devCont.devtup dev with
    | false => exact hexit hobject
    | true =>
        apply hm.exits
        intro hclean
        apply h
        intro c d hmem
        rcases List.mem_cons.mp hmem with heq | hmem
        · have hfalse := (Event.got.inj heq).2.2
          rw [hobject] at hfalse
          cases hfalse
        · exact hclean c d hmem

/-- A constructor whose references are founded makes its device founded. -/
theorem Consistent.leave (hm : m.Consistent constructors)
    (hstarting : m.devCont.isStarting dev = true)
    (hfounded : m.Clean → Founded constructors.Needs dev) :
    ((m.leave dev).list dev).Consistent constructors where
  agree := by simp [DeviceManager.leave, DeviceManager.list, hm.agree]
  object := by simp [DeviceManager.leave, DeviceManager.list, hm.object]
  listed d := by
    by_cases hd : d = dev
    · simp [DeviceManager.leave, DeviceManager.list, hd]
    · simpa [DeviceManager.leave, DeviceManager.list, hd] using hm.listed d
  starting d h := by
    by_cases hd : d = dev
    · simp [DeviceManager.leave, DeviceManager.list, hd] at h
    · simp only [DeviceManager.leave, DeviceManager.list, Function.update_of_ne hd] at h ⊢
      exact hm.starting d h
  construct d := by
    have hcount := hm.construct d
    by_cases hd : d = dev
    · subst hd
      simpa [DeviceManager.leave, DeviceManager.list, hstarting] using hcount
    · simpa [DeviceManager.leave, DeviceManager.list, hd] using hcount
  constructed d := by
    by_cases hd : d = dev
    · simp [DeviceManager.leave, DeviceManager.list, hd]
    · simpa [DeviceManager.leave, DeviceManager.list, hd] using hm.constructed d
  gets := hm.gets.cons (by simp)
  founded hclean d h := by
    have hclean' : m.Clean := (leave_clean m dev).mp hclean
    by_cases hd : d = dev
    · rw [hd]
      exact hfounded hclean'
    · simp only [DeviceManager.leave, DeviceManager.list, Function.update_of_ne hd] at h
      exact hm.founded hclean' d h
  exits h := hm.exits (mt (leave_clean m dev).mpr h)

theorem Consistent.exit (hm : m.Consistent constructors) :
    { m with exitAll := true }.Consistent constructors :=
  { hm with exits := fun _ => rfl }

/-! ## What `alloc_device` does -/

/-- What every call leaves of the manager that it finds. -/
structure Extends (m m' : DeviceManager n) : Prop where
  starting : m'.devCont.isStarting = m.devCont.isStarting
  started : ∀ dev, m.isStarted dev = true → m'.isStarted dev = true
  clean : m'.Clean → m.Clean

theorem Extends.refl (m : DeviceManager n) : Extends m m := ⟨rfl, fun _ h => h, id⟩

theorem Extends.trans {m m' m'' : DeviceManager n} (h : Extends m m') (h' : Extends m' m'') :
    Extends m m'' where
  starting := h'.starting.trans h.starting
  started dev hdev := h'.started dev (h.started dev hdev)
  clean hclean := h.clean (h'.clean hclean)

theorem Extends.unstarting {m m' : DeviceManager n} (h : Extends m m') :
    m'.unstarting = m.unstarting := by
  rw [DeviceManager.unstarting, DeviceManager.unstarting, h.starting]

/-- Every device that is being constructed needs `dev`. -/
def Awaits (constructors : Constructors n) (m : DeviceManager n) (dev : Fin n) : Prop :=
  ∀ a, m.devCont.isStarting a = true → ReflTransGen constructors.Needs a dev

/-- What a call that starts `dev` comes to, whether or not a constructor of `dev` is running. -/
structure Allocated (constructors : Constructors n) (dev : Fin n) (m m' : DeviceManager n) :
    Prop where
  consistent : m'.Consistent constructors
  kept : Extends m m'
  started : m.devCont.isStarting dev = false → m'.isStarted dev = true
  exits : m'.isStarted dev = false → m'.exitAll = true
  acyclic : Acyclic constructors.Needs → m.Awaits constructors dev → m.Clean → m'.Clean

/-- The same for the calls of `ctx.get` of a constructor. -/
structure Gotten (constructors : Constructors n) (caller : Fin n) (devs : List (Fin n))
    (m m' : DeviceManager n) : Prop where
  consistent : m'.Consistent constructors
  kept : Extends m m'
  started : m'.Clean → ∀ dev ∈ devs, m'.isStarted dev = true
  acyclic : Acyclic constructors.Needs → m.Awaits constructors caller → m.Clean → m'.Clean

/-- `get` starts its device or finds it, and returns a reference to an object unless the
constructor of the device is still running. -/
theorem get_spec {alloc : Fin n → DeviceManager n → Option (DeviceManager n)}
    (hm : m.Consistent constructors)
    (halloc : ∃ m', alloc dev m = some m' ∧ Allocated constructors dev m m') :
    ∃ m', get alloc dev m = some (m'.devCont.devtup dev, m') ∧ Allocated constructors dev m m' := by
  unfold get
  cases hstarted : m.isStarted dev with
  | true =>
      refine ⟨m, rfl, hm, Extends.refl m, fun _ => hstarted, ?_, fun _ _ => id⟩
      rw [hstarted]
      simp
  | false =>
      rcases halloc with ⟨m', halloc, h⟩
      exact ⟨m', by simp [halloc], h⟩

theorem getAll_spec {alloc : Fin n → DeviceManager n → Option (DeviceManager n)} {caller : Fin n}
    {bound : Nat} (halloc : ∀ dev (m : DeviceManager n), m.Consistent constructors →
      m.unstarting < bound → ∃ m', alloc dev m = some m' ∧ Allocated constructors dev m m')
    (devs : List (Fin n)) (hneeds : ∀ dev ∈ devs, constructors.Needs caller dev)
    {m : DeviceManager n} (hm : m.Consistent constructors) (hbound : m.unstarting < bound) :
    ∃ m', getAll alloc caller devs m = some m' ∧ Gotten constructors caller devs m m' := by
  induction devs generalizing m with
  | nil => exact ⟨m, rfl, hm, Extends.refl m, by simp, fun _ _ => id⟩
  | cons dev devs ih =>
      obtain ⟨m₁, hget, h₁⟩ := get_spec hm (halloc dev m hm hbound)
      have hobject : m₁.devCont.devtup dev = m₁.isStarted dev := by
        rw [h₁.consistent.agree, h₁.consistent.object]
      let m₂ := { m₁ with events := .got caller dev (m₁.devCont.devtup dev) :: m₁.events }
      have hm₂ : m₂.Consistent constructors := by
        apply h₁.consistent.got caller
        rw [hobject]
        exact h₁.exits
      have hkept : Extends m m₂ := by
        apply h₁.kept.trans
        exact ⟨rfl, fun _ h => h, fun h c d hmem => h c d (List.mem_cons_of_mem _ hmem)⟩
      obtain ⟨m', hrest, hgotten⟩ := ih (fun d hd => hneeds d (List.mem_cons_of_mem _ hd)) hm₂
        (by rw [hkept.unstarting]; exact hbound)
      refine ⟨m', by simp only [getAll, hget]; exact hrest, hgotten.consistent,
        hkept.trans hgotten.kept, ?_, ?_⟩
      · intro hclean d hd
        cases hd with
        | head =>
            apply hgotten.kept.started
            cases hflag : m₁.isStarted dev with
            | true => rfl
            | false =>
                rw [hflag] at hobject
                have hnull := hgotten.kept.clean hclean caller dev
                simp [m₂, hobject] at hnull
        | tail _ hd => exact hgotten.started hclean d hd
      · intro hacyclic hawaits hclean
        have hneeded : constructors.Needs caller dev := hneeds dev List.mem_cons_self
        have hawaits' : m.Awaits constructors dev := fun a ha => (hawaits a ha).tail hneeded
        -- A device that is still being constructed would be needed by its own constructor.
        have hidle : m.devCont.isStarting dev = false := by
          cases hstarting : m.devCont.isStarting dev with
          | false => rfl
          | true => exact absurd (hawaits dev hstarting) (hacyclic.not_reaches hneeded)
        rw [h₁.started hidle] at hobject
        apply hgotten.acyclic hacyclic
        · intro a ha
          rw [hkept.starting] at ha
          exact hawaits a ha
        · intro c d hmem
          rcases List.mem_cons.mp hmem with heq | hmem
          · rw [hobject] at heq
            cases heq
          · exact h₁.acyclic hacyclic hawaits' hclean c d hmem

/-- `alloc_device` returns, for any constructors: every call inside another one has a device more
that is being constructed. -/
theorem allocDevice_spec (constructors : Constructors n) (fuel : Nat) (dev : Fin n)
    (m : DeviceManager n) (hm : m.Consistent constructors) (hfuel : m.unstarting < fuel) :
    ∃ m', allocDevice constructors fuel dev m = some m' ∧ Allocated constructors dev m m' := by
  induction fuel generalizing dev m with
  | zero => omega
  | succ fuel ih =>
      unfold allocDevice
      cases hstarted : m.isStarted dev with
      | true =>
          refine ⟨m, rfl, hm, Extends.refl m, fun _ => hstarted, ?_, fun _ _ => id⟩
          rw [hstarted]
          simp
      | false =>
          have hcont : m.devCont.isStarted dev = false := by rw [← hm.agree, hstarted]
          cases hstarting : m.devCont.isStarting dev with
          | true =>
              refine ⟨{ m with exitAll := true }, by simp [alloc, hcont, hstarting], hm.exit,
                ⟨rfl, fun _ h => h, fun h => h⟩, ?_, fun _ => rfl, fun _ _ h => h⟩
              rw [hstarting]
              simp
          | false =>
              have hunstarting := enter_unstarting hstarting
              obtain ⟨m₁, hbody, h⟩ := getAll_spec ih (constructors dev)
                (fun d hd => hd) (hm.enter hstarted hstarting) (by omega)
              have hdev : m₁.devCont.isStarting dev = true := by
                rw [h.kept.starting]
                simp [enter]
              have hfounded : m₁.Clean → Founded constructors.Needs dev := by
                intro hclean
                constructor
                intro d hd
                exact h.consistent.founded hclean d (h.started hclean d hd)
              refine ⟨(m₁.leave dev).list dev, by simp [alloc, hcont, hstarting, hbody],
                h.consistent.leave hdev hfounded, ⟨?_, ?_, ?_⟩, ?_, ?_, ?_⟩
              · simp only [leave, list, h.kept.starting, enter]
                funext d
                by_cases hd : d = dev
                · simp [hd, hstarting]
                · simp [hd]
              · intro d hd
                have hd' := h.kept.started d hd
                simp [leave, list, Function.update_apply, hd']
              · intro hclean
                exact (enter_clean m dev).mp (h.kept.clean ((leave_clean m₁ dev).mp hclean))
              · intro _
                simp [list]
              · simp [list]
              · intro hacyclic hawaits hclean
                rw [leave_clean]
                apply h.acyclic hacyclic
                · intro a ha
                  by_cases had : a = dev
                  · rw [had]
                  · simp only [enter, Function.update_of_ne had] at ha
                    exact hawaits a ha
                · exact (enter_clean m dev).mpr hclean

end

end DeviceManager

end KoheronServer.Devices
