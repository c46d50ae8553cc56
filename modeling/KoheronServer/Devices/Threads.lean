import KoheronServer.Devices.Execute
import KoheronServer.Foundation.Runs

/-!
# Session threads starting devices

Any number of session threads in `DeviceManager::execute`. The test of
`is_started` is outside of the mutex and `alloc_device` inside of it, so a device
may be found not started by several threads and is started by the first one.
-/

namespace KoheronServer.Devices

open Foundation Relation

/-- Where a session thread is in `execute`: outside, in front of the test of `is_started`, in front
of `start`, or in front of `execute_dev`. -/
inductive SessionThread (n : Nat) where
  | idle
  | called (dev : Fin n)
  | unstarted (dev : Fin n)
  | started (dev : Fin n)

structure Execution (n : Nat) where
  dev : Fin n
  executor : Except Fault (Fin n)

structure Server (n : Nat) where
  manager : DeviceManager n
  threads : Nat → SessionThread n
  executions : List (Execution n)

inductive Action (n : Nat) where
  | command (thread : Nat) (dev : Fin n)
  | readStarted (thread : Nat)
  | start (thread : Nat)
  | executeDev (thread : Nat)

namespace Server

variable {n : Nat}

def init (n : Nat) : Server n := ⟨.created n, fun _ => .idle, []⟩

def setThread (s : Server n) (thread : Nat) (session : SessionThread n) : Server n :=
  { s with threads := Function.update s.threads thread session }

/-- One step of a session thread; `start` runs under the mutex from its begin to its end. -/
def step (constructors : Constructors n) (s : Server n) : Action n → Option (Server n)
  | .command thread dev =>
      match s.threads thread with
      | .idle => some (s.setThread thread (.called dev))
      | _ => none
  | .readStarted thread =>
      match s.threads thread with
      | .called dev =>
          some (s.setThread thread (if s.manager.isStarted dev then .started dev else .unstarted dev))
      | _ => none
  | .start thread =>
      match s.threads thread with
      | .unstarted dev =>
          match s.manager.start constructors (deviceId dev) dev.pos with
          | none => none
          | some manager => some { s.setThread thread (.started dev) with manager := manager }
      | _ => none
  | .executeDev thread =>
      match s.threads thread with
      | .started dev =>
          let execution := ⟨dev, s.manager.executeDev dev⟩
          some { s.setThread thread .idle with executions := execution :: s.executions }
      | _ => none

abbrev Step (constructors : Constructors n) (s : Server n) (a : Action n) (s' : Server n) : Prop :=
  s.step constructors a = some s'

/-- The mutex is free, and what the threads have found started is so. -/
structure Inv (constructors : Constructors n) (s : Server n) : Prop where
  consistent : s.manager.Consistent constructors
  free : ∀ dev, s.manager.devCont.isStarting dev = false
  started : ∀ thread dev, s.threads thread = .started dev → s.manager.isStarted dev = true

/-- Nothing has gone through a null pointer. -/
structure Sound (s : Server n) : Prop where
  clean : s.manager.Clean
  executions : ∀ e ∈ s.executions, e.executor = .ok e.dev

theorem init_inv (constructors : Constructors n) : (init n).Inv constructors where
  consistent := DeviceManager.created_consistent constructors
  free _ := rfl
  started _ _ h := by simp [init] at h

theorem init_sound (n : Nat) : (init n).Sound where
  clean := by simp [init, DeviceManager.created, DeviceManager.Clean]
  executions := by simp [init]

/-- A thread that moves without the manager keeps the invariant. -/
theorem Inv.setThread {constructors : Constructors n} {s : Server n} (hs : s.Inv constructors)
    (thread : Nat) {session : SessionThread n}
    (hsession : ∀ dev, session = .started dev → s.manager.isStarted dev = true) :
    (s.setThread thread session).Inv constructors where
  consistent := hs.consistent
  free := hs.free
  started t dev h := by
    by_cases ht : t = thread
    · simp only [Server.setThread, ht, Function.update_self] at h
      exact hsession dev h
    · simp only [Server.setThread, Function.update_of_ne ht] at h
      exact hs.started t dev h

theorem Inv.start {constructors : Constructors n} {s : Server n} (hs : s.Inv constructors)
    (thread : Nat) (dev : Fin n) {manager : DeviceManager n}
    (h : DeviceManager.Allocated constructors dev s.manager manager) :
    { s.setThread thread (.started dev) with manager := manager }.Inv constructors where
  consistent := h.consistent
  free d := by
    rw [h.kept.starting]
    exact hs.free d
  started t d ht := by
    by_cases hthread : t = thread
    · simp only [Server.setThread, hthread, Function.update_self, SessionThread.started.injEq] at ht
      rw [← ht]
      exact h.started (hs.free dev)
    · simp only [Server.setThread, Function.update_of_ne hthread] at ht
      exact h.kept.started d (hs.started t d ht)

/-- A step moves a thread, starts a device under the mutex or executes a command. -/
theorem step_cases {constructors : Constructors n} {s s' : Server n} {a : Action n}
    (hs : s.Inv constructors) (h : s.Step constructors a s') :
    (∃ thread session, s' = s.setThread thread session ∧
      ∀ dev, session = .started dev → s.manager.isStarted dev = true) ∨
    (∃ thread dev manager, DeviceManager.Allocated constructors dev s.manager manager ∧
      s' = { s.setThread thread (.started dev) with manager := manager }) ∨
    ∃ thread dev, s.threads thread = .started dev ∧
      s' = { s.setThread thread .idle with
        executions := ⟨dev, s.manager.executeDev dev⟩ :: s.executions } := by
  cases a with
  | command thread dev =>
      unfold Step step at h
      cases hthread : s.threads thread <;> simp only [hthread, reduceCtorEq] at h
      cases h
      exact .inl ⟨thread, _, rfl, by simp⟩
  | readStarted thread =>
      unfold Step step at h
      cases hthread : s.threads thread with
      | called dev =>
          simp only [hthread] at h
          cases h
          refine .inl ⟨thread, _, rfl, ?_⟩
          intro d hd
          cases hstarted : s.manager.isStarted dev with
          | true =>
              simp only [hstarted, if_true, SessionThread.started.injEq] at hd
              rw [← hd, hstarted]
          | false => simp [hstarted] at hd
      | idle | unstarted | started => simp [hthread] at h
  | start thread =>
      unfold Step step at h
      cases hthread : s.threads thread with
      | unstarted dev =>
          obtain ⟨manager, hstart, halloc⟩ :=
            DeviceManager.start_spec constructors hs.consistent dev
          simp only [hthread, hstart] at h
          cases h
          exact .inr (.inl ⟨thread, dev, manager, halloc, rfl⟩)
      | idle | called | started => simp [hthread] at h
  | executeDev thread =>
      unfold Step step at h
      cases hthread : s.threads thread with
      | started dev =>
          simp only [hthread] at h
          cases h
          exact .inr (.inr ⟨thread, dev, hthread, rfl⟩)
      | idle | called | unstarted => simp [hthread] at h

theorem step_inv {constructors : Constructors n} {s s' : Server n} {a : Action n}
    (hs : s.Inv constructors) (h : s.Step constructors a s') : s'.Inv constructors := by
  rcases step_cases hs h with ⟨thread, session, rfl, hsession⟩ |
    ⟨thread, dev, manager, halloc, rfl⟩ |
    ⟨thread, dev, -, rfl⟩
  · exact hs.setThread thread hsession
  · exact hs.start thread dev halloc
  · have hidle : (s.setThread thread .idle).Inv constructors := hs.setThread thread (by simp)
    exact ⟨hidle.consistent, hidle.free, hidle.started⟩

/-- A thread that can step is never kept from it: `alloc_device` returns. -/
theorem start_returns {constructors : Constructors n} {s : Server n} (hs : s.Inv constructors)
    {thread : Nat} {dev : Fin n} (h : s.threads thread = .unstarted dev) :
    ∃ s', s.Step constructors (.start thread) s' := by
  obtain ⟨manager, hstart, -⟩ := DeviceManager.start_spec constructors hs.consistent dev
  exact ⟨{ s.setThread thread (.started dev) with manager := manager }, by
    simp only [Step, step, h, hstart]⟩

theorem step_sound {constructors : Constructors n} (hacyclic : Acyclic constructors.Needs)
    {s s' : Server n} {a : Action n} (hs : s.Inv constructors) (hsound : s.Sound)
    (h : s.Step constructors a s') : s'.Sound := by
  rcases step_cases hs h with ⟨thread, session, rfl, -⟩ | ⟨thread, dev, manager, halloc, rfl⟩ |
    ⟨thread, dev, hthread, rfl⟩
  · exact ⟨hsound.clean, hsound.executions⟩
  · have hawaits : s.manager.Awaits constructors dev := by
      intro a ha
      rw [hs.free a] at ha
      cases ha
    exact ⟨halloc.acyclic hacyclic hawaits hsound.clean, hsound.executions⟩
  · refine ⟨hsound.clean, ?_⟩
    intro e he
    rcases List.mem_cons.mp he with rfl | he
    · exact DeviceManager.executeDev_started hs.consistent (hs.started thread dev hthread)
    · exact hsound.executions e he

theorem run_inv {constructors : Constructors n} {past : List (Server n × Action n)} {s : Server n}
    (h : Run (Step constructors) (init n) past s) : s.Inv constructors :=
  h.invariant (init_inv constructors) step_inv

theorem run_sound {constructors : Constructors n} (hacyclic : Acyclic constructors.Needs)
    {past : List (Server n × Action n)} {s : Server n}
    (h : Run (Step constructors) (init n) past s) : s.Sound :=
  Run.history_invariant (P := fun _ s => s.Sound) run_inv (init_sound n)
    (fun hs hsound htaken => step_sound hacyclic hs hsound htaken) h

/-- What the lazy start of the devices is for. -/
structure StartedOnce (s : Server n) : Prop where
  once : ∀ dev, s.manager.events.count (.construct dev) ≤ 1
  /-- What `ctx.get` has returned is an object whose constructor had returned. -/
  constructed : ∀ later caller dev object earlier,
    s.manager.events = later ++ .got caller dev object :: earlier →
      object = true ∧ .constructed dev ∈ earlier
  agree : ∀ dev, s.manager.devCont.isStarted dev = s.manager.isStarted dev
  free : ∀ dev, s.manager.devCont.isStarting dev = false
  executor : ∀ e ∈ s.executions, e.executor = .ok e.dev

/-- Where no constructors need each other in a circle, every run starts the devices once. -/
theorem run_startedOnce {constructors : Constructors n} (hacyclic : Acyclic constructors.Needs)
    {past : List (Server n × Action n)} {s : Server n}
    (h : Run (Step constructors) (init n) past s) : s.StartedOnce := by
  have hinv := run_inv h
  have hsound := run_sound hacyclic h
  constructor
  · intro dev
    rw [hinv.consistent.construct dev]
    split <;> omega
  · intro later caller dev object earlier heq
    cases object with
    | true => exact ⟨rfl, hinv.consistent.gets later caller dev earlier heq⟩
    | false => exact absurd (by rw [heq]; simp) (hsound.clean caller dev)
  · intro dev
    rw [hinv.consistent.agree]
  · exact hinv.free
  · exact hsound.executions

def twoConstructors : Constructors 2 := fun dev => if dev = 0 then [1, 1] else []

/-- Two threads find device 0 not started, and the second one starts it again. -/
theorem run_startedOnce_race :
    ∃ past s, Run (Step twoConstructors) (init 2) past s ∧ s.executions.length = 2 ∧
      s.StartedOnce := by
  have hacyclic : Acyclic twoConstructors.Needs := by
    apply Acyclic.of_rank fun dev => 1 - dev.val
    intro a b hneeds
    unfold Constructors.Needs twoConstructors at hneeds
    by_cases ha : a = 0
    · simp only [ha, if_true, List.mem_cons, or_self, List.not_mem_nil, or_false] at hneeds
      simp [ha, hneeds]
    · simp [ha] at hneeds
  have hrun := Run.of_follow (step twoConstructors) (init 2)
    [.command 0 0, .command 1 0, .readStarted 0, .readStarted 1, .start 0, .start 1, .executeDev 0,
      .executeDev 1] rfl
  exact ⟨_, _, hrun, rfl, run_startedOnce hacyclic hrun⟩

end Server

end KoheronServer.Devices
