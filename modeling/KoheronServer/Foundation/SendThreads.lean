import KoheronServer.Foundation.Runs

/-!
# Threads that send

Threads that send messages in two steps, first building one and then writing it. A
thread goes through jobs, and sends the messages of a job under the locks of the job.
Where messages are built and written is left open.
-/

namespace Foundation

/-- Messages that a thread sends one after the other, under the same locks. -/
structure Job (μ ℓ : Type) where
  locks : List ℓ
  messages : List μ

/-- Where a thread is: between two jobs, in a job in front of some of its messages, or between
the two steps of one of them. -/
inductive Control (μ ℓ : Type) where
  | idle
  | holding (locks : List ℓ) (messages : List μ)
  | built (locks : List ℓ) (m : μ) (messages : List μ)

namespace Control

variable {μ ℓ : Type}

/-- The messages of the job that are not written yet. -/
def messages : Control μ ℓ → List μ
  | idle => []
  | holding _ ms => ms
  | built _ m ms => m :: ms

def locks : Control μ ℓ → List ℓ
  | idle => []
  | holding ls _ => ls
  | built ls _ _ => ls

end Control

inductive SendAction where
  | start
  | build
  | write
  | finish
  deriving DecidableEq, Repr

inductive SendEffect (μ : Type) where
  | silent
  | build (m : μ)
  | write (m : μ)

def SendEffect.written {μ : Type} : SendEffect μ → List μ
  | silent => []
  | build _ => []
  | write m => [m]

@[ext]
structure Threads (μ ℓ : Type) where
  control : Nat → Control μ ℓ
  jobs : Nat → List (Job μ ℓ)
  holder : ℓ → Option Nat

namespace Threads

variable {μ ℓ : Type}

def init (jobs : Nat → List (Job μ ℓ)) : Threads μ ℓ := ⟨fun _ => .idle, jobs, fun _ => none⟩

def setControl (th : Threads μ ℓ) (t : Nat) (c : Control μ ℓ) : Threads μ ℓ :=
  { th with control := fun t' => if t' = t then c else th.control t' }

def setJobs (th : Threads μ ℓ) (t : Nat) (jobs : List (Job μ ℓ)) : Threads μ ℓ :=
  { th with jobs := fun t' => if t' = t then jobs else th.jobs t' }

@[simp] theorem setControl_self (th : Threads μ ℓ) (t : Nat) (c : Control μ ℓ) :
    (th.setControl t c).control t = c := if_pos rfl

theorem setControl_of_ne (th : Threads μ ℓ) {t t' : Nat} (h : t' ≠ t) (c : Control μ ℓ) :
    (th.setControl t c).control t' = th.control t' := if_neg h

theorem setControl_eq_self {th : Threads μ ℓ} {t : Nat} {c : Control μ ℓ} (h : th.control t = c) :
    th.setControl t c = th := by
  have hcontrol : (fun t' => if t' = t then c else th.control t') = th.control := by
    funext t'
    split
    · rename_i ht
      rw [ht, h]
    · rfl
  unfold setControl
  rw [hcontrol]

theorem setControl_setControl (th : Threads μ ℓ) (t : Nat) (c c' : Control μ ℓ) :
    (th.setControl t c).setControl t c' = th.setControl t c' := by
  unfold setControl
  congr 1
  funext t'
  dsimp only
  split
  · rfl
  · rfl

theorem setJobs_eq_self {th : Threads μ ℓ} {t : Nat} {jobs : List (Job μ ℓ)}
    (h : th.jobs t = jobs) :
    th.setJobs t jobs = th := by
  have hjobs : (fun t' => if t' = t then jobs else th.jobs t') = th.jobs := by
    funext t'
    split
    · rename_i ht
      rw [ht, h]
    · rfl
  unfold setJobs
  rw [hjobs]

theorem setJobs_setJobs (th : Threads μ ℓ) (t : Nat) (jobs jobs' : List (Job μ ℓ)) :
    (th.setJobs t jobs).setJobs t jobs' = th.setJobs t jobs' := by
  unfold setJobs
  congr 1
  funext t'
  dsimp only
  split
  · rfl
  · rfl

/-- Nobody holds one of the locks. -/
def isFree (th : Threads μ ℓ) (locks : List ℓ) : Bool := locks.all fun l => (th.holder l).isNone

theorem isFree_iff {th : Threads μ ℓ} {locks : List ℓ} :
    th.isFree locks = true ↔ ∀ l ∈ locks, th.holder l = none := by
  simp only [isFree, List.all_eq_true, Option.isNone_iff_eq_none]

/-- A thread in a job is the holder of the locks of the job. -/
def Owned (th : Threads μ ℓ) : Prop := ∀ t, ∀ l ∈ (th.control t).locks, th.holder l = some t

theorem owned_init (jobs : Nat → List (Job μ ℓ)) : (init jobs).Owned := by
  intro t l hin
  cases hin

/-- Two threads do not hold the same lock. -/
theorem Owned.exclusive {th : Threads μ ℓ} (h : th.Owned) {t t' : Nat} {l : ℓ}
    (ht : l ∈ (th.control t).locks) (ht' : l ∈ (th.control t').locks) : t = t' := by
  have hsame := (h t l ht).symm.trans (h t' l ht')
  exact Option.some.inj hsame

def remaining (th : Threads μ ℓ) (t : Nat) : List μ :=
  (th.control t).messages ++ (th.jobs t).flatMap Job.messages

structure FromJobs (jobs : Nat → List (Job μ ℓ)) (th : Threads μ ℓ) : Prop where
  left : ∀ t, ∀ job ∈ th.jobs t, job ∈ jobs t
  current : ∀ t, ∀ m ∈ (th.control t).messages,
    ∃ job ∈ jobs t, job.locks = (th.control t).locks ∧ m ∈ job.messages

theorem fromJobs_init (jobs : Nat → List (Job μ ℓ)) : FromJobs jobs (init jobs) :=
  ⟨fun _ _ h => h, fun _ _ h => (nomatch h)⟩

variable [DecidableEq ℓ]

def setHolder (th : Threads μ ℓ) (locks : List ℓ) (holder : Option Nat) : Threads μ ℓ :=
  { th with holder := fun l => if l ∈ locks then holder else th.holder l }

/-- One action of thread `t`. A job ends behind its last message. -/
def step (th : Threads μ ℓ) (t : Nat) : SendAction → Option (Threads μ ℓ × SendEffect μ)
  | .start =>
      match th.control t, th.jobs t with
      | .idle, job :: jobs =>
          if th.isFree job.locks then
            some (((th.setHolder job.locks (some t)).setJobs t jobs).setControl t
              (.holding job.locks job.messages), .silent)
          else none
      | _, _ => none
  | .build =>
      match th.control t with
      | .holding locks (m :: ms) => some (th.setControl t (.built locks m ms), .build m)
      | _ => none
  | .write =>
      match th.control t with
      | .built locks m ms => some (th.setControl t (.holding locks ms), .write m)
      | _ => none
  | .finish =>
      match th.control t with
      | .holding locks [] => some ((th.setHolder locks none).setControl t .idle, .silent)
      | _ => none

inductive Stepped (th : Threads μ ℓ) (t : Nat) :
    SendAction → Threads μ ℓ → SendEffect μ → Prop where
  | start {job : Job μ ℓ} {jobs : List (Job μ ℓ)} (hcontrol : th.control t = .idle)
      (hjobs : th.jobs t = job :: jobs) (hfree : th.isFree job.locks = true) :
      Stepped th t .start
        (((th.setHolder job.locks (some t)).setJobs t jobs).setControl t
          (.holding job.locks job.messages)) .silent
  | build {locks : List ℓ} {m : μ} {ms : List μ}
    (hcontrol : th.control t = .holding locks (m :: ms)) :
      Stepped th t .build (th.setControl t (.built locks m ms)) (.build m)
  | write {locks : List ℓ} {m : μ} {ms : List μ} (hcontrol : th.control t = .built locks m ms) :
      Stepped th t .write (th.setControl t (.holding locks ms)) (.write m)
  | finish {locks : List ℓ} (hcontrol : th.control t = .holding locks []) :
      Stepped th t .finish ((th.setHolder locks none).setControl t .idle) .silent

theorem step_iff {th th' : Threads μ ℓ} {t : Nat} {a : SendAction} {e : SendEffect μ} :
    th.step t a = some (th', e) ↔ Stepped th t a th' e := by
  constructor
  · intro h
    cases a with
    | start =>
        simp only [step] at h
        split at h
        · rename_i job jobs hcontrol hjobs
          split at h
          · rename_i hfree
            cases h
            exact .start hcontrol hjobs hfree
          · cases h
        · cases h
    | build =>
        simp only [step] at h
        split at h
        · rename_i hcontrol
          cases h
          exact .build hcontrol
        · cases h
    | write =>
        simp only [step] at h
        split at h
        · rename_i hcontrol
          cases h
          exact .write hcontrol
        · cases h
    | finish =>
        simp only [step] at h
        split at h
        · rename_i hcontrol
          cases h
          exact .finish hcontrol
        · cases h
  · intro h
    cases h with
    | start hcontrol hjobs hfree =>
        simp only [step, hcontrol, hjobs, if_pos hfree]
    | build hcontrol =>
        simp only [step, hcontrol]
    | write hcontrol =>
        simp only [step, hcontrol]
    | finish hcontrol =>
        simp only [step, hcontrol]

theorem Stepped.control_of_ne {th th' : Threads μ ℓ} {t : Nat} {a : SendAction} {e : SendEffect μ}
    (h : Stepped th t a th' e) {t' : Nat} (hne : t' ≠ t) : th'.control t' = th.control t' := by
  cases h with
  | start _ _ _ => exact setControl_of_ne _ hne _
  | build _ => exact setControl_of_ne _ hne _
  | write _ => exact setControl_of_ne _ hne _
  | finish _ => exact setControl_of_ne _ hne _

theorem Stepped.jobs_of_ne {th th' : Threads μ ℓ} {t : Nat} {a : SendAction} {e : SendEffect μ}
    (h : Stepped th t a th' e) {t' : Nat} (hne : t' ≠ t) : th'.jobs t' = th.jobs t' := by
  cases h with
  | start _ _ _ => exact if_neg hne
  | build _ => rfl
  | write _ => rfl
  | finish _ => rfl

/-! ## Locks -/

theorem Stepped.owned {th th' : Threads μ ℓ} {t : Nat} {a : SendAction} {e : SendEffect μ}
    (h : Stepped th t a th' e) (howned : th.Owned) : th'.Owned := by
  intro t' l hin
  by_cases ht : t' = t
  · subst ht
    cases h with
    | start hcontrol hjobs hfree =>
        rw [setControl_self] at hin
        exact if_pos hin
    | build hcontrol =>
        rw [setControl_self] at hin
        exact howned t' l (by rw [hcontrol]; exact hin)
    | write hcontrol =>
        rw [setControl_self] at hin
        exact howned t' l (by rw [hcontrol]; exact hin)
    | finish hcontrol =>
        rw [setControl_self] at hin
        cases hin
  · rw [h.control_of_ne ht] at hin
    have hholder := howned t' l hin
    cases h with
    | start hcontrol hjobs hfree =>
        rename_i job jobs
        have hother : l ∉ job.locks := by
          intro hlock
          have hnone := isFree_iff.mp hfree l hlock
          rw [hholder] at hnone
          cases hnone
        exact (if_neg hother).trans hholder
    | build hcontrol => exact hholder
    | write hcontrol => exact hholder
    | finish hcontrol =>
        rename_i locks
        have hother : l ∉ locks := by
          intro hlock
          have hself : l ∈ (th.control t).locks := by
            rw [hcontrol]
            exact hlock
          exact ht (howned.exclusive hin hself)
        exact (if_neg hother).trans hholder

/-! ## The messages of a thread -/

theorem Stepped.remaining_self {th th' : Threads μ ℓ} {t : Nat} {a : SendAction} {e : SendEffect μ}
    (h : Stepped th t a th' e) : th.remaining t = e.written ++ th'.remaining t := by
  cases h with
  | start hcontrol hjobs hfree => simp [remaining, hcontrol, hjobs, Control.messages,
      SendEffect.written, setControl, setJobs]
  | build hcontrol => simp [remaining, hcontrol, Control.messages, SendEffect.written, setControl]
  | write hcontrol => simp [remaining, hcontrol, Control.messages, SendEffect.written, setControl]
  | finish hcontrol => simp [remaining, hcontrol, Control.messages, SendEffect.written, setControl,
      setHolder]

theorem Stepped.remaining_of_ne {th th' : Threads μ ℓ} {t : Nat} {a : SendAction} {e : SendEffect μ}
    (h : Stepped th t a th' e) {t' : Nat} (hne : t' ≠ t) : th'.remaining t' = th.remaining t' := by
  rw [remaining, h.control_of_ne hne, h.jobs_of_ne hne]
  rfl

theorem Stepped.fromJobs {jobs₀ : Nat → List (Job μ ℓ)} {th th' : Threads μ ℓ} {t : Nat}
    {a : SendAction} {e : SendEffect μ} (h : Stepped th t a th' e) (hjobs₀ : FromJobs jobs₀ th) :
    FromJobs jobs₀ th' := by
  constructor
  · intro t' job hjob
    by_cases ht : t' = t
    · subst ht
      cases h with
      | start hcontrol hjobs hfree =>
          have hmem : job ∈ th.jobs t' := by
            rw [hjobs]
            exact List.mem_cons_of_mem _ (by simpa [setControl, setJobs] using hjob)
          exact hjobs₀.left t' job hmem
      | build hcontrol => exact hjobs₀.left t' job hjob
      | write hcontrol => exact hjobs₀.left t' job hjob
      | finish hcontrol => exact hjobs₀.left t' job hjob
    · rw [h.jobs_of_ne ht] at hjob
      exact hjobs₀.left t' job hjob
  · intro t' m hm
    by_cases ht : t' = t
    · subst ht
      cases h with
      | start hcontrol hjobs hfree =>
          rename_i job jobs
          rw [setControl_self] at hm ⊢
          have hmem : job ∈ th.jobs t' := by
            rw [hjobs]
            exact List.mem_cons_self
          exact ⟨job, hjobs₀.left t' job hmem, rfl, hm⟩
      | build hcontrol =>
          rw [setControl_self] at hm ⊢
          have hold := hjobs₀.current t' m (by rw [hcontrol]; exact hm)
          rwa [hcontrol] at hold
      | write hcontrol =>
          rw [setControl_self] at hm ⊢
          have hold := hjobs₀.current t' m (by rw [hcontrol]; exact List.mem_cons_of_mem _ hm)
          rwa [hcontrol] at hold
      | finish hcontrol =>
          rw [setControl_self] at hm
          cases hm
    · rw [h.control_of_ne ht] at hm ⊢
      exact hjobs₀.current t' m hm

end Threads

end Foundation
