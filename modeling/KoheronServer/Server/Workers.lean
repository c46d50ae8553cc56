import KoheronServer.Foundation.Runs
import KoheronServer.Server.SessionManager
import Mathlib.Data.List.Count

/-!
# Workers of a listener

The accepting thread of a listener, `comm_thread_call`, and the session threads
that it detaches. `is_max_threads` reads the counter that a session thread
increments when it starts to run, so the configured limit holds in the runs where
every detached thread has started by the next test.
-/

namespace KoheronServer.Server

open Foundation

/-- The limits of `KServerConfig`, which are of type `unsigned int`. -/
structure WorkerConnections where
  tcp : BitVec 32
  websock : BitVec 32
  unixsock : BitVec 32

def WorkerConnections.get (config : WorkerConnections) : SockType → BitVec 32
  | .tcp => config.tcp
  | .websock => config.websock
  | .unix => config.unixsock

/-- Where `comm_thread_call` is: at the head of its loop, in `open_communication`, behind it, at
`is_max_threads`, in front of the thread that it starts, or at its end. -/
inductive CommThread where
  | loop
  | opening
  | opened (commFd : Int)
  | testing
  | spawning
  | closed
  deriving DecidableEq, Repr

/-- Where `session_thread_call` is: in front of `inc_thread_num`, of `run`, of `dec_thread_num`, or
behind it. -/
inductive SessionThread where
  | spawned
  | counted
  | ran
  | ended
  deriving DecidableEq, Repr

structure Listener where
  workerConnections : BitVec 32
  numThreads : BitVec 32
  exitComm : Bool
  comm : CommThread
  sessions : List SessionThread

namespace Listener

def init (config : WorkerConnections) (kind : SockType) : Listener :=
  ⟨config.get kind, 0, false, .loop, []⟩

/-- `is_max_threads`: both sides are of type `int`. -/
def isMaxThreads (s : Listener) : Bool :=
  decide ((s.numThreads + 1).toInt > s.workerConnections.toInt)

inductive Action where
  | exitComm
  | checkExit
  | openCommunication (commFd : Int)
  | checkOpened
  | isMaxThreads
  | spawn
  | incThreadNum (thread : Nat)
  | run (thread : Nat)
  | decThreadNum (thread : Nat)
  deriving DecidableEq, Repr

def step (s : Listener) : Action → Option Listener
  | .exitComm => some { s with exitComm := true }
  | .checkExit =>
      match s.comm with
      | .loop => some { s with comm := if s.exitComm then .closed else .opening }
      | _ => none
  | .openCommunication commFd =>
      match s.comm with
      | .opening => some { s with comm := .opened commFd }
      | _ => none
  | .checkOpened =>
      match s.comm with
      | .opened commFd =>
          some { s with comm := if s.exitComm then .closed else if commFd < 0 then .loop else .testing }
      | _ => none
  | .isMaxThreads =>
      match s.comm with
      | .testing => some { s with comm := if s.isMaxThreads then .loop else .spawning }
      | _ => none
  | .spawn =>
      match s.comm with
      | .spawning => some { s with comm := .loop, sessions := s.sessions ++ [.spawned] }
      | _ => none
  | .incThreadNum thread =>
      match s.sessions[thread]? with
      | some .spawned =>
          some { s with numThreads := s.numThreads + 1, sessions := s.sessions.set thread .counted }
      | _ => none
  | .run thread =>
      match s.sessions[thread]? with
      | some .counted => some { s with sessions := s.sessions.set thread .ran }
      | _ => none
  | .decThreadNum thread =>
      match s.sessions[thread]? with
      | some .ran =>
          some { s with numThreads := s.numThreads - 1, sessions := s.sessions.set thread .ended }
      | _ => none

/-- The threads that have not executed `dec_thread_num`. -/
def live (s : Listener) : Nat := s.sessions.countP fun thread => thread ≠ .ended

/-- The threads that stand between `inc_thread_num` and `dec_thread_num`. -/
def counted (s : Listener) : Nat :=
  s.sessions.countP fun thread => thread = .counted || thread = .ran

/-- Every detached thread has executed `inc_thread_num`, and the sum of the test is an `int`. -/
def Settled (s : Listener) : Prop :=
  .spawned ∉ s.sessions ∧ s.numThreads.toInt + 1 < 2 ^ 31

instance (s : Listener) : Decidable s.Settled :=
  inferInstanceAs (Decidable (_ ∧ _))

abbrev Taken (s : Listener) (a : Action) (s' : Listener) : Prop := s.step a = some s'

/-! ## What a step does -/

structure Waits (s s' : Listener) : Prop where
  workerConnections : s'.workerConnections = s.workerConnections
  numThreads : s'.numThreads = s.numThreads
  sessions : s'.sessions = s.sessions

structure Moves (s s' : Listener) (before after : SessionThread) (change : BitVec 32) : Prop where
  workerConnections : s'.workerConnections = s.workerConnections
  comm : s'.comm = s.comm
  numThreads : s'.numThreads = s.numThreads + change
  sessions : ∃ thread, s.sessions[thread]? = some before ∧ s'.sessions = s.sessions.set thread after

/-- A step waits, tests, detaches a thread or moves one. -/
theorem step_cases {s s' : Listener} {a : Action} (h : s.step a = some s') :
    (s.Waits s' ∧ (s'.comm = .spawning → s.comm = .spawning)) ∨
    (s.Waits s' ∧ a = .isMaxThreads ∧ (s'.comm = .spawning → s.isMaxThreads = false)) ∨
    (s.comm = .spawning ∧ s' = { s with comm := .loop, sessions := s.sessions ++ [.spawned] }) ∨
    s.Moves s' .spawned .counted 1 ∨ s.Moves s' .counted .ran 0 ∨ s.Moves s' .ran .ended (-1) := by
  cases a with
  | exitComm =>
      cases h
      exact .inl ⟨⟨rfl, rfl, rfl⟩, id⟩
  | checkExit =>
      unfold step at h
      cases hcomm : s.comm <;> simp only [hcomm, reduceCtorEq] at h
      cases h
      refine .inl ⟨⟨rfl, rfl, rfl⟩, ?_⟩
      cases s.exitComm <;> simp
  | openCommunication commFd =>
      unfold step at h
      cases hcomm : s.comm <;> simp only [hcomm, reduceCtorEq] at h
      cases h
      exact .inl ⟨⟨rfl, rfl, rfl⟩, by simp⟩
  | checkOpened =>
      unfold step at h
      cases hcomm : s.comm <;> simp only [hcomm, reduceCtorEq] at h
      cases h
      refine .inl ⟨⟨rfl, rfl, rfl⟩, ?_⟩
      intro hspawning
      dsimp only at hspawning
      split at hspawning
      · cases hspawning
      · split at hspawning <;> cases hspawning
  | isMaxThreads =>
      unfold step at h
      cases hcomm : s.comm <;> simp only [hcomm, reduceCtorEq] at h
      cases h
      refine .inr (.inl ⟨⟨rfl, rfl, rfl⟩, rfl, ?_⟩)
      cases s.isMaxThreads <;> simp
  | spawn =>
      unfold step at h
      cases hcomm : s.comm <;> simp only [hcomm, reduceCtorEq] at h
      cases h
      exact .inr (.inr (.inl ⟨hcomm ▸ rfl, rfl⟩))
  | incThreadNum thread =>
      unfold step at h
      cases hthread : s.sessions[thread]? with
      | none => simp [hthread] at h
      | some before =>
          cases before <;> simp only [hthread, reduceCtorEq] at h
          cases h
          exact .inr (.inr (.inr (.inl ⟨rfl, rfl, rfl, thread, hthread, rfl⟩)))
  | run thread =>
      unfold step at h
      cases hthread : s.sessions[thread]? with
      | none => simp [hthread] at h
      | some before =>
          cases before <;> simp only [hthread, reduceCtorEq] at h
          cases h
          exact .inr (.inr (.inr (.inr (.inl ⟨rfl, rfl, by simp, thread, hthread, rfl⟩))))
  | decThreadNum thread =>
      unfold step at h
      cases hthread : s.sessions[thread]? with
      | none => simp [hthread] at h
      | some before =>
          cases before <;> simp only [hthread, reduceCtorEq] at h
          cases h
          exact .inr (.inr (.inr (.inr (.inr ⟨rfl, rfl, BitVec.sub_eq_add_neg .., thread, hthread, rfl⟩))))

theorem Moves.countP_eq {s s' : Listener} {before after : SessionThread} {change : BitVec 32}
    (h : s.Moves s' before after change) (p : SessionThread → Bool) :
    s'.sessions.countP p + (if p before then 1 else 0) =
      s.sessions.countP p + (if p after then 1 else 0) := by
  rcases h.sessions with ⟨thread, hbefore, hsessions⟩
  obtain ⟨hlt, hget⟩ := List.getElem?_eq_some_iff.mp hbefore
  have hle : (if p s.sessions[thread] then 1 else 0) ≤ s.sessions.countP p :=
    List.boole_getElem_le_countP hlt
  rw [hsessions, List.countP_set hlt, hget]
  rw [hget] at hle
  omega

def Counts (s : Listener) : Prop := s.numThreads = BitVec.ofNat 32 s.counted

theorem Moves.counts {s s' : Listener} {before after : SessionThread} {change : BitVec 32}
    (h : s.Moves s' before after change)
    (hchange : BitVec.ofNat 32 (if before = .counted || before = .ran then 1 else 0) + change =
      BitVec.ofNat 32 (if after = .counted || after = .ran then 1 else 0))
    (hcounts : s.Counts) : s'.Counts := by
  have hcount := h.countP_eq fun thread => thread = .counted || thread = .ran
  have hsum := congrArg (BitVec.ofNat 32) hcount
  have hcancel : ∀ m n b : BitVec 32, m + b = n + (b + change) → m = n + change := by
    intro m n b heq
    rw [BitVec.add_comm b, ← BitVec.add_assoc, BitVec.add_left_inj] at heq
    exact heq
  rw [BitVec.ofNat_add, BitVec.ofNat_add, ← hchange] at hsum
  rw [Counts, h.numThreads, hcounts]
  exact (hcancel _ _ _ hsum).symm

theorem step_counts {s s' : Listener} {a : Action} (hcounts : s.Counts) (h : s.Taken a s') :
    s'.Counts := by
  rcases step_cases h with ⟨hwaits, -⟩ | ⟨hwaits, -⟩ | ⟨-, rfl⟩ | hmoves | hmoves | hmoves
  · rw [Counts, counted, hwaits.numThreads, hwaits.sessions]
    exact hcounts
  · rw [Counts, counted, hwaits.numThreads, hwaits.sessions]
    exact hcounts
  · simpa [Counts, counted] using hcounts
  · exact hmoves.counts rfl hcounts
  · exact hmoves.counts rfl hcounts
  · exact hmoves.counts rfl hcounts

/-- `num_threads` counts the threads between `inc_thread_num` and `dec_thread_num`. -/
theorem run_counts {config : WorkerConnections} {kind : SockType} {past : List (Listener × Action)}
    {s : Listener} (h : Run Taken (init config kind) past s) : s.Counts :=
  Run.invariant (P := Counts) (show Counts (init config kind) from rfl) step_counts h

/-! ## The limit -/

/-- The session threads, and the one that is about to be detached, are within the limit. -/
structure Within (s : Listener) : Prop where
  live : s.live ≤ s.workerConnections.toInt.toNat
  spawning : s.comm = .spawning → s.live < s.workerConnections.toInt.toNat

theorem Moves.within {s s' : Listener} {before after : SessionThread} {change : BitVec 32}
    (h : s.Moves s' before after change) (hbefore : before ≠ .ended) (hwithin : s.Within) :
    s'.Within := by
  have hcount := h.countP_eq fun thread => thread ≠ .ended
  have hle : s'.live ≤ s.live := by
    simp only [hbefore, ne_eq, not_false_eq_true, decide_true, if_true] at hcount
    unfold live
    simp only [ne_eq]
    split at hcount <;> omega
  constructor
  · rw [h.workerConnections]
    exact Nat.le_trans hle hwithin.live
  · intro hcomm
    rw [h.workerConnections]
    rw [h.comm] at hcomm
    exact Nat.lt_of_le_of_lt hle (hwithin.spawning hcomm)

theorem Settled.live_eq {s : Listener} (h : s.Settled) : s.live = s.counted := by
  apply List.countP_congr
  intro thread hmem
  cases thread with
  | spawned => exact absurd hmem h.1
  | counted | ran | ended => simp

theorem toInt_ofNat {n : Nat} (h : n < 2 ^ 31) : (BitVec.ofNat 32 n).toInt = n := by
  rw [BitVec.toInt_eq_toNat_of_lt] <;> rw [BitVec.toNat_ofNat] <;> omega

theorem Settled.room {s : Listener} (h : s.Settled) (hcounts : s.Counts)
    (hlive : s.live ≤ s.workerConnections.toInt.toNat) (htest : s.isMaxThreads = false) :
    s.live < s.workerConnections.toInt.toNat := by
  have hbound : s.workerConnections.toInt < 2 ^ 31 := BitVec.toInt_lt
  have hnum : s.numThreads = BitVec.ofNat 32 s.live := by rw [hcounts, h.live_eq]
  have hroom := h.2
  rw [hnum, toInt_ofNat (by omega)] at hroom
  have hsum : (s.numThreads + 1).toInt = s.live + 1 := by
    rw [hnum, show (1 : BitVec 32) = BitVec.ofNat 32 1 from rfl, ← BitVec.ofNat_add]
    exact toInt_ofNat (by omega)
  simp only [isMaxThreads, decide_eq_false_iff_not, hsum] at htest
  omega

theorem step_within {s s' : Listener} {a : Action} (hcounts : s.Counts) (hwithin : s.Within)
    (hsettled : a = .isMaxThreads → s.Settled) (h : s.Taken a s') : s'.Within := by
  rcases step_cases h with ⟨hwaits, hspawning⟩ | ⟨hwaits, htest, hpassed⟩ |
    ⟨hspawning, rfl⟩ | hmoves |
    hmoves | hmoves
  · constructor
    · rw [live, hwaits.sessions, hwaits.workerConnections]
      exact hwithin.live
    · intro hcomm
      rw [live, hwaits.sessions, hwaits.workerConnections]
      exact hwithin.spawning (hspawning hcomm)
  · constructor
    · rw [live, hwaits.sessions, hwaits.workerConnections]
      exact hwithin.live
    · intro hcomm
      rw [live, hwaits.sessions, hwaits.workerConnections]
      exact (hsettled htest).room hcounts hwithin.live (hpassed hcomm)
  · have hroom := hwithin.spawning hspawning
    constructor
    · simp only [live, List.countP_append] at hroom ⊢
      exact hroom
    · simp
  · exact hmoves.within (by decide) hwithin
  · exact hmoves.within (by decide) hwithin
  · exact hmoves.within (by decide) hwithin

theorem step_workerConnections {s s' : Listener} {a : Action} (h : s.Taken a s') :
    s'.workerConnections = s.workerConnections := by
  rcases step_cases h with ⟨hwaits, -⟩ | ⟨hwaits, -⟩ | ⟨-, rfl⟩ | hmoves | hmoves | hmoves
  · exact hwaits.workerConnections
  · exact hwaits.workerConnections
  · rfl
  · exact hmoves.workerConnections
  · exact hmoves.workerConnections
  · exact hmoves.workerConnections

theorem run_within {config : WorkerConnections} {kind : SockType} {past : List (Listener × Action)}
    {s : Listener} (h : Run Taken (init config kind) past s)
    (hsettled : ∀ p ∈ past, p.2 = .isMaxThreads → p.1.Settled) :
    s.Within := by
  induction h with
  | start =>
      constructor
      · exact Nat.zero_le _
      · simp [init]
  | next run taken ih =>
      have hwithin := ih fun p hmem => hsettled p (List.mem_cons_of_mem _ hmem)
      exact step_within (run_counts run) hwithin (hsettled _ List.mem_cons_self) taken

/-- The limit holds in every run whose tests all find the detached threads started. -/
theorem run_within_limit (config : WorkerConnections) (kind : SockType)
    {past : List (Listener × Action)} {s : Listener} (h : Run Taken (init config kind) past s)
    (hsettled : ∀ p ∈ past, p.2 = .isMaxThreads → p.1.Settled) :
    s.live ≤ (config.get kind).toNat := by
  have hlimit : s.workerConnections = config.get kind :=
    Run.invariant (P := fun s => s.workerConnections = config.get kind) rfl
      (fun hlimit htaken => (step_workerConnections htaken).trans hlimit) h
  have hlive := (run_within h hsettled).live
  have hle : (config.get kind).toInt ≤ (config.get kind).toNat := by
    rw [BitVec.toInt_eq_toNat_cond]
    split <;> omega
  rw [hlimit] at hlive
  omega

def accepted (commFd : Int) : List Action :=
  [.checkExit, .openCommunication commFd, .checkOpened, .isMaxThreads, .spawn]

/-- Two clients with a limit of two, the second one behind the start of the first thread. -/
theorem run_within_limit_two :
    ∃ past s, Run Taken (init ⟨2, 0, 0⟩ .tcp) past s ∧ s.live = 2 ∧
      s.live ≤ ((⟨2, 0, 0⟩ : WorkerConnections).get .tcp).toNat := by
  have hrun := Run.of_follow step (init ⟨2, 0, 0⟩ .tcp)
    (accepted 3 ++ [.incThreadNum 0] ++ accepted 4) rfl
  exact ⟨_, _, hrun, rfl, run_within_limit ⟨2, 0, 0⟩ .tcp hrun (by decide)⟩

/-- Two clients with a limit of one, the second one in front of the start of the first thread. -/
theorem run_exceeds_limit :
    ∃ past s, Run Taken (init ⟨1, 0, 0⟩ .tcp) past s ∧
      ¬s.live ≤ ((⟨1, 0, 0⟩ : WorkerConnections).get .tcp).toNat := by
  have hrun := Run.of_follow step (init ⟨1, 0, 0⟩ .tcp) (accepted 3 ++ accepted 4) rfl
  exact ⟨_, _, hrun, by decide⟩

end Listener

end KoheronServer.Server
