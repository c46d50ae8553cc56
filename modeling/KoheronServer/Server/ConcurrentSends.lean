import KoheronServer.Foundation.SharedBuffer
import KoheronServer.Session.Send

/-!
# Concurrent sends to one session

`Session::send` builds a message in `send_buffer`, a member of the session, and then
writes what stands there. The threads that send to a session are its own, which
answers commands, and those of other sessions, whose commands and log lines are
emitted to it. Which mutexes a thread holds depends on where it is, and none belongs
to the session.
-/

namespace KoheronServer.Server

open Foundation Wire KoheronServer.Session

inductive Mutex where
  | ksMutex
  | device (dev : Nat)
  | deviceManager
  | sessionManager
  deriving DecidableEq, Repr

/-- A message whose scalars fit the serializer. -/
structure Message where
  call : Call
  fits : RunsFit scalarPackLen call.args

/-- Where a thread is when it sends to the session: in `KServer::execute`, with an answer or the
events of `PUBSUB_PING`, in `KDevice<dev>::execute`, with an answer or a notification, in
`DeviceManager::alloc_device`, which `DeviceManager::execute` calls or an operation of a device, in
a method of `SessionManager`, with log lines, or outside of them, with log lines. -/
inductive Activity where
  | kserver (messages : List Message)
  | device (dev : Nat) (messages : List Message)
  | allocDevice (caller : Option Nat) (messages : List Message)
  | sessionManager (messages : List Message)
  | outside (messages : List Message)

namespace Activity

def messages : Activity → List Message
  | kserver messages => messages
  | device _ messages => messages
  | allocDevice _ messages => messages
  | sessionManager messages => messages
  | outside messages => messages

def mutexes : Activity → List Mutex
  | kserver _ => [.ksMutex]
  | device dev _ => [.device dev]
  | allocDevice none _ => [.deviceManager]
  | allocDevice (some dev) _ => [.device dev, .deviceManager]
  | sessionManager _ => [.sessionManager]
  | outside _ => []

def job (a : Activity) : Job Message Mutex := ⟨a.mutexes, a.messages⟩

end Activity

/-! ## The two steps of `send` -/

/-- A session to which threads send, with what its client has received. -/
structure SendState where
  sender : Sender
  received : List Bytes
  threads : Threads Message Mutex

namespace SendState

def init (sender : Sender) (activities : Nat → List Activity) : SendState :=
  ⟨sender, [], .init fun t => (activities t).map Activity.job⟩

/-- `dyn_ser.build_command<class_id, func_id>(send_buffer, args...)`. -/
def build (s : SendState) (m : Message) (threads : Threads Message Mutex) : Option SendState :=
  match s.sender.dynSer.buildCommand scalarPackLen m.call.device m.call.operation s.sender.sendBuffer
      m.call.args with
  | none => none
  | some (dynSer, sendBuffer) => some ⟨⟨s.sender.status, sendBuffer, dynSer⟩, s.received, threads⟩

/-- `write(send_buffer.data(), send_buffer.size())`, which the connection takes as a whole. -/
def write (s : SendState) (threads : Threads Message Mutex) : SendState :=
  ⟨s.sender, s.received ++ [s.sender.sendBuffer], threads⟩

def step (s : SendState) (a : Nat × SendAction) : Option SendState :=
  match s.threads.step a.1 a.2 with
  | none => none
  | some (threads, .silent) => some { s with threads := threads }
  | some (threads, .build m) => s.build m threads
  | some (threads, .write _) => some (s.write threads)

/-- The client has received each message once and as it was sent: the blocks are those of the
sends that have returned, and every thread has sent its messages from the first one on. -/
structure EachOnce (activities : Nat → List Activity) (past : List (SendState × (Nat × SendAction)))
    (s : SendState) : Prop where
  received : s.received = (writes SendState.threads past).map fun x => message x.2.call
  once : ∀ t, ((writes SendState.threads past).filter fun x => x.1 = t).map Prod.snd ++
    s.threads.remaining t = (activities t).flatMap Activity.messages

/-! ## As a shared buffer -/

/-- What a message is in `send_buffer`. -/
def content (m : Message) : Bytes := message m.call

def shared (s : SendState) : SharedBuffer Message Bytes Mutex :=
    ⟨s.sender.sendBuffer, s.received, s.threads⟩

theorem build_eq (s : SendState) (m : Message) (threads : Threads Message Mutex) :
    ∃ s', s.build m threads = some s' ∧ s'.shared = ⟨content m, s.received, threads⟩ := by
  obtain ⟨dynSer, hbuild⟩ := DynamicSerializer.buildCommand_eq m.fits m.call.device m.call.operation
    s.sender.dynSer s.sender.sendBuffer
  refine ⟨⟨⟨s.sender.status, message m.call, dynSer⟩, s.received, threads⟩, ?_, rfl⟩
  unfold build
  rw [hbuild]
  rfl

/-- A step of the server is one on the shared buffer, and the other way round. -/
theorem step_shared {s : SendState} {a : Nat × SendAction} {b : SharedBuffer Message Bytes Mutex} :
    SharedBuffer.step content s.shared a = some b ↔ ∃ s', s.step a = some s' ∧ s'.shared = b := by
  have hthreads : s.shared.threads = s.threads := rfl
  unfold SharedBuffer.step step
  rw [hthreads]
  cases s.threads.step a.1 a.2 with
  | none => simp
  | some result =>
      obtain ⟨threads, e⟩ := result
      cases e with
      | silent => simp [SharedBuffer.apply, shared]
      | build m =>
          obtain ⟨s', hbuild, hshared⟩ := s.build_eq m threads
          have happly : s.shared.apply content threads (.build m) = s'.shared := hshared.symm
          simp [happly, hbuild]
      | write m => simp [SharedBuffer.apply, shared, write]

theorem writes_shared (past : List (SendState × (Nat × SendAction))) :
    writes SharedBuffer.threads (past.map (Prod.map shared id)) =
    writes SendState.threads past := by
  induction past with
  | nil => rfl
  | cons x past ih =>
      obtain ⟨s, a⟩ := x
      simp only [List.map_cons, Prod.map_apply, id_eq, writes, ih]
      rfl

theorem jobs_messages (activities : List Activity) :
    (activities.map Activity.job).flatMap Job.messages = activities.flatMap Activity.messages := by
  rw [List.flatMap_map]
  rfl

theorem unmixed_shared (activities : Nat → List Activity)
    (past : List (SendState × (Nat × SendAction)))
    (s : SendState) :
    SharedBuffer.Unmixed content (fun t => (activities t).map Activity.job)
      (past.map (Prod.map shared id)) s.shared ↔ EachOnce activities past s := by
  constructor
  · intro h
    have hreceived := h.delivered
    have honce := h.once
    simp only [writes_shared, jobs_messages] at hreceived honce
    exact ⟨hreceived, honce⟩
  · intro h
    constructor
    · rw [writes_shared]
      exact h.received
    · simp only [writes_shared, jobs_messages]
      exact h.once

/-- The client of a session receives each message once and unaltered, in every interleaving that
the mutexes allow, exactly when any two messages that different threads send to it are equal or
are sent under a common mutex. -/
theorem eachOnce_iff (sender : Sender) (activities : Nat → List Activity) :
    (∀ past s, Run (fun s a s' => step s a = some s') (init sender activities) past s →
        EachOnce activities past s) ↔
      ∀ t t', t ≠ t' → ∀ x ∈ activities t, ∀ y ∈ activities t', ∀ m ∈ x.messages, ∀ m' ∈ y.messages,
        message m.call = message m'.call ∨ ∃ mutex, mutex ∈ x.mutexes ∧ mutex ∈ y.mutexes := by
  have hcompatible : SharedBuffer.Compatible content (fun t => (activities t).map Activity.job) ↔
      ∀ t t', t ≠ t' → ∀ x ∈ activities t, ∀ y ∈ activities t', ∀ m ∈ x.messages, ∀ m' ∈ y.messages,
        message m.call = message m'.call ∨ ∃ mutex, mutex ∈ x.mutexes ∧ mutex ∈ y.mutexes := by
    simp only [SharedBuffer.Compatible, List.forall_mem_map]
    rfl
  rw [← hcompatible, ← SharedBuffer.unmixed_iff content sender.sendBuffer]
  constructor
  · intro hall past b hrun
    have hrun : Run (fun s a s' => SharedBuffer.step content s a = some s')
        (init sender activities).shared past b := hrun
    obtain ⟨past', s, hrun', rfl, rfl⟩ := hrun.lift shared fun h => step_shared.mp h
    exact (unmixed_shared activities past' s).mpr (hall past' s hrun')
  · intro hall past s hrun
    have hrun' : Run (fun s a s' => SharedBuffer.step content s a = some s')
        (init sender activities).shared (past.map (Prod.map shared id)) s.shared :=
      hrun.map shared fun h => step_shared.mpr ⟨_, h, rfl⟩
    exact (unmixed_shared activities past s).mp (hall _ _ hrun')

/-! ## A reply that a ping overwrites -/

def reply : Message := ⟨⟨2, 0, [.string [72, 105]]⟩, runsFit_string _⟩

def ping : Message := ⟨⟨0, 1, [.string [80, 105, 110, 103]]⟩, runsFit_string _⟩

/-- The session's own thread answers, and that of another session executes `PUBSUB_PING`. -/
def replyAndPing : Nat → List Activity
  | 0 => [.device 2 [reply]]
  | 1 => [.kserver [ping]]
  | _ => []

/-- The reply is built before the ping and written behind it. -/
def overtaken : List (Nat × SendAction) :=
  [(0, .start), (0, .build), (1, .start), (1, .build), (1, .write), (0, .write)]

/-- The client receives the ping twice and never the reply. -/
theorem reply_lost :
    ∃ past s, Run (fun s a s' => step s a = some s') (init .start replyAndPing) past s ∧
      writes SendState.threads past = [(1, ping), (0, reply)] ∧
      s.received = [message ping.call, message ping.call] ∧ ¬EachOnce replyAndPing past s := by
  have hrun := Run.of_follow step (init .start replyAndPing) overtaken rfl
  refine ⟨_, _, hrun, rfl, rfl, ?_⟩
  intro heach
  have hlast := congrArg List.getLast? heach.received
  revert hlast
  decide

end SendState

end KoheronServer.Server
