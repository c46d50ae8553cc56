import KoheronServer.Foundation.Runs
import KoheronServer.Session.Send
import KoheronServer.Session.TcpWrite
import Mathlib.Data.List.Sublists

/-!
# The outgoing stream of a TCP session

What goes on around `Session::send` in `Session::run` while a session is open:
operations that send and go on with what `send` returns, and the emits of other
threads. A write that fails is reported and counted, and does not keep anyone
from sending again.
-/

namespace KoheronServer.Session.Tcp

open Foundation Wire

/-- What an operation sends, and how it goes on with the result of a `send`. -/
inductive Exchange where
  | returns (ret : Int)
  | sends (call : Call) (next : Int → Exchange)

inductive Phase where
  | reading
  | executing (op : Exchange)
  | ended

structure SessionState where
  sender : Sender
  writes : List (Write Byte)
  phase : Phase
  requestsNum : Nat
  errorsNum : Nat

def SessionState.start : SessionState := ⟨.start, [], .reading, 0, 0⟩

/-- `send`, when `write` returns `result`. -/
def SessionState.send (s : SessionState) (call : Call) (result : WriteResult) :
    Option (Int × SessionState) :=
  match s.sender.send call fun message => (write message.length result).ret with
  | none => none
  | some (ret, sender) =>
      some (ret,
        { s with sender := sender, writes := s.writes ++ [⟨sender.sendBuffer, result.bytes⟩] })

/-- The end of a turn of the loop in `run`: a command that fails is counted, and a session
that is closed leaves the loop. -/
def SessionState.executed (s : SessionState) (ret : Int) : SessionState where
  sender := s.sender
  writes := s.writes
  phase := if s.sender.status = .closed then .ended else .reading
  requestsNum := s.requestsNum
  errorsNum := if ret < 0 then s.errorsNum + 1 else s.errorsNum

inductive Event where
  /-- `read_command` returns a command and its operation starts. -/
  | command (op : Exchange)
  /-- `read_command` returns none, or the server stops. -/
  | stops
  /-- The operation sends. -/
  | sends (result : WriteResult)
  /-- The operation returns. -/
  | returns
  /-- Another thread sends. -/
  | emits (call : Call) (result : WriteResult)

def Step (s : SessionState) (event : Event) (s' : SessionState) : Prop :=
  match event with
  | .command op =>
      s.phase = .reading ∧ s' = { s with phase := .executing op, requestsNum := s.requestsNum + 1 }
  | .stops => s.phase = .reading ∧ s' = { s with phase := .ended }
  | .sends result =>
      ∃ call next ret s₁, s.phase = .executing (.sends call next) ∧
        s.send call result = some (ret, s₁) ∧
        result.Possible (writeCount s₁.sender.sendBuffer.length) ∧
        s' = { s₁ with phase := .executing (next ret) }
  | .returns => ∃ ret, s.phase = .executing (.returns ret) ∧ s' = s.executed ret
  | .emits call result =>
      ∃ ret, s.send call result = some (ret, s') ∧
        result.Possible (writeCount s'.sender.sendBuffer.length)

def Event.sent (s : SessionState) : Event → Option (Call × WriteResult)
  | .sends result =>
      match s.phase with
      | .executing (.sends call _) => some (call, result)
      | _ => none
  | .emits call result => some (call, result)
  | .command _ | .stops | .returns => none

/-- A `write` of the step takes the whole message or nothing of it. -/
def Event.NotCut (s : SessionState) (event : Event) : Prop :=
  ∀ call result, event.sent s = some (call, result) →
    result.bytes = 0 ∨ result.bytes = (message call).length

/-- `send` makes one write, of the message that it has built. -/
theorem SessionState.send_writes {s s' : SessionState} {call : Call} {result : WriteResult}
    {ret : Int} (h : s.send call result = some (ret, s')) :
    s'.writes = s.writes ++ [⟨s'.sender.sendBuffer, result.bytes⟩] := by
  unfold SessionState.send at h
  split at h
  · cases h
  · obtain ⟨-, rfl⟩ := Prod.mk.inj (Option.some.inj h)
    rfl

theorem SessionState.send_message {s s' : SessionState} {call : Call} {result : WriteResult}
    {ret : Int} (h : s.send call result = some (ret, s')) :
    s'.sender.sendBuffer = message call := by
  unfold SessionState.send at h
  split at h
  · cases h
  · rename_i ret' sender hsend
    obtain ⟨dynSer, heq⟩ := s.sender.send_eq (Sender.send_fits hsend)
      fun message => (write message.length result).ret
    rw [heq] at hsend
    obtain ⟨-, rfl⟩ := Prod.mk.inj (Option.some.inj hsend)
    obtain ⟨-, rfl⟩ := Prod.mk.inj (Option.some.inj h)
    rfl

/-- A step leaves the writes as they are, or adds that of the message that it sends. -/
theorem Step.writes {s s' : SessionState} {event : Event} (h : Step s event s') :
    (event.sent s = none ∧ s'.writes = s.writes) ∨
      ∃ call result, event.sent s = some (call, result) ∧ result.bytes ≤ (message call).length ∧
        s'.writes = s.writes ++ [⟨message call, result.bytes⟩] := by
  have hsends : ∀ {call : Call} {result : WriteResult} {ret : Int} {s₁ : SessionState},
      s.send call result = some (ret, s₁) →
      result.Possible (writeCount s₁.sender.sendBuffer.length) →
      result.bytes ≤ (message call).length ∧
        s₁.writes = s.writes ++ [⟨message call, result.bytes⟩] := by
    intro call result ret s₁ hsend hpossible
    have hmessage := SessionState.send_message hsend
    rw [hmessage] at hpossible
    refine ⟨bytes_le hpossible, ?_⟩
    rw [SessionState.send_writes hsend, hmessage]
  cases event with
  | command op =>
      obtain ⟨-, rfl⟩ := h
      exact .inl ⟨rfl, rfl⟩
  | stops =>
      obtain ⟨-, rfl⟩ := h
      exact .inl ⟨rfl, rfl⟩
  | sends result =>
      obtain ⟨call, next, ret, s₁, hphase, hsend, hpossible, rfl⟩ := h
      have hsent : Event.sent s (.sends result) = some (call, result) := by
        simp only [Event.sent, hphase]
      obtain ⟨hle, hwrites⟩ := hsends hsend hpossible
      exact .inr ⟨call, result, hsent, hle, hwrites⟩
  | returns =>
      obtain ⟨ret, -, rfl⟩ := h
      exact .inl ⟨rfl, rfl⟩
  | emits call result =>
      obtain ⟨ret, hsend, hpossible⟩ := h
      obtain ⟨hle, hwrites⟩ := hsends hsend hpossible
      exact .inr ⟨call, result, rfl, hle, hwrites⟩

structure NoneCut (writes : List (Write Byte)) : Prop where
  le : ∀ w ∈ writes, w.accepted ≤ w.message.length
  notShort : ∀ w ∈ writes, ¬w.Short

/-- A step whose write is not cut adds no short write. -/
theorem Step.noneCut {s s' : SessionState} {event : Event} (h : Step s event s')
    (hnot : event.NotCut s) (hwrites : NoneCut s.writes) : NoneCut s'.writes := by
  rcases h.writes with ⟨-, heq⟩ | ⟨call, result, hsent, hle, heq⟩
  · rwa [heq]
  · rw [heq]
    constructor
    · intro w hw
      rcases List.mem_append.mp hw with hold | hnew
      · exact hwrites.le w hold
      · rw [List.mem_singleton.mp hnew]
        exact hle
    · intro w hw
      rcases List.mem_append.mp hw with hold | hnew
      · exact hwrites.notShort w hold
      · rw [List.mem_singleton.mp hnew]
        rintro ⟨hpos, hlt⟩
        rcases hnot call result hsent with hzero | hall
        · exact Nat.ne_of_gt hpos hzero
        · exact Nat.ne_of_lt hlt hall

theorem SessionState.send_eq (s : SessionState) {call : Call}
    (hfit : RunsFit scalarPackLen call.args) (result : WriteResult) :
    ∃ dynSer, s.send call result = some
      ((write (message call).length result).ret,
        { s with
          sender :=
            ⟨if (write (message call).length result).ret = 0 then .closed else s.sender.status,
              message call, dynSer⟩
          writes := s.writes ++ [⟨message call, result.bytes⟩] }) := by
  obtain ⟨dynSer, hsend⟩ :=
    s.sender.send_eq hfit fun message => (write message.length result).ret
  exact ⟨dynSer, by rw [SessionState.send, hsend]⟩

/-- Behind a write that has been cut another thread can send the next message, and the connection
can take it. -/
theorem Step.mixes {s : SessionState} {w : Write Byte} (hw : w ∈ s.writes) (hshort : w.Short) :
    ∃ event s', Step s event s' ∧ ¬Unmixed s'.writes := by
  let call : Call := ⟨1, 0, [.string [97, 98]]⟩
  obtain ⟨dynSer, hsend⟩ := @SessionState.send_eq s call (runsFit_string [97, 98]) (.accepted 14)
  have hpossible : (WriteResult.accepted 14).Possible
    (writeCount (message call).length) := by decide
  refine ⟨.emits call (.accepted 14), _, ⟨_, hsend, hpossible⟩, ?_⟩
  intro hmixed
  have hlast := (List.pairwise_append.mp hmixed).2.2 w hw ⟨message call, 14⟩ List.mem_cons_self
  exact absurd (hlast hshort) (by decide)

/-- When every write takes its message whole or nothing of it, the stream of the session is made of
whole messages in every state of the run. A first write that is cut can be followed by bytes of
another message. -/
theorem stream_framed {past : List (SessionState × Event)} {s : SessionState}
    (h : Foundation.Run (fun s event s' => Step s event s' ∧ event.NotCut s)
      SessionState.start past s) :
    (∀ w ∈ s.writes, w.accepted ≤ w.message.length) ∧ Unmixed s.writes ∧ Framed s.writes ∧
      ∀ event s', Step s event s' → ¬event.NotCut s →
        ∃ event' s'', Step s' event' s'' ∧ ¬Unmixed s''.writes := by
  have hnone : NoneCut s.writes := by
    apply h.invariant (P := fun s => NoneCut s.writes)
    · exact ⟨List.forall_mem_nil _, List.forall_mem_nil _⟩
    · intro s event s' hwrites hstep
      exact hstep.1.noneCut hstep.2 hwrites
  have hunmixed := Unmixed.of_notShort hnone.notShort
  refine ⟨hnone.le, hunmixed, hunmixed.framed, ?_⟩
  intro event s' hstep hcut
  rcases hstep.writes with ⟨hsent, -⟩ | ⟨call, result, hsent, hle, heq⟩
  · refine absurd ?_ hcut
    intro call result hsome
    rw [hsent] at hsome
    cases hsome
  · have hshort : (Write.mk (message call) result.bytes).Short := by
      by_contra hnot
      refine hcut fun call' result' hsome => ?_
      rw [hsent] at hsome
      cases hsome
      simp only [Write.Short] at hnot
      omega
    exact Step.mixes (by rw [heq]; simp) hshort

/-! ## A session that goes on -/

theorem SessionState.executed_phase {s : SessionState} (h : s.sender.status = .opened) (ret : Int) :
    (s.executed ret).phase = .reading := by
  rw [SessionState.executed, h]
  rfl

def getVersion (version : Bytes) : Exchange := .sends ⟨1, 0, [.string version]⟩ .returns

def versionMessage (version : Bytes) : Bytes := message ⟨1, 0, [.string version]⟩

/-- Any write of a version that returns another value than 0 leaves a session that is reading
the next command, also one that has taken a part of the message. -/
theorem getVersion_steps (version : Bytes) (result : WriteResult) {s : SessionState}
    (hphase : s.phase = .reading) (hstatus : s.sender.status = .opened)
    (hpossible : result.Possible (writeCount (versionMessage version).length))
    (hret : (write (versionMessage version).length result).ret ≠ 0) :
    ∃ s₁ s₂ s₃, Step s (.command (getVersion version)) s₁ ∧ Step s₁ (.sends result) s₂ ∧
      Step s₂ .returns s₃ ∧ s₁.phase = .executing (getVersion version) ∧ s₃.phase = .reading ∧
      s₃.sender.status = .opened ∧
      s₃.writes = s.writes ++ [⟨versionMessage version, result.bytes⟩] := by
  obtain ⟨dynSer, hsend⟩ := SessionState.send_eq
    { s with phase := .executing (getVersion version), requestsNum := s.requestsNum + 1 }
    (show RunsFit scalarPackLen (Call.mk 1 0 [.string version]).args from runsFit_string version)
    result
  have hopened : (if (write (versionMessage version).length result).ret = 0 then Status.closed
      else s.sender.status) = .opened := by
    rw [if_neg hret, hstatus]
  exact ⟨_, _, _, ⟨hphase, rfl⟩, ⟨_, _, _, _, rfl, hsend, hpossible, rfl⟩, ⟨_, rfl, rfl⟩, rfl,
    SessionState.executed_phase hopened _, hopened, rfl⟩

/-- A version that is sent whole, and then a second one whose write fails. -/
theorem stream_framed_versions :
    ∃ past s, Foundation.Run (fun s event s' => Step s event s' ∧ event.NotCut s)
        SessionState.start past s ∧
      s.writes.length = 2 ∧ ((∀ w ∈ s.writes, w.accepted ≤ w.message.length) ∧
      Unmixed s.writes ∧ Framed s.writes ∧ ∀ event s', Step s event s' → ¬event.NotCut s →
        ∃ event' s'', Step s' event' s'' ∧ ¬Unmixed s''.writes) := by
  obtain ⟨s₁, s₂, s₃, h₁, h₂, h₃, hop, hphase, hstatus, hwrites⟩ :=
    getVersion_steps [97, 98] (.accepted 14) (s := SessionState.start) rfl rfl
      (by decide) (by decide)
  obtain ⟨t₁, t₂, t₃, h₄, h₅, h₆, hop', -, -, hwrites'⟩ :=
    getVersion_steps [97, 98] .failed hphase hstatus (by decide) (by decide)
  have hquiet : ∀ {event : Event} {s : SessionState}, event.sent s = none → event.NotCut s := by
    intro event s hnone call result hsome
    rw [hnone] at hsome
    cases hsome
  have hwhole : Event.NotCut s₁ (.sends (.accepted 14)) := by
    intro call result hsent
    simp only [Event.sent, hop, getVersion] at hsent
    cases hsent
    exact .inr (by decide)
  have hfailed : Event.NotCut t₁ (.sends .failed) := fun call result hsent => by
    simp only [Event.sent, hop', getVersion] at hsent
    cases hsent
    exact .inl rfl
  have hstart : Foundation.Run (fun s event s' => Step s event s' ∧ event.NotCut s)
      SessionState.start [] SessionState.start := .start
  have hrun := hstart.next ⟨h₁, hquiet rfl⟩ |>.next ⟨h₂, hwhole⟩ |>.next ⟨h₃, hquiet rfl⟩
    |>.next ⟨h₄, hquiet rfl⟩ |>.next ⟨h₅, hfailed⟩ |>.next ⟨h₆, hquiet rfl⟩
  refine ⟨_, _, hrun, ?_, stream_framed hrun⟩
  rw [hwrites', hwrites]
  rfl

/-- A version of which ten bytes are taken, and then the answer to the next command. -/
theorem cut_version_continued :
    ∃ past s, Foundation.Run Step SessionState.start past s ∧ ¬Unmixed s.writes ∧
      ¬Framed s.writes := by
  obtain ⟨s₁, s₂, s₃, h₁, h₂, h₃, -, hphase, hstatus, hwrites⟩ :=
    getVersion_steps [97, 98] (.accepted 10) (s := SessionState.start) rfl rfl
      (by decide) (by decide)
  obtain ⟨t₁, t₂, t₃, h₄, h₅, h₆, -, -, -, hwrites'⟩ :=
    getVersion_steps [97, 98] (.accepted 14) hphase hstatus (by decide) (by decide)
  have hrun := Run.start.next h₁ |>.next h₂ |>.next h₃ |>.next h₄ |>.next h₅ |>.next h₆
  rw [hwrites] at hwrites'
  refine ⟨_, _, hrun, ?_, ?_⟩
  · rw [hwrites', Unmixed]
    decide
  · rw [hwrites']
    rintro ⟨messages, hsub, hbegins⟩
    have hnone : ∀ messages ∈ [versionMessage [97, 98], versionMessage [97, 98]].sublists,
        ¬((versionMessage [97, 98]).take 10 ++ versionMessage [97, 98] <+: messages.flatten) := by
      decide
    exact hnone messages (List.mem_sublists.mpr hsub) hbegins

end KoheronServer.Session.Tcp
