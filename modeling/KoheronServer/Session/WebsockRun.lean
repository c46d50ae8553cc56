import KoheronServer.Session.WebsockReceive
import KoheronServer.Websocket.Accept
import KoheronServer.Websocket.Frame

/-!
# Running a WebSocket session

`Session<WEBSOCK>` in the loop of `run`, over a stream without read errors, on which
`read_command` always returns. Whatever the frames before have left in the read
buffer and in the header, a command is one whole frame of the stream.
-/

namespace KoheronServer.Session.Websock

open Foundation Wire

/-- A `Session<WEBSOCK>` in its loop, with the `Command` of the turn. A `Command` lies on the
stack, so each of them holds at first what was there. -/
structure RunState where
  websock : Websocket.WebSocket
  clean : websock.socket.Clean
  header : Memory
  payload : Buffer
  turn : Nat
  /-- What the `Command` of each turn holds when it is made. -/
  stack : Nat → Websocket.CommandBuffers
  /-- Whether a send before the read of each turn has set `connection_closed`. -/
  sendClosed : Nat → Bool

namespace RunState

def waiting (s : RunState) : Websocket.WebSocket :=
  { s.websock with connectionClosed := s.websock.connectionClosed || s.sendClosed s.turn }

theorem readCommand_isSome (s : RunState) :
    (Websocket.readCommand (s.stack s.turn) s.waiting).isSome := by
  obtain ⟨read, cmd, h, -⟩ :=
    Websocket.readCommand_clean (s.stack s.turn) (show s.waiting.socket.Clean from s.clean)
  rw [h]
  rfl

def read (s : RunState) : CommandRead Websocket.WebSocket × Websocket.CommandBuffers :=
  (Websocket.readCommand (s.stack s.turn) s.waiting).get s.readCommand_isSome

theorem readCommand_eq (s : RunState) :
    Websocket.readCommand (s.stack s.turn) s.waiting = some s.read :=
  (Option.some_get s.readCommand_isSome).symm

theorem read_clean (s : RunState) : s.read.1.session.socket.Clean := by
  obtain ⟨read, cmd, h, hclean⟩ :=
    Websocket.readCommand_clean (s.stack s.turn) (show s.waiting.socket.Clean from s.clean)
  rw [s.readCommand_eq, Option.some.injEq] at h
  rw [h]
  exact hclean

end RunState

def readCommand (s : RunState) : CommandRead RunState where
  ret := s.read.1.ret
  device := s.read.1.device
  operation := s.read.1.operation
  session :=
    { s with
      websock := s.read.1.session
      clean := s.read_clean
      header := s.read.2.header
      payload := ⟨s.read.2.payload, 0⟩
      turn := s.turn + 1 }

def transport : Transport RunState where
  receive := fun pack slot s =>
    match session.receive pack slot s.payload with
    | .error e => .error e
    | .ok r => .ok ⟨r.ret, r.args, { s with payload := r.session }⟩
  readCommand := readCommand

/-- `Session<WEBSOCK>::run`. A command takes a byte at least, so there are never more turns
than bytes. -/
def run (env : Env) (s : RunState) : Run RunState :=
  runLoop transport env (s.websock.socket.bytes.length + 1) 0 s

/-- A positive result comes with a whole frame. -/
theorem readCommand_frame {s : RunState} (h : 0 < (readCommand s).ret) :
    ∃ f, Websocket.CommandTaken f s.waiting s.read.1 s.read.2 :=
  Websocket.readCommand_taken s.readCommand_eq h

/-- What a command is made of: the whole frame `f`, which has gone from the stream. -/
structure Receives (f : Websocket.StreamFrame) (s : RunState) : Prop where
  consumed : s.websock.socket.bytes = f.wire ++ (readCommand s).session.websock.socket.bytes
  opcode : f.opcode = 0x1 ∨ f.opcode = 0x2
  least : headerSize ≤ f.payload.length
  most : f.payload.length ≤ Websocket.websockReadStrLen - 56
  header : (readCommand s).session.header.load 0 headerSize = f.payload.take headerSize
  payload : (readCommand s).session.payload.data.load 0 (f.payload.length - headerSize) =
    f.payload.drop headerSize
  position : (readCommand s).session.payload.position = 0

theorem receives_of_taken {s : RunState} {f : Websocket.StreamFrame}
    (h : Websocket.CommandTaken f s.waiting s.read.1 s.read.2) : Receives f s where
  consumed := h.frame.socket
  opcode := h.command.opcode
  least := h.command.least
  most := h.command.most
  header := h.command.header
  payload := h.command.payload
  position := rfl

structure ExecutesNothing (run : Run RunState) : Prop where
  requests : run.requests = []
  ending : ∀ e, run.ending ≠ .aborted e

/-- A turn whose `read_command` has no positive result ends the loop. -/
theorem runLoop_no_command {s : RunState} (h : (readCommand s).ret ≤ 0) (env : Env) (fuel i : Nat) :
    ExecutesNothing (runLoop transport env fuel i s) := by
  cases fuel with
  | zero => exact ⟨rfl, fun e he => by cases he⟩
  | succ fuel =>
      have hret : (transport.readCommand s).ret ≤ 0 := h
      unfold runLoop
      simp only [if_pos hret]
      split
      · exact ⟨rfl, fun e he => by cases he⟩
      · split
        · exact ⟨rfl, fun e he => by cases he⟩
        · exact ⟨rfl, fun e he => by cases he⟩

/-- In front of any stream without errors, `read_command` has taken one whole frame when its
result is positive, and the command is the payload of this frame; else nothing is executed
any more. -/
theorem readCommand_sound (s : RunState) :
    (0 < (readCommand s).ret → ∃ f, Receives f s) ∧
      ((readCommand s).ret ≤ 0 →
        ∀ env fuel i, ExecutesNothing (runLoop transport env fuel i s)) := by
  constructor
  · intro h
    obtain ⟨f, hf⟩ := readCommand_frame h
    exact ⟨f, receives_of_taken hf⟩
  · exact runLoop_no_command

def RunState.ofBytes (bytes : Bytes) : RunState where
  websock := { Websocket.WebSocket.fresh bytes with header := ⟨8, 4, 300, true, true, 2⟩ }
  clean := ByteStream.ofBytes_clean bytes
  header := fun _ => 0
  payload := ⟨fun _ => 0, 0⟩
  turn := 0
  stack := fun _ => ⟨fun _ => 0xAA, fun _ => 0xBB⟩
  sendClosed := fun _ => false

/-- A frame that comes whole, and one that is cut in its payload. -/
theorem readCommand_sound_text :
    (∃ f, Receives f (.ofBytes Websocket.textFrame.wire)) ∧
      ∀ env fuel i, ExecutesNothing
        (runLoop transport env fuel i (.ofBytes (Websocket.textFrame.wire.take 10))) :=
  ⟨(readCommand_sound (.ofBytes Websocket.textFrame.wire)).1 (by decide),
    (readCommand_sound (.ofBytes (Websocket.textFrame.wire.take 10))).2 (by decide)⟩

end KoheronServer.Session.Websock
