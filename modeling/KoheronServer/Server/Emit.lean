import KoheronServer.Server.SessionManager
import KoheronServer.Session.Send
import KoheronServer.Session.TcpWrite
import KoheronServer.Websocket.Send
import KoheronServer.Wire.Reference

/-!
# Emitting events and logging

`PubSub::emit`, `SysLog::print` and the `send` of the sessions that they reach. A
write that fails is logged, and a log line is emitted to the subscribers of the
syslog channel while the emit that met the failure is still in its loop. All emits
share one `fmt_buffer`.
-/

namespace KoheronServer.Server

open Foundation Wire KoheronServer.Session

inductive Severity where
  | panic
  | critical
  | error
  | warning
  | info
  | debug
  deriving DecidableEq, Repr

def Severity.code : Severity → BitVec 16
  | panic => 0
  | critical => 1
  | error => 2
  | warning => 3
  | info => 4
  | debug => 5

def textBytes (text : String) : Bytes := text.toList.map fun c => BitVec.ofNat 8 c.toNat

/-- `std::string(s)` of a C string: it ends in front of the first NUL. -/
def cString (s : Bytes) : Bytes := s.takeWhile (· ≠ 0)

def fmtBuffLen : Nat := 1024

/-- The text in `fmt_buffer`, in front of its NUL. -/
structure FmtBuffer where
  text : Bytes
  fits : text.length < fmtBuffLen

def FmtBuffer.format (text : Bytes) : FmtBuffer where
  text := text.take (fmtBuffLen - 1)
  fits := by
    rw [List.length_take]
    simp only [fmtBuffLen]
    omega

/-! ## Sending to a session -/

/-- `Session<sock_type>::write`, with how the calls of `write` go. -/
def SockType.write (kind : SockType) (connectionClosed : Bool) (data : Bytes) (calls : Calls) :
    Websocket.Sent :=
  match kind with
  | .tcp | .unix =>
      let result := (calls.write (Tcp.writeCount data.length)).1
      let written := Tcp.write data.length result
      ⟨written.ret, data.take result.bytes, connectionClosed, written.error⟩
  | .websock => Websocket.send connectionClosed data calls

/-- The bytes of a message on a connection. -/
def SockType.wire : SockType → Bytes → Bytes
  | .tcp, data | .unix, data => data
  | .websock, data => Websocket.sendFrame data

/-- The sending side of a session. The flag is that of a WebSocket. -/
structure Endpoint where
  sender : Sender
  connectionClosed : Bool

/-- `SessionAbstract::send`. The status is set before an error is logged; nobody reads it in
between. -/
def Endpoint.send (endpoint : Endpoint) (kind : SockType) (call : Call) (calls : Calls) :
    Option (Websocket.Sent × Endpoint) :=
  match endpoint.sender.send call fun data =>
      (kind.write endpoint.connectionClosed data calls).ret with
  | none => none
  | some (_, sender) =>
      let sent := kind.write endpoint.connectionClosed sender.sendBuffer calls
      some (sent, ⟨sender, sent.connectionClosed⟩)

/-! ## Emitting -/

/-- What an emit finds. Its starts are numbered, from 0 for the first one: `calls n sid` is how
the calls of `write` go for the message that start `n` sends to a session. -/
structure Env where
  kind : SessID → SockType
  interrupted : Bool
  subscribers : Subscribers channelsCount
  /-- `subscribe` keeps the vectors so. -/
  nodup : ∀ c, (subscribers.get c).Nodup
  calls : Nat → SessID → Calls

/-- Bytes that a connection has taken for a message of start `frame`. -/
structure Delivery where
  frame : Nat
  sid : SessID
  taken : Bytes

/-- The state that emits share, with the number of their starts and their messages so far. -/
structure State where
  frames : Nat
  fmtBuffer : FmtBuffer
  endpoints : SessID → Endpoint
  deliveries : List Delivery

namespace State

def start (fmtBuffer : FmtBuffer) (endpoints : SessID → Endpoint) : State :=
  ⟨0, fmtBuffer, endpoints, []⟩

def format (st : State) (text : Bytes) : State := { st with fmtBuffer := .format text }

def enter (st : State) : State := { st with frames := st.frames + 1 }

/-- A message has been sent to a session in start `n`. -/
def sent (st : State) (n : Nat) (sid : SessID) (taken : Bytes) (endpoint : Endpoint) : State :=
  { st with
    endpoints := fun id => if id = sid then endpoint else st.endpoints id
    deliveries := st.deliveries ++ [⟨n, sid, taken⟩] }

end State

/-- What a move leaves of an element of a `std::tuple`: nothing of what a `std::vector` or a
`std::string` held, and the rest as it was. -/
def movedFrom : Passed → Passed
  | .vector t _ _ => .vector t [] (Nat.dvd_zero _)
  | .string _ => .string []
  | arg => arg

/-- What `emit` passes on with `std::forward<Args>(args)...`. -/
inductive Forwarded where
  | lvalues (parameters : Parameters)
  | rvalues (parameters : Parameters)

namespace Forwarded

def parameters : Forwarded → Parameters
  | lvalues parameters | rvalues parameters => parameters

def args (forwarded : Forwarded) : List Arg := forwarded.parameters.list.map Passed.arg

/-- What a `send` leaves of its arguments. `build_command` takes a tuple by value, so that an rvalue
is moved from, and everything else by reference. -/
def left : Forwarded → Forwarded
  | rvalues (.tuple tupArgs) => rvalues (.tuple (tupArgs.map movedFrom))
  | forwarded => forwarded

end Forwarded

/-- What the two overloads of `emit` send: their arguments, or the text in `fmt_buffer`. -/
inductive Content where
  | args (forwarded : Forwarded)
  | fmtBuffer

def Content.arguments (content : Content) (fmtBuffer : FmtBuffer) : List Arg :=
  match content with
  | .args forwarded => forwarded.args
  | .fmtBuffer => [.string (cString fmtBuffer.text)]

/-- What the loop sends behind its first turn. -/
def Content.left : Content → Content
  | .args forwarded => .args forwarded.left
  | .fmtBuffer => .fmtBuffer

def eventCall (channel : Fin channelsCount) (event : BitVec 16) (args : List Arg) : Call :=
  ⟨BitVec.ofNat 16 channel, event, args⟩

section

variable (env : Env)

/-- The loop of `emit`, in start `n`; `log` is `print<ERROR>`. -/
def emitTo (log : String → State → Option State) (channel : Fin channelsCount) (event : BitVec 16)
    (n : Nat) : Content → Int → List SessID → State → Option (Int × State)
  | _, err, [], st => some (err, st)
  | content, err, sid :: sids, st =>
      match (st.endpoints sid).send (env.kind sid)
          (eventCall channel event (content.arguments st.fmtBuffer)) (env.calls n sid) with
      | none => none
      | some (sent, endpoint) =>
          let err := if sent.ret < 0 then sent.ret else err
          let st := st.sent n sid sent.taken endpoint
          match sent.error with
          | none => emitTo log channel event n content.left err sids st
          | some line =>
              match log line st with
              | none => none
              | some st => emitTo log channel event n content.left err sids st

section

variable {env} {log : String → State → Option State} {channel : Fin channelsCount}
  {event : BitVec 16} {content : Content} {n : Nat} {sid : SessID} {st : State}
  {sent : Websocket.Sent} {endpoint : Endpoint}
  (hsend : (st.endpoints sid).send (env.kind sid)
    (eventCall channel event (content.arguments st.fmtBuffer)) (env.calls n sid) =
      some (sent, endpoint))

include hsend

/-- A message that is not logged leaves the loop to the next session. -/
theorem emitTo_sent (herror : sent.error = none) (err : Int) (sids : List SessID) :
    emitTo env log channel event n content err (sid :: sids) st =
      emitTo env log channel event n content.left (if sent.ret < 0 then sent.ret else err) sids
        (st.sent n sid sent.taken endpoint) := by
  simp only [emitTo, hsend, herror]

/-- A message that is logged keeps the next session waiting for the log line. -/
theorem emitTo_failed {line : String} (herror : sent.error = some line) (err : Int)
    (sids : List SessID) :
    emitTo env log channel event n content err (sid :: sids) st =
      (log line (st.sent n sid sent.taken endpoint)).bind
        (emitTo env log channel event n content.left (if sent.ret < 0 then sent.ret else err)
          sids) := by
  simp only [emitTo, hsend, herror]
  cases log line (st.sent n sid sent.taken endpoint) <;> rfl

end

/-- `emit` of a format, with the text that `snprintf` makes of it, and `depth` emits inside each
other at most. A format error leaves no text. -/
def emitText : Nat → Fin channelsCount → BitVec 16 → Option Bytes → State → Option (Int × State)
  | 0, _, _, _, _ => none
  | depth + 1, channel, event, text, st =>
      if env.interrupted then some (0, st)
      else
        match text with
        | none => some (-1, st)
        | some text =>
            let st := st.format text
            if fmtBuffLen ≤ text.length then some (-1, st)
            else
              let log line st :=
                (emitText depth syslogChannel Severity.error.code (some (textBytes line)) st).map
                  Prod.snd
              emitTo env log channel event st.frames .fmtBuffer 0 (env.subscribers.get channel)
                st.enter

/-- `SysLog::print<ERROR>` of a text without arguments. -/
def log (depth : Nat) (line : String) (st : State) : Option State :=
  (emitText env depth syslogChannel Severity.error.code (some (textBytes line)) st).map Prod.snd

theorem emitText_interrupted (hint : env.interrupted = true) (depth : Nat)
    (channel : Fin channelsCount) (event : BitVec 16) (text : Option Bytes) (st : State) :
    emitText env (depth + 1) channel event text st = some (0, st) := by
  cases text with
  | none => rw [emitText, if_pos hint]
  | some t => rw [emitText, if_pos hint]

theorem emitText_unfit (hrunning : env.interrupted = false) (depth : Nat)
    (channel : Fin channelsCount) (event : BitVec 16) {text : Option Bytes}
    (hunfit : ∀ t, text = some t → fmtBuffLen ≤ t.length) (st : State) :
    ∃ buffer, emitText env (depth + 1) channel event text st =
      some (-1, { st with fmtBuffer := buffer }) := by
  have hint : ¬env.interrupted = true := by
    rw [hrunning]
    decide
  cases text with
  | none => exact ⟨st.fmtBuffer, by rw [emitText, if_neg hint]⟩
  | some t =>
      rw [emitText, if_neg hint]
      exact ⟨_, if_pos (hunfit t rfl)⟩

theorem emitText_fits (hrunning : env.interrupted = false) (depth : Nat)
    (channel : Fin channelsCount) (event : BitVec 16) {text : Bytes}
    (hfits : text.length < fmtBuffLen)
    (st : State) :
    emitText env (depth + 1) channel event (some text) st =
      emitTo env (log env depth) channel event st.frames .fmtBuffer 0 (env.subscribers.get channel)
        (st.format text).enter := by
  rw [emitText, if_neg (by rw [hrunning]; decide)]
  simp only [if_neg (Nat.not_le.mpr hfits)]
  rfl

def emitArgs (depth : Nat) (channel : Fin channelsCount) (event : BitVec 16) (args : Forwarded)
    (st : State) : Option (Int × State) :=
  if env.interrupted then some (0, st)
  else
    emitTo env (log env depth) channel event st.frames (.args args) 0 (env.subscribers.get channel)
      st.enter

/-- `SysLog::print`, with what its format makes of the arguments. -/
def print (depth : Nat) (severity : Severity) (text : Option Bytes) (st : State) : Option State :=
  if severity = .debug then some st
  else (emitText env depth syslogChannel severity.code text st).map Prod.snd

end

end KoheronServer.Server
