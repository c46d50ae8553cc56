import KoheronServer.Wire.Serializer

/-!
# Sending on a session

`Session::send`, which is the same for every kind of session up to the `write`
that it calls.
-/

namespace KoheronServer.Session

open Foundation Wire

/-- The `SCALAR_PACK_LEN` of `dyn_ser`. -/
def scalarPackLen : Nat := 1024

inductive Status where
  | closed
  | opened
  deriving DecidableEq, Repr

structure Sender where
  status : Status
  sendBuffer : Bytes
  dynSer : DynamicSerializer

def Sender.start : Sender := ⟨.opened, [], ⟨fun _ => 0, 0⟩⟩

/-- `send<class_id, func_id>(args...)`: what it returns and the session behind it. There is no
result when the arguments overflow the scalar pack. -/
def Sender.send (s : Sender) (call : Call) (write : Bytes → Int) : Option (Int × Sender) :=
  match s.dynSer.buildCommand scalarPackLen call.device call.operation s.sendBuffer call.args with
  | none => none
  | some (dynSer, message) =>
      let bytesSend := write message
      some (bytesSend, ⟨if bytesSend = 0 then .closed else s.status, message, dynSer⟩)

def message (call : Call) : Bytes := messageWire call.device call.operation call.args

theorem Sender.send_eq (s : Sender) {call : Call} (hfit : RunsFit scalarPackLen call.args)
    (write : Bytes → Int) :
    ∃ dynSer, s.send call write = some
      (write (message call),
        ⟨if write (message call) = 0 then .closed else s.status, message call, dynSer⟩) := by
  obtain ⟨dynSer, hbuild⟩ :=
    DynamicSerializer.buildCommand_eq hfit call.device call.operation s.dynSer s.sendBuffer
  exact ⟨dynSer, by rw [Sender.send, hbuild]; rfl⟩

/-- The arguments of a message that is sent do not overflow the pack. -/
theorem Sender.send_fits {s : Sender} {call : Call} {write : Bytes → Int} {result : Int × Sender}
    (h : s.send call write = some result) : RunsFit scalarPackLen call.args := by
  rw [Sender.send] at h
  split at h
  case h_1 => cases h
  case h_2 heq => exact DynamicSerializer.buildCommand_fits heq

theorem runsFit_string (bytes : Bytes) : RunsFit scalarPackLen [Arg.string bytes] := by
  intro run hrun hscalar
  cases run with
  | nil => exact Nat.zero_le _
  | cons a run =>
      obtain rfl := List.mem_singleton.mp (hrun.subset List.mem_cons_self)
      obtain ⟨t, ht⟩ := hscalar _ List.mem_cons_self
      cases ht

theorem message_string_inj {device operation : BitVec 16} {xs ys : Bytes}
    (hxs : xs.length < 2 ^ 32) (hys : ys.length < 2 ^ 32)
    (h : message ⟨device, operation, [.string xs]⟩ = message ⟨device, operation, [.string ys]⟩) :
    xs = ys := by
  simp only [message, messageWire, List.append_cancel_left_eq, argsWire_cons, argsWire_nil,
    List.append_nil, Arg.wire] at h
  exact Arg.containerWire_inj hxs hys h

end KoheronServer.Session
