import KoheronServer.Session.Parser

/-!
# From a header to an operation

`DeviceManager::execute`, `KServer::execute` and the `execute` that the
`ks_device.cpp` template generates, up to the call of the device function. The
devices themselves are the client code of the server; the model keeps of them
what devgen reads, the argument types of their operations.
-/

namespace KoheronServer.Session

open Foundation Wire

/-- The generated devices, from id 2 on, each with its operations, from id 0 on. -/
abbrev DeviceTable := List (List Operation)

/-- `device_num`: `NoDevice` and `KServer` come before the generated devices. -/
def DeviceTable.deviceNum (devices : DeviceTable) : Nat := devices.length + 2

/-- `KServer::Operation`. -/
inductive KServerOp where
  | getVersion
  | getCmds
  | getStats
  | getDevStatus
  | getRunningSessions
  | subscribePubsub
  | pubsubPing
  deriving DecidableEq, Repr

/-- The cases of the switch in `KServer::execute`; the rest is its default. -/
def KServerOp.ofId : Nat → Option KServerOp
  | 0 => some getVersion
  | 1 => some getCmds
  | 2 => some getStats
  | 3 => some getDevStatus
  | 4 => some getRunningSessions
  | 5 => some subscribePubsub
  | 6 => some pubsubPing
  | _ => none

/-- What becomes of a command: device 0 does nothing and returns 0, an unknown operation
and a rejected command return -1, and a call returns what the operation sends. -/
inductive Outcome where
  | noDevice
  | unknown
  | rejected
  | called (args : List Arg)

def Outcome.executed : Outcome → Bool
  | called _ => true
  | noDevice | unknown | rejected => false

def Parsed.outcome : Parsed → Outcome
  | rejected => .rejected
  | called args => .called args

section

variable {σ : Type} (sess : SessionAbstract σ)

/-- `KServer::execute_op<SUBSCRIBE_PUBSUB>` up to `PubSub::subscribe`. -/
def subscribePubsub (slots : Nat → Slot) (s : σ) : Except Abort (Parsed × σ) :=
  match sess.receive (.scalar [.uint32]) (slots 0) s with
  | .error e => .error e
  | .ok tup =>
      if tup.ret < 0 then .ok (.rejected, tup.session) else .ok (.called tup.args, tup.session)

/-- `KServer::execute`. Only one of its operations takes an argument. -/
def executeKServer (slots : Nat → Slot) (operation : Nat) (s : σ) : Except Abort (Outcome × σ) :=
  match KServerOp.ofId operation with
  | none => .ok (.unknown, s)
  | some .subscribePubsub =>
      match subscribePubsub sess slots s with
      | .error e => .error e
      | .ok (parsed, s) => .ok (parsed.outcome, s)
  | some _ => .ok (.called [], s)

def executeDevice (operations : List Operation) (slots : Nat → Slot) (operation : Nat) (s : σ) :
    Except Abort (Outcome × σ) :=
  match operations[operation]? with
  | none => .ok (.unknown, s)
  | some op =>
      match executeOp sess slots op.arguments s with
      | .error e => .error e
      | .ok (parsed, s) => .ok (parsed.outcome, s)

/-- `DeviceManager::execute`. A release build has no assertion on the device id. -/
def execute (devices : DeviceTable) (slots : Nat → Slot) (device operation : Nat) (s : σ) :
    Except Abort (Outcome × σ) :=
  if device = 0 then .ok (.noDevice, s)
  else if device = 1 then executeKServer sess slots operation s
  else
    match devices[device - 2]? with
    | none => .error .deviceOverflow
    | some operations => executeDevice sess operations slots operation s

end

/-! ## The operations behind the ids -/

def KServerOp.arguments : KServerOp → Signature
  | subscribePubsub => [.scalar .uint32]
  | _ => []

/-- The argument types of an operation, when the ids stand for one. -/
def signatureOf (devices : DeviceTable) : Nat → Nat → Option Signature
  | 0, _ => none
  | 1, operation => (KServerOp.ofId operation).map KServerOp.arguments
  | device + 2, operation =>
      match devices[device]? with
      | none => none
      | some operations => operations[operation]?.map Operation.arguments

/-- The parser of every operation compiles. -/
theorem signatureOf_fits {devices : DeviceTable} {device operation : Nat} {arguments : Signature}
    (h : signatureOf devices device operation = some arguments) :
    ∀ p ∈ (buildArgsPacks arguments).1, p.Fits := by
  match device with
  | 0 => simp [signatureOf] at h
  | 1 =>
      obtain ⟨op, _, rfl⟩ := Option.map_eq_some_iff.mp h
      cases op <;> decide
  | device + 2 =>
      cases hdevice : devices[device]? with
      | none => simp [signatureOf, hdevice] at h
      | some operations =>
          simp only [signatureOf, hdevice] at h
          obtain ⟨op, _, rfl⟩ := Option.map_eq_some_iff.mp h
          exact op.fits

section

variable {σ : Type} (sess : SessionAbstract σ)

/-- The parser written for `SUBSCRIBE_PUBSUB` is the one that devgen would generate. -/
theorem subscribePubsub_eq (slots : Nat → Slot) (s : σ) :
    subscribePubsub sess slots s = executeOp sess slots [.scalar .uint32] s := by
  have hpacks : (buildArgsPacks [.scalar .uint32]).1 = [.scalar [.uint32]] := rfl
  rw [subscribePubsub, executeOp, hpacks, parsePacks]
  cases sess.receive (.scalar [.uint32]) (slots 0) s with
  | error e => rfl
  | ok tup => simp [parsePacks]

/-- A known operation is its parser. -/
theorem execute_known {devices : DeviceTable} {device operation : Nat} {arguments : Signature}
    (h : signatureOf devices device operation = some arguments) (slots : Nat → Slot) (s : σ) :
    execute sess devices slots device operation s =
      match executeOp sess slots arguments s with
      | .error e => .error e
      | .ok (parsed, s) => .ok (parsed.outcome, s) := by
  match device with
  | 0 => simp [signatureOf] at h
  | 1 =>
      obtain ⟨op, hop, rfl⟩ := Option.map_eq_some_iff.mp h
      rw [execute, if_neg (by decide), if_pos rfl, executeKServer, hop]
      cases op with
      | subscribePubsub => simp only [subscribePubsub_eq, KServerOp.arguments]
      | _ => rfl
  | device + 2 =>
      rw [execute, if_neg (by omega), if_neg (by omega), Nat.add_sub_cancel]
      cases hdevice : devices[device]? with
      | none => simp [signatureOf, hdevice] at h
      | some operations =>
          simp only [signatureOf, hdevice] at h
          obtain ⟨op, hop, rfl⟩ := Option.map_eq_some_iff.mp h
          simp only [executeDevice, hop]

/-- Device 0 and an unknown operation of a device take nothing from the session. -/
theorem execute_unknown {devices : DeviceTable} {device operation : Nat}
    (h : signatureOf devices device operation = none) (hdevice : device < devices.deviceNum)
    (slots : Nat → Slot) (s : σ) :
    ∃ outcome, execute sess devices slots device operation s = .ok (outcome, s) := by
  match device with
  | 0 => exact ⟨.noDevice, rfl⟩
  | 1 =>
      have hnone : KServerOp.ofId operation = none := by simpa [signatureOf] using h
      exact ⟨.unknown, by simp [execute, executeKServer, hnone]⟩
  | device + 2 =>
      have hlt : device < devices.length := by simpa [DeviceTable.deviceNum] using hdevice
      have hnone : devices[device][operation]? = none := by simpa [signatureOf, hlt] using h
      exact ⟨.unknown, by simp [execute, executeDevice, hlt, hnone]⟩

theorem execute_keeps {P : σ → Prop}
    (hreceive : ∀ pack slot s r, sess.receive pack slot s = .ok r → P s → P r.session)
    {devices : DeviceTable} {slots : Nat → Slot} {device operation : Nat} {s s' : σ}
    {outcome : Outcome} (h : execute sess devices slots device operation s = .ok (outcome, s'))
    (hs : P s) : P s' := by
  cases hsig : signatureOf devices device operation with
  | some arguments =>
      rw [execute_known sess hsig] at h
      cases hparse : executeOp sess slots arguments s with
      | error e => simp [hparse] at h
      | ok result =>
          obtain ⟨parsed, s''⟩ := result
          simp only [hparse] at h
          cases h
          exact parsePacks_keeps hreceive hparse hs
  | none =>
      by_cases hdevice : device < devices.deviceNum
      · obtain ⟨outcome', heq⟩ := execute_unknown sess hsig hdevice slots s
        rw [heq] at h
        cases h
        exact hs
      · unfold DeviceTable.deviceNum at hdevice
        have hnone : devices[device - 2]? = none := by
          rw [List.getElem?_eq_none_iff]
          omega
        simp only [execute, if_neg (show ¬device = 0 by omega), if_neg (show ¬device = 1 by omega),
          hnone] at h
        cases h

end

end KoheronServer.Session
