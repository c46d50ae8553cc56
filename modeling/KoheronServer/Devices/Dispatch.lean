import KoheronServer.Devices.Execute
import KoheronServer.Session.TcpRun
import KoheronServer.Websocket.Receive

/-!
# Device ids from the wire

`read_command` of either transport hands out the device id that the client has
written in the header, and `DeviceManager::execute` has nothing but an assertion
against an id without a device.
-/

namespace KoheronServer.Devices

open Foundation Session

variable {n : Nat}

/-- The ids of a command that `read_command` can produce from the bytes of a client. -/
inductive Received : Nat → Nat → Prop where
  | tcp (s : ByteStream) (h : 0 < (Tcp.readCommand s).ret) :
      Received (Tcp.readCommand s).device (Tcp.readCommand s).operation
  | websock {cmd buffers : Websocket.CommandBuffers} {ws : Websocket.WebSocket}
      {read : CommandRead Websocket.WebSocket}
      (hread : Websocket.readCommand cmd ws = some (read, buffers)) (h : 0 < read.ret) :
      Received read.device read.operation

structure Command where
  device : Nat
  operation : Nat
  received : Received device operation

/-- Every pair of 16-bit ids can be received. -/
theorem received_any (device operation : BitVec 16) : Received device.toNat operation.toNat := by
  have hclean := ByteStream.ofBytes_clean (Wire.DynamicSerializer.header device operation)
  have hbytes : (ByteStream.ofBytes (Wire.DynamicSerializer.header device operation)).bytes =
      Wire.DynamicSerializer.header device operation ++ [] := by
    rw [List.append_nil, ByteStream.ofBytes_bytes]
  have htransport : Tcp.transport.readCommand = Tcp.readCommand := rfl
  obtain ⟨hret, hdevice, hoperation, -, -⟩ := Tcp.readCommand_header hclean hbytes
  rw [htransport] at hret hdevice hoperation
  rw [← hdevice, ← hoperation]
  apply Received.tcp
  rw [hret]
  decide

def Command.ofIds (device operation : BitVec 16) : Command :=
  ⟨device.toNat, operation.toNat, received_any device operation⟩

/-- A dispatch inside the language: the assertion holds, both arrays are indexed within their
`device_num - 2` entries, and an id without a device is answered. -/
structure Dispatched (constructors : Constructors n) (debug : Bool) (m : DeviceManager n)
    (cmd : Command) : Prop where
  assertion : m.execute constructors debug cmd.device ≠ some (.error .assertion)
  index : m.execute constructors debug cmd.device ≠ some (.error .indexOutOfRange)
  answer : deviceNum n ≤ cmd.device →
    ∃ result, m.execute constructors debug cmd.device = some (.ok result)

/-- The assertion of a debug build, and the access behind the arrays without it. -/
theorem DeviceManager.execute_overflow (constructors : Constructors n) (debug : Bool)
    (m : DeviceManager n) {device : Nat} (h : deviceNum n ≤ device) :
    m.execute constructors debug device =
      some (.error (if debug then .assertion else .indexOutOfRange)) := by
  unfold deviceNum at h
  unfold execute deviceNum
  cases debug with
  | true =>
      rw [if_pos ⟨rfl, by omega⟩]
      rfl
  | false =>
      rw [if_neg (by simp), if_neg (by omega), if_neg (by omega), dif_neg (by omega)]
      rfl

theorem DeviceManager.executeDev_fault {m : DeviceManager n} {dev : Fin n} {e : Fault}
    (h : m.executeDev dev = .error e) : e = .nullDevice := by
  unfold executeDev at h
  cases hentry : m.deviceList dev with
  | none =>
      simp only [hentry] at h
      cases h
      rfl
  | some kind => simp [hentry] at h

theorem DeviceManager.execute_fault {constructors : Constructors n} {debug : Bool}
    {m : DeviceManager n} {device : Nat} (hlt : device < deviceNum n) {e : Fault}
    (h : m.execute constructors debug device = some (.error e)) : e = .nullDevice := by
  unfold execute at h
  rw [if_neg (by simp [hlt])] at h
  by_cases hnone : device = 0
  · simp [hnone] at h
  · rw [if_neg hnone] at h
    by_cases hserver : device = 1
    · simp [hserver] at h
    · have hindex : device - 2 < n := by
        unfold deviceNum at hlt
        omega
      rw [if_neg hserver, dif_pos hindex] at h
      dsimp only at h
      split at h
      · cases h
      · split at h
        · rename_i hexecute
          cases h
          exact executeDev_fault hexecute
        · cases h

/-- The ids below `device_num` are dispatched, and they alone. -/
theorem execute_dispatched_iff (constructors : Constructors n) (debug : Bool) (m : DeviceManager n)
    (cmd : Command) : Dispatched constructors debug m cmd ↔ cmd.device < deviceNum n := by
  constructor
  · intro h
    by_cases hlt : cmd.device < deviceNum n
    · exact hlt
    · have hle : deviceNum n ≤ cmd.device := by omega
      obtain ⟨result, hresult⟩ := h.answer hle
      rw [m.execute_overflow constructors debug hle] at hresult
      cases hresult
  · intro hlt
    constructor
    · intro h
      cases DeviceManager.execute_fault hlt h
    · intro h
      cases DeviceManager.execute_fault hlt h
    · intro hle
      omega

/-- A session that receives such an id, over any transport, leaves the language with it. -/
theorem session_overflow {σ : Type} (sess : SessionAbstract σ) {devices : DeviceTable}
    (slots : Nat → Slot) {device : Nat} (operation : Nat) (s : σ)
    (h : deviceNum devices.length ≤ device) :
    execute sess devices slots device operation s = .error .deviceOverflow := by
  unfold deviceNum at h
  have hnone : devices[device - 2]? = none := List.getElem?_eq_none (by omega)
  unfold execute
  rw [if_neg (by omega), if_neg (by omega), hnone]

/-- Eight bytes over TCP that name device 3 of a server with one generated device. -/
theorem unknown_device_overflows :
    let devices : DeviceTable := [[]]
    let s := ByteStream.ofBytes (Wire.DynamicSerializer.header 3 0)
    let m := DeviceManager.created 1
    (Tcp.run (.quiet devices) s).ending = .aborted .deviceOverflow ∧
    m.execute (fun _ => []) false (Tcp.readCommand s).device = some (.error .indexOutOfRange) ∧
    m.execute (fun _ => []) true (Tcp.readCommand s).device = some (.error .assertion) ∧
    ∀ debug, ¬Dispatched (fun _ => []) debug m (.ofIds 3 0) := by
  intro devices s m
  have hdevice : (Tcp.readCommand s).device = 3 := by decide
  rw [hdevice]
  refine ⟨by decide, rfl, rfl, ?_⟩
  intro debug h
  obtain ⟨result, hresult⟩ := h.answer (by decide)
  cases debug <;> cases hresult

end KoheronServer.Devices
