import KoheronServer.Devices.Manager

/-!
# Executing a command on a device

`DeviceManager::execute` with its dispatch over the device ids, from the id of a
command to the device that executes it.
-/

namespace KoheronServer.Devices

variable {n : Nat}

/-- The ways in which the dispatch of a command leaves the language. -/
inductive Fault where
  | assertion
  | indexOutOfRange
  | nullDevice
  deriving DecidableEq, Repr

/-- The recursion of `start_impl<dev0, devs...>` and `execute_dev_impl<dev0, devs...>`: the last
device is taken without a test. -/
def select (id : Nat) : Fin n → List (Fin n) → Fin n
  | dev0, [] => dev0
  | dev0, dev1 :: devs => if id = deviceId dev0 then dev0 else select id dev1 devs

/-- The same over `make_index_sequence_in_range<2, device_num>()`. -/
def selectInRange (id : Nat) (hn : 0 < n) : Fin n := select id ⟨0, hn⟩ (List.finRange n).tail

theorem select_deviceId (dev : Fin n) (dev0 : Fin n) (devs : List (Fin n))
    (h : dev ∈ dev0 :: devs) : select (deviceId dev) dev0 devs = dev := by
  induction devs generalizing dev0 with
  | nil => exact (List.mem_singleton.mp h).symm
  | cons dev1 devs ih =>
      unfold select
      by_cases hid : deviceId dev = deviceId dev0
      · rw [if_pos hid]
        unfold deviceId at hid
        exact Fin.ext (by omega)
      · rw [if_neg hid]
        apply ih
        cases h with
        | head => exact absurd rfl hid
        | tail _ h => exact h

theorem selectInRange_deviceId (dev : Fin n) : selectInRange (deviceId dev) dev.pos = dev := by
  apply select_deviceId
  cases n with
  | zero => exact dev.elim0
  | succ n =>
      rw [List.finRange_succ, List.tail_cons]
      have hmem := List.mem_finRange dev
      rwa [List.finRange_succ] at hmem

namespace DeviceManager

variable (constructors : Constructors n)

/-- `DeviceManager::start`, over a `static_assert`ed range of ids. No chain of constructors is
longer than the number of the devices. -/
def start (id : Nat) (hn : 0 < n) (m : DeviceManager n) : Option (DeviceManager n) :=
  allocDevice constructors (n + 1) (selectInRange id hn) m

/-- `execute_dev` on an entry of `device_list`: the device whose `execute` is called. -/
def executeDev (m : DeviceManager n) (dev : Fin n) : Except Fault (Fin n) :=
  match m.deviceList dev with
  | none => .error .nullDevice
  | some kind => .ok (selectInRange kind dev.pos)

theorem start_spec {m : DeviceManager n} (hm : m.Consistent constructors) (dev : Fin n) :
    ∃ m', m.start constructors (deviceId dev) dev.pos = some m' ∧
      Allocated constructors dev m m' := by
  have hle := m.unstarting_le
  rw [start, selectInRange_deviceId]
  exact allocDevice_spec constructors (n + 1) dev m hm (by omega)

variable {constructors}

theorem executeDev_started {m : DeviceManager n} (hm : m.Consistent constructors) {dev : Fin n}
    (h : m.isStarted dev = true) : m.executeDev dev = .ok dev := by
  simp [executeDev, hm.listed dev, h, selectInRange_deviceId]

end DeviceManager

inductive Executed (n : Nat) where
  | noDevice
  | kserver
  | device (dev : Fin n)
  deriving DecidableEq, Repr

def deviceNum (n : Nat) : Nat := n + 2

/-- `DeviceManager::execute` of a command with this device id. Only a build with `DEBUG_KSERVER` has
the assertion. -/
def DeviceManager.execute (constructors : Constructors n) (debug : Bool) (device : Nat)
    (m : DeviceManager n) : Option (Except Fault (Executed n × DeviceManager n)) :=
  if debug = true ∧ ¬device < deviceNum n then some (.error .assertion)
  else if device = 0 then some (.ok (.noDevice, m))
  else if device = 1 then some (.ok (.kserver, m))
  else if h : device - 2 < n then
    let dev : Fin n := ⟨device - 2, h⟩
    match if m.isStarted dev then some m else m.start constructors device dev.pos with
    | none => none
    | some m =>
        match m.executeDev dev with
        | .error e => some (.error e)
        | .ok executor => some (.ok (.device executor, m))
  else some (.error .indexOutOfRange)

/-- A command for a device that is not being constructed is executed by that device. -/
theorem DeviceManager.execute_spec {constructors : Constructors n} {m : DeviceManager n}
    (hm : m.Consistent constructors) (debug : Bool) {dev : Fin n}
    (hidle : m.devCont.isStarting dev = false) :
    ∃ m', m.execute constructors debug (deviceId dev) = some (.ok (.device dev, m')) ∧
      Allocated constructors dev m m' := by
  have hlt : deviceId dev < deviceNum n := by
    unfold deviceId deviceNum
    omega
  have hindex : deviceId dev - 2 < n := by
    unfold deviceId
    omega
  have hdev : (⟨deviceId dev - 2, hindex⟩ : Fin n) = dev := Fin.ext (by simp [deviceId])
  unfold execute
  rw [if_neg (by simp [hlt]), if_neg (by simp [deviceId]), if_neg (by simp [deviceId]),
    dif_pos hindex]
  simp only [hdev]
  cases hstarted : m.isStarted dev with
  | true =>
      refine ⟨m, by simp [executeDev_started hm hstarted], hm, Extends.refl m,
        fun _ => hstarted, ?_, fun _ _ => id⟩
      rw [hstarted]
      simp
  | false =>
      obtain ⟨m', hstart, h⟩ := start_spec constructors hm dev
      have hexecute := executeDev_started h.consistent (h.started hidle)
      exact ⟨m', by simp [hstart, hexecute], h⟩

end KoheronServer.Devices
