import KoheronServer.Foundation.Assignments
import KoheronServer.Devgen.DevicesJson
import KoheronServer.Devgen.Generated
import Mathlib.Data.List.Nodup

/-!
# The generated server

`generate` numbers the devices and their operations. The numbers go into the table that clients
read, into the enumerators of the generated classes and into the `send` of every call, and the
types of the devices into `devices_table.hpp`. A client that looks an operation up by its names
calls this operation, and nothing else can be called.
-/

namespace KoheronServer.Devgen

open Foundation Wire Session

/-! ## `generate` -/

/-- A file of `devices_list`: its path, and the classes that CppHeaderParser finds in it. -/
structure HeaderFile where
  path : List Char
  classes : List Class

/-- `path.endswith('.hpp') or path.endswith('.h')` -/
def isHeader (path : List Char) : Bool :=
  ".hpp".toList.isSuffixOf path || ".h".toList.isSuffixOf path

def parseHeader (file : HeaderFile) : Except Raised (List HeaderDevice) :=
  file.classes.mapM parseHeaderDevice

/-- The loop of `generate`, from a `dev_id` on. -/
def generateFrom : Nat → List HeaderFile → Except Raised (List Device)
  | _, [] => .ok []
  | devId, file :: files =>
      if isHeader file.path then do
        let parsed ← parseHeader file
        let device ← item parsed 0
        let devices ← generateFrom (devId + 1) files
        return ⟨device, devId⟩ :: devices
      else generateFrom devId files

def generate (devicesList : List HeaderFile) : Except Raised (List Device) :=
  generateFrom 2 devicesList

/-- `cmd_calls`: a dictionary, in which a tag has the call that was assigned last. -/
def cmdCalls (device : HeaderDevice) (devId : Nat) : List Char → Option Statement :=
  device.operations.foldl
    (fun calls op => Function.update calls op.tag (some (generateCall devId op))) fun _ => none

/-! ## The generated classes -/

def lower (s : List Char) : List Char := s.map Char.toLower

/-- The enumerators of `Operation` with their values. The last one has no value of its own. -/
def enumerators (device : HeaderDevice) : List (List Char × Nat) :=
  device.operations.map (fun op => (op.tag, op.id)) ++
    [(lower device.tag ++ "_op_num".toList,
      (device.operations.getLast?.map fun op => op.id + 1).getD 0)]

def enumValue (device : HeaderDevice) (name : List Char) : Option Nat :=
  ((enumerators device).find? fun e => e.1 = name).map Prod.snd

/-- The label that the switch of `execute` goes to, unless it goes to `default`. -/
def caseLabel (device : HeaderDevice) (operation : Nat) : Option (List Char) :=
  (device.operations.map fun op => op.tag).find? fun tag => enumValue device tag = some operation

/-- The operation for which the template writes `execute_op<label>`. -/
def specialization (device : HeaderDevice) (label : List Char) : Option DeviceOperation :=
  device.operations.find? fun op => enumValue device op.tag = enumValue device label

/-- The body that the template writes for an operation: `get_parser` and `get_fragment`. -/
def executeOpBody (device : Device) (op : DeviceOperation) : Option (List Statement) :=
  match parserStatements op.toOperation, cmdCalls device.toHeaderDevice device.id op.tag with
  | .ok parser, some fragment => some (parser ++ [fragment])
  | _, _ => none

/-- The types of the arguments, where `typeOf` is the type that a text names. -/
def Operation.signature (typeOf : List Char → ArgType) (op : Operation) : Signature :=
  (op.arguments.getD []).map fun arg => typeOf arg.type

inductive Answer where
  | noDevice
  | kserver (outcome : Outcome)
  | unknown
  | ended (e : Ended)

section

variable {σ : Type} (sess : SessionAbstract σ) (slots : Nat → Slot) (typeOf : List Char → ArgType)

/-- `KDevice<dev>::execute`, from what each operation has left in its members. -/
def executeKDevice (device : Device) (members : List Char → Members) (operation : Nat) (s : σ) :
    Except Stop (Answer × σ) :=
  match caseLabel device.toHeaderDevice operation with
  | none => .ok (.unknown, s)
  | some label =>
      match specialization device.toHeaderDevice label with
      | none => .error .illFormed
      | some op =>
          match executeOpBody device op with
          | none => .error .illFormed
          | some body =>
              (runBody sess slots
                (declaredType (op.arguments.getD []) (op.signature typeOf)) body
                (members op.name) s).map fun r => (.ended r.1, r.2)

/-- `dev_id_of`: the index of the class in `devices_tuple_t`. -/
def devIdOf (devices : List Device) (name : List Char) : Nat :=
  (devices.map fun d => d.name).idxOf name + 2

def kdevice (devices : List Device) (dev : Nat) : Option Device :=
  devices.find? fun d => devIdOf devices d.name = dev

/-- `DeviceManager::execute` with the generated classes. -/
def executeServer (devices : List Device) (members : Nat → List Char → Members)
    (device operation : Nat) (s : σ) : Except Stop (Answer × σ) :=
  if device = 0 then .ok (.noDevice, s)
  else if device = 1 then
    match executeKServer sess slots operation s with
    | .error e => .error (.abort e)
    | .ok (outcome, s) => .ok (.kserver outcome, s)
  else
    match kdevice devices device with
    | none => .error (.abort .deviceOverflow)
    | some d => executeKDevice sess slots typeOf d (members device) operation s

end

/-! ## Numbers -/

theorem parseHeaderOperation_tag {devname : List Char} {method : Method} {op : Operation}
    (h : parseHeaderOperation devname method = .ok op) : op.tag = upper op.name := by
  rcases bind_ok_iff.mp h with ⟨⟨⟩, -, hrest⟩
  split at hrest
  case isTrue =>
    rcases bind_ok_iff.mp hrest with ⟨args, -, hop⟩
    obtain rfl := Except.ok.inj hop
    rfl
  case isFalse =>
    obtain rfl := Except.ok.inj hrest
    rfl

/-- The operations of a header are numbered in their order, and their tags are made of their
names. -/
theorem parseHeaderDevice_operation {c : Class} {device : HeaderDevice}
    (h : parseHeaderDevice c = .ok device) {i : Nat} {op : DeviceOperation}
    (hop : device.operations[i]? = some op) : op.id = i ∧ op.tag = upper op.name := by
  rcases bind_ok_iff.mp h with ⟨ops, hops, hdevice⟩
  obtain rfl := Except.ok.inj hdevice
  rw [List.getElem?_map, List.getElem?_zipIdx, Option.map_map, Option.map_eq_some_iff] at hop
  rcases hop with ⟨op', hop', rfl⟩
  rcases exists_of_mapM_ok hops (List.mem_of_getElem? hop') with ⟨method, -, hmethod⟩
  exact ⟨Nat.zero_add i, parseHeaderOperation_tag hmethod⟩

/-- The devices are numbered in their order, and each comes from a class of its header. -/
theorem generateFrom_device {devId : Nat} {files : List HeaderFile} {devices : List Device}
    (h : generateFrom devId files = .ok devices) {i : Nat} {d : Device}
    (hd : devices[i]? = some d) :
    d.id = devId + i ∧ ∃ c, parseHeaderDevice c = .ok d.toHeaderDevice := by
  induction files generalizing devId devices i with
  | nil =>
      obtain rfl := Except.ok.inj h
      cases hd
  | cons file files ih =>
      rw [generateFrom] at h
      split at h
      case isTrue =>
        rcases bind_ok_iff.mp h with ⟨parsed, hparsed, hrest⟩
        rcases bind_ok_iff.mp hrest with ⟨device, hdevice, hrest⟩
        rcases bind_ok_iff.mp hrest with ⟨devices', hdevices', hall⟩
        obtain rfl := Except.ok.inj hall
        cases i with
        | zero =>
            obtain rfl := Option.some.inj hd
            have hmem := List.mem_of_getElem? (item_ok_iff.mp hdevice)
            rcases exists_of_mapM_ok hparsed hmem with ⟨c, -, hc⟩
            exact ⟨rfl, c, hc⟩
        | succ i =>
            have hnext := ih hdevices' hd
            exact ⟨hnext.1.trans (by omega), hnext.2⟩
      case isFalse => exact ih h hd

/-! ## Keys -/

theorem find?_eq_of_unique {α : Type} {p : α → Bool} {xs : List α} {x : α} (hx : x ∈ xs)
    (hp : p x = true) (hunique : ∀ y ∈ xs, p y = true → y = x) : xs.find? p = some x := by
  cases hfind : xs.find? p with
  | none => exact absurd hp (List.find?_eq_none.mp hfind x hx)
  | some y => rw [hunique y (List.mem_of_find?_eq_some hfind) (List.find?_some hfind)]

theorem find?_of_nodup {α κ : Type} [DecidableEq κ] {key : α → κ} {xs : List α}
    (hnodup : (xs.map key).Nodup) {x : α} (hx : x ∈ xs) :
    xs.find? (fun y => key y = key x) = some x :=
  find?_eq_of_unique hx (decide_eq_true rfl) fun _ hy hkey =>
    List.inj_on_of_nodup_map hnodup hy hx (of_decide_eq_true hkey)

def callAssignments (devId : Nat) :
    Assignments (List Char → Option Statement) DeviceOperation (List Char) (Option Statement) where
  get calls tag := calls tag
  apply op calls := Function.update calls op.tag (some (generateCall devId op))
  field op := op.tag
  value op := some (generateCall devId op)
  get_apply_self _ _ := Function.update_self _ _ _
  get_apply_of_ne _ _ _ h := Function.update_of_ne h _ _

/-- A class that compiles: its enumerators are distinct, and they are numbered as `parse_header`
does it. -/
structure HeaderDevice.Numbered (device : HeaderDevice) : Prop where
  tags : (device.operations.map fun op => op.tag).Nodup
  ids : ∀ i (op : DeviceOperation), device.operations[i]? = some op → op.id = i

namespace HeaderDevice.Numbered

variable {device : HeaderDevice} {op : DeviceOperation}

/-- Operations with distinct tags have their own calls. -/
theorem cmdCalls_eq (h : device.Numbered) (hop : op ∈ device.operations) (devId : Nat) :
    cmdCalls device devId op.tag = some (generateCall devId op) := by
  apply (callAssignments devId).get_applyAll_of_mem hop
  intro other hother htag
  rw [List.inj_on_of_nodup_map h.tags hother hop htag]

theorem enumValue_eq (h : device.Numbered) (hop : op ∈ device.operations) :
    enumValue device op.tag = some op.id := by
  have hkeys : ((device.operations.map fun op => (op.tag, op.id)).map Prod.fst).Nodup := by
    rw [List.map_map]
    exact h.tags
  have hfind : (device.operations.map fun op => (op.tag, op.id)).find? (fun e => e.1 = op.tag) =
      some (op.tag, op.id) := find?_of_nodup hkeys (List.mem_map_of_mem hop)
  rw [enumValue, enumerators, List.find?_append, hfind]
  rfl

theorem eq_of_id (h : device.Numbered) {other : DeviceOperation}
    (hother : other ∈ device.operations)
    (hop : op ∈ device.operations) (hid : other.id = op.id) : other = op := by
  rcases List.mem_iff_getElem?.mp hother with ⟨i, hi⟩
  rcases List.mem_iff_getElem?.mp hop with ⟨j, hj⟩
  have hij : i = j := by rw [← h.ids i other hi, ← h.ids j op hj, hid]
  rw [hij, hj] at hi
  exact (Option.some.inj hi).symm

theorem specialization_eq (h : device.Numbered) (hop : op ∈ device.operations) :
    specialization device op.tag = some op := by
  apply find?_eq_of_unique hop (decide_eq_true rfl)
  intro other hother hvalue
  have hvalues := of_decide_eq_true hvalue
  rw [h.enumValue_eq hother, h.enumValue_eq hop, Option.some.injEq] at hvalues
  exact h.eq_of_id hother hop hvalues

/-- The switch goes to the label of the operation with this number. -/
theorem caseLabel_eq (h : device.Numbered) (operation : Nat) :
    caseLabel device operation = device.operations[operation]?.map fun op => op.tag := by
  rw [caseLabel, List.find?_map]
  congr 1
  cases hop : device.operations[operation]? with
  | none =>
      rw [List.find?_eq_none]
      intro op hmem hvalue
      have hvalues := of_decide_eq_true hvalue
      rw [h.enumValue_eq hmem, Option.some.injEq] at hvalues
      rcases List.mem_iff_getElem?.mp hmem with ⟨i, hi⟩
      rw [← hvalues, h.ids i op hi, hi] at hop
      cases hop
  | some op =>
      have hmem := List.mem_of_getElem? hop
      have hid := h.ids operation op hop
      apply find?_eq_of_unique hmem
      · exact decide_eq_true ((h.enumValue_eq hmem).trans (congrArg some hid))
      · intro other hother hvalue
        have hvalues := of_decide_eq_true hvalue
        rw [h.enumValue_eq hother, Option.some.injEq] at hvalues
        exact h.eq_of_id hother hmem (hvalues.trans hid.symm)

end HeaderDevice.Numbered

/-! ## Commands for a device -/

/-- What a compiler asks of the headers: one class and one enumerator of a name, and members with
distinct names. The types are scalars under their eleven names, and arrays and vectors of them and
strings, spelled with `std::`. -/
structure Compiles (value : List Char → Option Nat) (typeOf : List Char → ArgType)
    (devices : List Device) : Prop where
  classes : ("NoDevice".toList :: "KServer".toList :: devices.map fun d => d.name).Nodup
  tags : ∀ d ∈ devices, (d.operations.map fun op => op.tag).Nodup
  members : ∀ d ∈ devices, ∀ op ∈ d.operations,
    ((op.arguments.getD []).map Argument.name).Nodup
  types : ∀ d ∈ devices, ∀ op ∈ d.operations, ∀ arg ∈ op.arguments.getD [],
    Declares value arg.type (typeOf arg.type)

section

variable {value : List Char → Option Nat} {typeOf : List Char → ArgType} {devices : List Device}

theorem Compiles.names_nodup (h : Compiles value typeOf devices) :
    (devices.map fun d => d.name).Nodup :=
  (List.nodup_cons.mp (List.nodup_cons.mp h.classes).2).2

theorem Compiles.compiled (h : Compiles value typeOf devices) {d : Device} (hd : d ∈ devices)
    {op : DeviceOperation} (hop : op ∈ d.operations) :
    op.Compiled value (op.signature typeOf) where
  names := h.members d hd op hop
  declares := List.forall₂_map_right_iff.mpr (List.forall₂_same.mpr (h.types d hd op hop))

variable {σ : Type} {sess : SessionAbstract σ} {slots : Nat → Slot}

def calls (sess : SessionAbstract σ) (slots : Nat → Slot) (typeOf : List Char → ArgType)
    (devId : Nat) (op : DeviceOperation) (s : σ) : Except Stop (Answer × σ) :=
  (behindPacks (executeOp sess slots (op.signature typeOf) s) fun args s' =>
    .ok (op.ended devId args, s')).map fun r => (.ended r.1, r.2)

theorem executeKDevice_known (hsess : WellTyped sess) {d : Device} (hnumbered : d.Numbered)
    {operation : Nat} {op : DeviceOperation} (hop : d.operations[operation]? = some op)
    (hcompiled : op.Compiled value (op.signature typeOf)) (members : List Char → Members) (s : σ) :
    executeKDevice sess slots typeOf d members operation s = calls sess slots typeOf d.id op s := by
  have hmem := List.mem_of_getElem? hop
  rcases executeOp_generated hcompiled hsess with ⟨statements, hparser, hrun⟩
  have hbody : executeOpBody d op = some (statements ++ [generateCall d.id op]) := by
    rw [executeOpBody, hparser, hnumbered.cmdCalls_eq hmem]
  rw [executeKDevice, hnumbered.caseLabel_eq, hop]
  simp only [Option.map_some, hnumbered.specialization_eq hmem, hbody, hrun]
  rfl

theorem executeKDevice_unknown {d : Device} (hnumbered : d.Numbered) {operation : Nat}
    (hop : d.operations[operation]? = none) (members : List Char → Members) (s : σ) :
    executeKDevice sess slots typeOf d members operation s = .ok (.unknown, s) := by
  rw [executeKDevice, hnumbered.caseLabel_eq, hop]
  rfl

/-- A device id is that of a class by its place in the tuple. -/
theorem kdevice_eq (hclasses : (devices.map fun d => d.name).Nodup) (i : Nat) :
    kdevice devices (i + 2) = devices[i]? := by
  have hindex : ∀ j (d : Device), devices[j]? = some d → devIdOf devices d.name = j + 2 := by
    intro j d hd
    rcases List.getElem?_eq_some_iff.mp hd with ⟨hlt, rfl⟩
    have hlt' : j < (devices.map fun d => d.name).length := by rwa [List.length_map]
    have hidx := hclasses.idxOf_getElem j hlt'
    rw [List.getElem_map] at hidx
    rw [devIdOf, hidx]
  unfold kdevice
  cases hd : devices[i]? with
  | none =>
      rw [List.find?_eq_none]
      intro d hmem hid
      rcases List.mem_iff_getElem?.mp hmem with ⟨j, hj⟩
      have hvalue := of_decide_eq_true hid
      rw [hindex j d hj] at hvalue
      obtain rfl : j = i := by omega
      rw [hj] at hd
      cases hd
  | some d =>
      apply find?_eq_of_unique (List.mem_of_getElem? hd) (decide_eq_true (hindex i d hd))
      intro other hmem hid
      rcases List.mem_iff_getElem?.mp hmem with ⟨j, hj⟩
      have hvalue := of_decide_eq_true hid
      rw [hindex j other hj] at hvalue
      obtain rfl : j = i := by omega
      exact Option.some.inj (hj.symm.trans hd)

/-- The server that `generate` makes of the headers. -/
structure Generated (value : List Char → Option Nat) (typeOf : List Char → ArgType)
    (files : List HeaderFile) (devices : List Device) : Prop where
  generated : generate files = .ok devices
  compiles : Compiles value typeOf devices

namespace Generated

variable {files : List HeaderFile}

theorem numbered (h : Generated value typeOf files devices) {d : Device} (hd : d ∈ devices) :
    d.Numbered where
  tags := h.compiles.tags d hd
  ids := by
    intro i op hop
    rcases List.mem_iff_getElem?.mp hd with ⟨j, hj⟩
    rcases (generateFrom_device h.generated hj).2 with ⟨c, hc⟩
    exact (parseHeaderDevice_operation hc hop).1

theorem id_eq (h : Generated value typeOf files devices) {i : Nat} {d : Device}
    (hd : devices[i]? = some d) : d.id = i + 2 :=
  (generateFrom_device h.generated hd).1.trans (Nat.add_comm 2 i)

/-- A command with the numbers of an operation calls it. -/
theorem executeServer_known (h : Generated value typeOf files devices) (hsess : WellTyped sess)
    {d : Device} (hd : d ∈ devices) {op : DeviceOperation} (hop : op ∈ d.operations)
    (members : Nat → List Char → Members) (s : σ) :
    executeServer sess slots typeOf devices members d.id op.id s =
      calls sess slots typeOf d.id op s := by
  rcases List.mem_iff_getElem?.mp hd with ⟨i, hi⟩
  rcases List.mem_iff_getElem?.mp hop with ⟨j, hj⟩
  have hid := h.id_eq hi
  have hnumbered := h.numbered hd
  rw [executeServer, if_neg (by omega), if_neg (by omega), hid,
    kdevice_eq h.compiles.names_nodup, hi, hnumbered.ids j op hj, ← hid]
  exact executeKDevice_known hsess hnumbered hj (h.compiles.compiled hd hop) _ s

/-- A command for a device with any other number ends with -1, and takes nothing. -/
theorem executeServer_unknown (h : Generated value typeOf files devices) {device operation : Nat}
    (htwo : 2 ≤ device) (hlt : device < devices.length + 2)
    (hnone : ¬∃ d ∈ devices, d.id = device ∧ ∃ op ∈ d.operations, op.id = operation)
    (members : Nat → List Char → Members) (s : σ) :
    executeServer sess slots typeOf devices members device operation s = .ok (.unknown, s) := by
  obtain ⟨i, rfl⟩ : ∃ i, device = i + 2 := ⟨device - 2, by omega⟩
  have hd : devices[i]? = some devices[i] := List.getElem?_eq_getElem (by omega)
  have hmem := List.mem_of_getElem? hd
  have hnumbered := h.numbered hmem
  have hop : devices[i].operations[operation]? = none := by
    cases hop : devices[i].operations[operation]? with
    | none => rfl
    | some op =>
        exact absurd ⟨devices[i], hmem, h.id_eq hd, op, List.mem_of_getElem? hop,
          hnumbered.ids operation op hop⟩ hnone
  rw [executeServer, if_neg (by omega), if_neg (by omega), kdevice_eq h.compiles.names_nodup, hd]
  exact executeKDevice_unknown hnumbered hop _ s

end Generated

/-! ## The server of the sessions -/

def Ended.outcome : Ended → Outcome
  | .rejected => .rejected
  | .called _ args => .called args
  | .sent _ _ _ args => .called args

def Answer.outcome : Answer → Outcome
  | .noDevice => .noDevice
  | .kserver outcome => outcome
  | .unknown => .unknown
  | .ended e => e.outcome

theorem DeviceOperation.ended_outcome (op : DeviceOperation) (devId : Nat) (args : List Arg) :
    (op.ended devId args).outcome = .called args := by
  unfold DeviceOperation.ended
  split
  case isTrue => rfl
  case isFalse => rfl

theorem calls_outcome (devId : Nat) (op : DeviceOperation) (s : σ) :
    (calls sess slots typeOf devId op s).map (fun r => (r.1.outcome, r.2)) =
      ((executeOp sess slots (op.signature typeOf) s).map fun r =>
        (r.1.outcome, r.2)).mapError Stop.abort := by
  rw [calls]
  cases executeOp sess slots (op.signature typeOf) s with
  | error e => rfl
  | ok result =>
      rcases result with ⟨parsed, s'⟩
      cases parsed with
      | rejected => rfl
      | called args =>
          simp only [behindPacks, Except.map, Except.mapError, Answer.outcome, op.ended_outcome]
          rfl

theorem executeDevice_some {operations : List Wire.Operation} {operation : Nat}
    {op : Wire.Operation}
    (hop : operations[operation]? = some op) (s : σ) :
    executeDevice sess operations slots operation s =
      (executeOp sess slots op.arguments s).map fun r => (r.1.outcome, r.2) := by
  rw [executeDevice, hop]
  simp only
  cases executeOp sess slots op.arguments s with
  | error e => rfl
  | ok result => rfl

/-- The table that a session dispatches on has the types of the operations. -/
def TableOf (typeOf : List Char → ArgType) (devices : List Device) (table : DeviceTable) : Prop :=
  table.map (fun operations => operations.map Wire.Operation.arguments) =
    devices.map fun d => d.operations.map fun op => op.signature typeOf

/-- The generated server does with a command what the server of the sessions does with it. -/
theorem Generated.executeServer_outcome {files : List HeaderFile}
    (h : Generated value typeOf files devices) (hsess : WellTyped sess) {table : DeviceTable}
    (htable : TableOf typeOf devices table) (members : Nat → List Char → Members)
    (device operation : Nat) (s : σ) :
    (executeServer sess slots typeOf devices members device operation s).map
        (fun r => (r.1.outcome, r.2)) =
      (execute sess table slots device operation s).mapError Stop.abort := by
  match device with
  | 0 => rfl
  | 1 =>
      rw [executeServer, execute]
      simp only [Nat.one_ne_zero, if_false, if_true]
      cases executeKServer sess slots operation s with
      | error e => rfl
      | ok result => rfl
  | i + 2 =>
      have hrow := congrArg (fun rows => rows[i]?) htable
      simp only [List.getElem?_map] at hrow
      rw [executeServer, execute, if_neg (by omega), if_neg (by omega), if_neg (by omega),
        if_neg (by omega), kdevice_eq h.compiles.names_nodup, Nat.add_sub_cancel]
      cases hd : devices[i]? with
      | none =>
          rw [hd, Option.map_none, Option.map_eq_none_iff] at hrow
          rw [hrow]
          rfl
      | some d =>
          rw [hd, Option.map_some, Option.map_eq_some_iff] at hrow
          rcases hrow with ⟨operations, hoperations, harguments⟩
          have hmem := List.mem_of_getElem? hd
          have hnumbered := h.numbered hmem
          have hentry := congrArg (fun row => row[operation]?) harguments
          simp only [List.getElem?_map] at hentry
          rw [hoperations]
          simp only
          cases hop : d.operations[operation]? with
          | none =>
              rw [hop, Option.map_none, Option.map_eq_none_iff] at hentry
              rw [executeKDevice_unknown hnumbered hop, executeDevice, hentry]
              rfl
          | some op =>
              rw [hop, Option.map_some, Option.map_eq_some_iff] at hentry
              rcases hentry with ⟨op', hop', hsignature⟩
              rw [executeKDevice_known hsess hnumbered hop
                (h.compiles.compiled hmem (List.mem_of_getElem? hop)), calls_outcome,
                executeDevice_some hop', hsignature]

end

/-! ## One device -/

/-- A filter with a constructor, `void set_taps(uint32_t u, std::array<float, 10> arr, double d)`
and `float gain()`. -/
def firFilter : Class where
  name := "FirFilter".toList
  publicMethods :=
    [⟨"FirFilter".toList, [], false, []⟩,
      ⟨"set_taps".toList, "void".toList, false,
        [⟨"u".toList, "uint32_t".toList⟩, ⟨"arr".toList, "std::array<float, 10>".toList⟩,
          ⟨"d".toList, "double".toList⟩]⟩,
      ⟨"gain".toList, "float".toList, false, []⟩]

def tapsArguments : List Argument :=
  [byValue "u".toList "uint32_t".toList, byValue "arr".toList "std::array<float, 10>".toList,
    byValue "d".toList "double".toList]

def setTaps : DeviceOperation where
  tag := "SET_TAPS".toList
  name := "set_taps".toList
  retType := "void".toList
  arguments := some tapsArguments
  argsClient := some [⟨"u".toList, "uint32_t".toList⟩,
    ⟨"arr".toList, "std::array<float, \" <<  10 << \">".toList⟩, ⟨"d".toList, "double".toList⟩]
  id := 0

def gain : DeviceOperation where
  tag := "GAIN".toList
  name := "gain".toList
  retType := "float".toList
  arguments := none
  argsClient := none
  id := 1

def firFilterDevice : Device where
  name := "FirFilter".toList
  tag := "FIR_FILTER".toList
  id := 2
  operations := [setTaps, gain]

def firFilterType (s : List Char) : ArgType :=
  if s = "uint32_t".toList then .scalar .uint32
  else if s = "double".toList then .scalar .double
  else .array .float 10

theorem declares_tapsArguments :
    ∀ arg ∈ tapsArguments, Declares sampleValue arg.type (firFilterType arg.type) := by
  have hspells : Spells ["std::array".toList, ['<'], "float".toList, [','], "10".toList, ['>']]
      "std::array<float, 10>".toList :=
    .cons (b := []) blank_nil (.cons (b := []) blank_nil (.cons (b := []) blank_nil
      (.cons (b := []) blank_nil (.cons (b := [' ']) (by decide) (.cons (b := []) blank_nil
        (.nil blank_nil) (by decide)) (by decide)) (by decide)) (by decide)) (by decide)) (by decide)
  have harray : Declares sampleValue "std::array<float, 10>".toList (.array .float 10) :=
    .array .float (by decide) (by decide) (by decide) hspells
  have htypes : tapsArguments.map (fun arg => firFilterType arg.type) =
      [.scalar .uint32, .array .float 10, .scalar .double] := by decide +kernel
  have hdeclares : List.Forall₂ (fun (arg : Argument) ty => Declares sampleValue arg.type ty)
      tapsArguments [.scalar .uint32, .array .float 10, .scalar .double] :=
    .cons (.scalar .uint32 (spells_name .uint32))
      (.cons harray (.cons (.scalar .double (spells_name .double)) .nil))
  rw [← htypes, List.forall₂_map_right_iff] at hdeclares
  exact List.forall₂_same.mp hdeclares

theorem firFilter_generated :
    Generated sampleValue firFilterType
      [⟨"filters/fir.cpp".toList, []⟩, ⟨"filters/fir.hpp".toList, [firFilter]⟩]
      [firFilterDevice] where
  generated := by rfl
  compiles := {
    classes := by decide +kernel
    tags := by decide +kernel
    members := by decide +kernel
    types := by
      intro d hd op hop
      obtain rfl := List.mem_singleton.mp hd
      rcases List.mem_cons.mp hop with rfl | hop
      · exact declares_tapsArguments
      · obtain rfl := List.mem_singleton.mp hop
        exact List.forall_mem_nil _ }

def firFilterTable : DeviceTable :=
  [[⟨[.scalar .uint32, .array .float 10, .scalar .double], by decide, by decide⟩,
    ⟨[], by decide, by decide⟩]]

def earlierTaps : Members := fun name =>
  if name = "u".toList then some (.scalar .uint32 7#32)
  else if name = "arr".toList then some (.array .float 10 (List.replicate 40 9) rfl)
  else if name = "d".toList then some (.scalar .double 5#64)
  else none

def tapsBytes : Bytes := (List.range 52).map (BitVec.ofNat 8)

theorem firFilter_outcome :
    ((executeServer Tcp.session (fun _ => ⟨fun _ => 0, []⟩) firFilterType [firFilterDevice]
        (fun _ _ => earlierTaps) 2 0 (.ofBytes tapsBytes)).map fun r => (r.1.outcome, r.2)) =
      (execute Tcp.session firFilterTable (fun _ => ⟨fun _ => 0, []⟩) 2 0
        (.ofBytes tapsBytes)).mapError Stop.abort ∧
      (execute Tcp.session firFilterTable (fun _ => ⟨fun _ => 0, []⟩) 2 0
        (.ofBytes tapsBytes)).toOption.map (fun r => r.1.executed) = some true :=
  ⟨firFilter_generated.executeServer_outcome tcp_wellTyped (by unfold TableOf; decide +kernel) _ 2 0 _,
    by decide +kernel⟩

end KoheronServer.Devgen
