import KoheronServer.Devgen.GeneratedServer
import Mathlib.Data.List.Find

/-!
# Calls by name

A client reads the table of commands and looks a function of a class up by its name. The numbers
that it finds are those of the generated server, which calls what was looked up.
-/

namespace KoheronServer.Devgen

open Foundation Wire Session

/-! ## Looking up -/

def member (key : String) : Json → Option Json
  | .object members => (members.find? fun m => m.1 = key.toList).map Prod.snd
  | _ => none

def hasString (key : String) (s : List Char) (j : Json) : Bool :=
  match member key j with
  | some (.string t) => t = s
  | _ => false

def number (key : String) (j : Json) : Option Nat :=
  match member key j with
  | some (.number n) => some n
  | _ => none

def items : Option Json → List Json
  | some (.array items) => items
  | _ => []

def lookupIds (table : Json) (className function : List Char) : Option (Nat × Nat) := do
  let device ← (items (some table)).find? (hasString "class" className)
  let devId ← number "id" device
  let entry ← (items (member "functions" device)).find? (hasString "name" function)
  let id ← number "id" entry
  return (devId, id)

/-! ## Dictionaries -/

theorem mapItems_eq_map (f : List Char → List Char) (js : List Json) :
    Json.mapItems f js = js.map (Json.mapStrings f) := by
  induction js with
  | nil => rfl
  | cons j js ih => rw [Json.mapItems, ih, List.map_cons]

theorem member_mapStrings (f : List Char → List Char) (key : String) (j : Json) :
    member key (j.mapStrings f) = (member key j).map (Json.mapStrings f) := by
  cases j with
  | object members =>
      rw [Json.mapStrings, member, member]
      induction members with
      | nil => rfl
      | cons m members ih =>
          rcases m with ⟨k, v⟩
          rw [Json.mapMembers]
          by_cases hkey : k = key.toList
          · rw [List.find?_cons_of_pos (by simpa using hkey), List.find?_cons_of_pos (by simpa using hkey)]
            rfl
          · rw [List.find?_cons_of_neg (by simpa using hkey), List.find?_cons_of_neg (by simpa using hkey)]
            exact ih
  | number n => rfl
  | string s => rfl
  | array items => rfl

/-- A key of a dictionary has its value in any order. -/
theorem member_dict (order : DictOrder) (f : List Char → List Char) {members : List (String × Json)}
    (hnodup : (members.map fun m => m.1.toList).Nodup) {key : String} {v : Json}
    (hm : (key, v) ∈ members) :
    member key ((dict order members).mapStrings f) = some (v.mapStrings f) := by
  have hperm := order.perm (members.map fun m => (m.1.toList, m.2))
  have hkeys : ((order.order (members.map fun m => (m.1.toList, m.2))).map Prod.fst).Nodup := by
    rw [(hperm.map Prod.fst).nodup_iff, List.map_map]
    exact hnodup
  have hmem : (key.toList, v) ∈ order.order (members.map fun m => (m.1.toList, m.2)) :=
    hperm.mem_iff.mpr (List.mem_map_of_mem (f := fun m => (m.1.toList, m.2)) hm)
  have hfind : (order.order (members.map fun m => (m.1.toList, m.2))).find?
      (fun e => e.1 = key.toList) = some (key.toList, v) := find?_of_nodup hkeys hmem
  rw [member_mapStrings, dict, member, hfind]
  rfl

theorem deviceKeys_nodup : ["class".toList, "id".toList, "functions".toList].Nodup := by
  decide +kernel

theorem functionKeys_nodup :
    ["name".toList, "id".toList, "ret_type".toList, "args".toList].Nodup ∧
      ["name".toList, "id".toList, "args".toList, "ret_type".toList].Nodup := by
  decide +kernel

structure SeesClass (name : List Char) (id : Nat) (functions : List Json) (j : Json) : Prop where
  named : ∀ s, hasString "class" s j = decide (name = s)
  id : number "id" j = some id
  functions : items (member "functions" j) = functions

structure SeesFunction (name : List Char) (id : Nat) (j : Json) : Prop where
  named : ∀ s, hasString "name" s j = decide (name = s)
  id : number "id" j = some id

section

variable {order : DictOrder} {f : List Char → List Char} {members : List (String × Json)}
variable {name : List Char} {id : Nat}

theorem hasString_dict (hnodup : (members.map fun m => m.1.toList).Nodup) (hname : f name = name)
    {key : String} (h : (key, .string name) ∈ members) (s : List Char) :
    hasString key s ((dict order members).mapStrings f) = decide (name = s) := by
  rw [hasString, member_dict order f hnodup h, Json.mapStrings, hname]

theorem number_dict (hnodup : (members.map fun m => m.1.toList).Nodup) {key : String}
    (h : (key, .number id) ∈ members) :
    number key ((dict order members).mapStrings f) = some id := by
  rw [number, member_dict order f hnodup h, Json.mapStrings]

theorem seesFunction_operation (d : Device) {op : DeviceOperation} (hname : f op.name = op.name) :
    SeesFunction op.name op.id ((operationJson order d op).mapStrings f) := by
  have hnodup : (([("name", .string op.name), ("id", .number op.id),
      ("ret_type", .string (formatRetType d.name op.toOperation)),
      ("args", .array ((op.argsClient.getD []).map (clientArgJson order)))] :
      List (String × Json)).map fun m => m.1.toList).Nodup := functionKeys_nodup.1
  exact ⟨hasString_dict hnodup hname (by simp), number_dict hnodup (by simp)⟩

theorem seesFunction_kserver {name : String} {args : List Json} {retType : String}
    (hname : f name.toList = name.toList) :
    SeesFunction name.toList id ((kserverFunction order name id args retType).mapStrings f) := by
  have hnodup : (([("name", .string name.toList), ("id", .number id), ("args", .array args),
      ("ret_type", .string retType.toList)] : List (String × Json)).map fun m => m.1.toList).Nodup :=
    functionKeys_nodup.2
  exact ⟨hasString_dict hnodup hname (by simp), number_dict hnodup (by simp)⟩

theorem seesClass_dict (hname : f name = name) (functions : List Json) :
    SeesClass name id (functions.map (Json.mapStrings f))
      ((dict order [("class", .string name), ("id", .number id),
        ("functions", .array functions)]).mapStrings f) := by
  have hnodup : (([("class", .string name), ("id", .number id), ("functions", .array functions)] :
      List (String × Json)).map fun m => m.1.toList).Nodup := deviceKeys_nodup
  refine ⟨hasString_dict hnodup hname (by simp), number_dict hnodup (by simp), ?_⟩
  have hfunctions := member_dict order f hnodup (List.mem_cons_of_mem _ (List.mem_cons_of_mem _
    List.mem_cons_self))
  rw [hfunctions, Json.mapStrings, items, mapItems_eq_map]

end

/-! ## The table -/

/-- The classes of the table: the server itself, and the devices. -/
theorem items_jsonData (order : DictOrder) (f : List Char → List Char) (devices : List Device) :
    items (some ((jsonData order devices).mapStrings f)) =
      (kserverJson order).mapStrings f ::
        devices.map fun d => (deviceJson order d).mapStrings f := by
  rw [jsonData, Json.mapStrings, items, mapItems_eq_map, List.map_cons, List.map_map]
  rfl

theorem find_function {functions : List (List Char × Nat)} {js : List Json}
    (h : List.Forall₂ (fun x j => SeesFunction x.1 x.2 j) functions js) (function : List Char) :
    (js.find? (hasString "name" function)).bind (number "id") =
      (functions.find? fun x => x.1 = function).map Prod.snd := by
  induction h with
  | nil => rfl
  | @cons x j functions js hx _ ih =>
      by_cases hname : x.1 = function
      · rw [List.find?_cons_of_pos (by rw [hx.named, decide_eq_true hname]),
          List.find?_cons_of_pos (by simpa using hname), Option.bind_some, hx.id]
        rfl
      · rw [List.find?_cons_of_neg (by rw [hx.named, decide_eq_false hname]; decide),
          List.find?_cons_of_neg (by simpa using hname)]
        exact ih

/-- What is looked up in a class that is there. -/
theorem lookupIds_of_find {table j : Json} {className : List Char} {devId : Nat} {js : List Json}
    {functions : List (List Char × Nat)}
    (hfind : (items (some table)).find? (hasString "class" className) = some j)
    (hsees : SeesClass className devId js j)
    (hfunctions : List.Forall₂ (fun x j => SeesFunction x.1 x.2 j) functions js)
    (function : List Char) :
    lookupIds table className function =
      (functions.find? fun x => x.1 = function).map fun x => (devId, x.2) := by
  have hfunction := congrArg (Option.map fun id => (devId, id)) (find_function hfunctions function)
  rw [Option.map_map] at hfunction
  simp only [lookupIds, hfind, Option.bind_eq_bind, Option.bind_some, hsees.id, hsees.functions]
  refine Eq.trans ?_ hfunction
  cases js.find? (hasString "name" function) with
  | none => rfl
  | some entry =>
      rw [Option.bind_some, Option.bind_some]
      cases number "id" entry with
      | none => rfl
      | some id => rfl

def kserverFunctions : List (String × Nat) :=
  [("get_version", 0), ("get_cmds", 1), ("get_stats", 2), ("get_dev_status", 3),
    ("get_running_sessions", 4), ("subscribe_pubsub", 5), ("pubsub_ping", 6)]

structure Shown (f : List Char → List Char) (devices : List Device) : Prop where
  kserver : f "KServer".toList = "KServer".toList
  functions : ∀ x ∈ kserverFunctions, f x.1.toList = x.1.toList
  classes : ∀ d ∈ devices, f d.name = d.name
  operations : ∀ d ∈ devices, ∀ op ∈ d.operations, f op.name = op.name

section

variable {order : DictOrder} {f : List Char → List Char} {devices : List Device}

theorem lookupIds_kserver (h : Shown f devices) (function : List Char) :
    lookupIds ((jsonData order devices).mapStrings f) "KServer".toList function =
      ((kserverFunctions.map fun x => (x.1.toList, x.2)).find? fun x => x.1 = function).map
        fun x => (1, x.2) := by
  have hsees := @seesClass_dict order f _ 1 h.kserver
    [kserverFunction order "get_version" 0 [] "const char *",
      kserverFunction order "get_cmds" 1 [] "std::string",
      kserverFunction order "get_stats" 2 [] "const char *",
      kserverFunction order "get_dev_status" 3 [] "void",
      kserverFunction order "get_running_sessions" 4 [] "const char *",
      kserverFunction order "subscribe_pubsub" 5
        [dict order [("name", .string "channel".toList), ("type", .string "uint32_t".toList)]] "void",
      kserverFunction order "pubsub_ping" 6 [] "void"]
  apply lookupIds_of_find _ hsees
  · have hall := h.functions
    simp only [kserverFunctions, List.forall_mem_cons] at hall
    rcases hall with ⟨h₀, h₁, h₂, h₃, h₄, h₅, h₆, -⟩
    exact .cons (seesFunction_kserver h₀) (.cons (seesFunction_kserver h₁)
      (.cons (seesFunction_kserver h₂) (.cons (seesFunction_kserver h₃)
        (.cons (seesFunction_kserver h₄) (.cons (seesFunction_kserver h₅)
          (.cons (seesFunction_kserver h₆) .nil))))))
  · rw [items_jsonData]
    apply List.find?_cons_of_pos
    exact (hsees.named _).trans (decide_eq_true rfl)

theorem lookupIds_device (h : Shown f devices) {className : List Char}
    (hclass : className ≠ "KServer".toList) (function : List Char) :
    lookupIds ((jsonData order devices).mapStrings f) className function =
      (devices.find? fun d => d.name = className).bind fun d =>
        (d.operations.find? fun op => op.name = function).map fun op => (d.id, op.id) := by
  have hkserver : hasString "class" className ((kserverJson order).mapStrings f) = false := by
    have hsees := @seesClass_dict order f _ 1 h.kserver
    exact ((hsees _).named className).trans (decide_eq_false fun heq => hclass heq.symm)
  have hfind : (items (some ((jsonData order devices).mapStrings f))).find?
      (hasString "class" className) =
      (devices.find? fun d => d.name = className).map fun d =>
        (deviceJson order d).mapStrings f := by
    rw [items_jsonData, List.find?_cons_of_neg (by rw [hkserver]; decide)]
    rw [List.find?_map]
    congr 1
    apply List.find?_congr
    intro d hd
    exact (seesClass_dict (h.classes d hd) _).named className
  cases hd : devices.find? fun d => d.name = className with
  | none =>
      rw [hd] at hfind
      simp only [lookupIds, hfind, Option.map_none, Option.bind_eq_bind, Option.bind_none]
  | some d =>
      have hmem := List.mem_of_find?_eq_some hd
      have hname : d.name = className := by simpa using List.find?_some hd
      subst hname
      rw [hd, Option.map_some] at hfind
      have hfunctions : List.Forall₂ (fun x j => SeesFunction x.1 x.2 j)
          (d.operations.map fun op => (op.name, op.id))
          ((d.operations.map (operationJson order d)).map (Json.mapStrings f)) := by
        rw [List.map_map, List.forall₂_map_left_iff, List.forall₂_map_right_iff]
        exact List.forall₂_same.mpr fun op hop =>
          seesFunction_operation d (h.operations d hmem op hop)
      rw [lookupIds_of_find hfind (seesClass_dict (h.classes d hmem) _) hfunctions, List.find?_map,
        Option.map_map]
      rfl

end

/-! ## Calls -/

def kserverName : KServerOp → List Char
  | .getVersion => "get_version".toList
  | .getCmds => "get_cmds".toList
  | .getStats => "get_stats".toList
  | .getDevStatus => "get_dev_status".toList
  | .getRunningSessions => "get_running_sessions".toList
  | .subscribePubsub => "subscribe_pubsub".toList
  | .pubsubPing => "pubsub_ping".toList

/-- The calls that a table stands for. -/
structure CallsByName {σ : Type} (table : Json) (typeOf : List Char → ArgType)
    (devices : List Device) (sess : SessionAbstract σ) (slots : Nat → Slot)
    (members : Nat → List Char → Members) : Prop where
  found : ∀ d ∈ devices, ∀ op ∈ d.operations, lookupIds table d.name op.name = some (d.id, op.id)
  called : ∀ className function dev id, className ≠ "KServer".toList →
    lookupIds table className function = some (dev, id) →
    ∃ d ∈ devices, d.name = className ∧ ∃ op ∈ d.operations, op.name = function ∧
      ∀ s, executeServer sess slots typeOf devices members dev id s =
        calls sess slots typeOf dev op s
  unknown : ∀ dev id, 2 ≤ dev → dev < devices.length + 2 →
    (∀ className function, lookupIds table className function ≠ some (dev, id)) →
    ∀ s, executeServer sess slots typeOf devices members dev id s = .ok (.unknown, s)
  kserver : ∀ op : KServerOp, ∃ id,
    lookupIds table "KServer".toList (kserverName op) = some (1, id) ∧ KServerOp.ofId id = some op

theorem shown_identifiers (text : List Char → List Char) {devices : List Device}
    (h : ∀ d ∈ devices, Identifier d.name ∧ ∀ op ∈ d.operations, Identifier op.name) :
    Shown (denote text) devices where
  kserver := denote_verbatim (verbatim_of_identifier (by decide +kernel))
  functions := by
    have hall : ∀ x ∈ kserverFunctions, Identifier x.1.toList := by decide +kernel
    exact fun x hx => denote_verbatim (verbatim_of_identifier (hall x hx))
  classes d hd := denote_verbatim (verbatim_of_identifier (h d hd).1)
  operations d hd op hop := denote_verbatim (verbatim_of_identifier ((h d hd).2 op hop))

/-- Operations with distinct tags have distinct names. -/
theorem Generated.names_nodup {value : List Char → Option Nat} {typeOf : List Char → ArgType}
    {files : List HeaderFile} {devices : List Device} (h : Generated value typeOf files devices)
    {d : Device} (hd : d ∈ devices) : (d.operations.map fun op => op.name).Nodup := by
  have htags := h.compiles.tags d hd
  have hupper : d.operations.map (fun op => op.tag) =
      (d.operations.map fun op => op.name).map upper := by
    rw [List.map_map]
    apply List.map_congr_left
    intro op hop
    rcases List.mem_iff_getElem?.mp hop with ⟨j, hj⟩
    rcases List.mem_iff_getElem?.mp hd with ⟨i, hi⟩
    rcases (generateFrom_device h.generated hi).2 with ⟨c, hc⟩
    exact (parseHeaderDevice_operation hc hj).2
  rw [hupper] at htags
  exact htags.of_map upper

/-- The table that clients read has the numbers of the generated server: what is looked up by its
names is called, and what is not in the table is not. -/
theorem calls_by_name {value : List Char → Option Nat} {typeOf : List Char → ArgType}
    {files : List HeaderFile} {devices : List Device} (h : Generated value typeOf files devices)
    (hnames : ∀ d ∈ devices, Identifier d.name ∧ ∀ op ∈ d.operations, Identifier op.name)
    {σ : Type} {sess : SessionAbstract σ} (hsess : WellTyped sess) (order : DictOrder)
    (text : List Char → List Char) (slots : Nat → Slot) (members : Nat → List Char → Members) :
    CallsByName ((jsonData order devices).mapStrings (denote text)) typeOf devices sess slots
      members := by
  have hshown := shown_identifiers text hnames
  have hserver : ∀ d ∈ devices, d.name ≠ "KServer".toList := by
    intro d hd heq
    have hnot := (List.nodup_cons.mp (List.nodup_cons.mp h.compiles.classes).2).1
    exact hnot (heq ▸ List.mem_map_of_mem (f := fun d => d.name) hd)
  have hfound : ∀ d ∈ devices, ∀ op ∈ d.operations,
      lookupIds ((jsonData order devices).mapStrings (denote text)) d.name op.name =
        some (d.id, op.id) := by
    intro d hd op hop
    have hdevice : devices.find? (fun e => e.name = d.name) = some d :=
      find?_of_nodup h.compiles.names_nodup hd
    have hop' : d.operations.find? (fun e => e.name = op.name) = some op :=
      find?_of_nodup (h.names_nodup hd) hop
    rw [lookupIds_device hshown (hserver d hd), hdevice, Option.bind_some, hop']
    rfl
  constructor
  · exact hfound
  · intro className function dev id hclass hlookup
    rw [lookupIds_device hshown hclass, Option.bind_eq_some_iff] at hlookup
    rcases hlookup with ⟨d, hd, hentry⟩
    rw [Option.map_eq_some_iff] at hentry
    rcases hentry with ⟨op, hop, hids⟩
    have hmem := List.mem_of_find?_eq_some hd
    have hmem' := List.mem_of_find?_eq_some hop
    have hname : d.name = className := by simpa using List.find?_some hd
    have hname' : op.name = function := by simpa using List.find?_some hop
    cases hids
    exact ⟨d, hmem, hname, op, hmem', hname', h.executeServer_known hsess hmem hmem' members⟩
  · intro dev id htwo hlt hnone s
    apply h.executeServer_unknown htwo hlt
    intro hknown
    rcases hknown with ⟨d, hd, rfl, op, hop, rfl⟩
    exact hnone d.name op.name (hfound d hd op hop)
  · intro op
    have hkserver := @lookupIds_kserver order _ devices hshown
    cases op with
    | getVersion => exact ⟨0, (hkserver _).trans (by decide +kernel), rfl⟩
    | getCmds => exact ⟨1, (hkserver _).trans (by decide +kernel), rfl⟩
    | getStats => exact ⟨2, (hkserver _).trans (by decide +kernel), rfl⟩
    | getDevStatus => exact ⟨3, (hkserver _).trans (by decide +kernel), rfl⟩
    | getRunningSessions => exact ⟨4, (hkserver _).trans (by decide +kernel), rfl⟩
    | subscribePubsub => exact ⟨5, (hkserver _).trans (by decide +kernel), rfl⟩
    | pubsubPing => exact ⟨6, (hkserver _).trans (by decide +kernel), rfl⟩

/-- A client looks `gain` up, and the server sends what `gain()` returns under these numbers. -/
theorem firFilter_calls :
    lookupIds ((jsonData literalOrder [firFilterDevice]).mapStrings (denote filterCompiler.shown))
        "FirFilter".toList "gain".toList = some (2, 1) ∧
      CallsByName ((jsonData literalOrder [firFilterDevice]).mapStrings (denote filterCompiler.shown))
        firFilterType [firFilterDevice] Tcp.session (fun _ => ⟨fun _ => 0, []⟩) fun _ _ _ => none :=
  ⟨by decide +kernel,
    calls_by_name firFilter_generated (by decide +kernel) tcp_wellTyped literalOrder filterCompiler.shown _ _⟩

end KoheronServer.Devgen
