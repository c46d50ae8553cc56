import KoheronServer.Config.KServerConfig
import KoheronServer.Foundation.Assignments
import Mathlib.Data.List.Nodup

/-!
# The keys of the configuration

What the keys of a configuration file mean: each one that is recognised sets a field.
`load_file` does so, but for the path of `notify-socket`, which goes to the field of
the Unix socket, and for a path that just does not fit.
-/

namespace KoheronServer.Config

open Foundation

inductive Field where
  | verbose
  | tcpNodelay
  | syslog
  | daemon
  | notifySystemd
  | notifySocket
  | tcpPort
  | tcpWorkerConnections
  | websockPort
  | websockWorkerConnections
  | unixsockPath
  | unixsockWorkerConnections
  deriving DecidableEq

inductive FieldValue where
  | flag (b : Bool)
  | number (n : BitVec 32)
  | path (p : List Char)
  deriving DecidableEq

inductive Setting where
  | verbose (b : Bool)
  | tcpNodelay (b : Bool)
  | syslog (b : Bool)
  | daemon (b : Bool)
  | notifySystemd (b : Bool)
  | notifySocket (p : List Char)
  | tcpPort (n : BitVec 32)
  | tcpWorkerConnections (n : BitVec 32)
  | websockPort (n : BitVec 32)
  | websockWorkerConnections (n : BitVec 32)
  | unixsockPath (p : List Char)
  | unixsockWorkerConnections (n : BitVec 32)
  deriving DecidableEq

def KServerConfig.get (config : KServerConfig) : Field → FieldValue
  | .verbose => .flag config.verbose
  | .tcpNodelay => .flag config.tcpNodelay
  | .syslog => .flag config.syslog
  | .daemon => .flag config.daemon
  | .notifySystemd => .flag config.notifySystemd
  | .notifySocket => .path config.notifySocket
  | .tcpPort => .number config.tcpPort
  | .tcpWorkerConnections => .number config.tcpWorkerConnections
  | .websockPort => .number config.websockPort
  | .websockWorkerConnections => .number config.websockWorkerConnections
  | .unixsockPath => .path config.unixsockPath
  | .unixsockWorkerConnections => .number config.unixsockWorkerConnections

namespace Setting

def field : Setting → Field
  | verbose _ => .verbose
  | tcpNodelay _ => .tcpNodelay
  | syslog _ => .syslog
  | daemon _ => .daemon
  | notifySystemd _ => .notifySystemd
  | notifySocket _ => .notifySocket
  | tcpPort _ => .tcpPort
  | tcpWorkerConnections _ => .tcpWorkerConnections
  | websockPort _ => .websockPort
  | websockWorkerConnections _ => .websockWorkerConnections
  | unixsockPath _ => .unixsockPath
  | unixsockWorkerConnections _ => .unixsockWorkerConnections

def value : Setting → FieldValue
  | verbose b | tcpNodelay b | syslog b | daemon b | notifySystemd b => .flag b
  | notifySocket p | unixsockPath p => .path p
  | tcpPort n | tcpWorkerConnections n | websockPort n | websockWorkerConnections n
  | unixsockWorkerConnections n => .number n

def apply : Setting → KServerConfig → KServerConfig
  | verbose b, config => { config with verbose := b }
  | tcpNodelay b, config => { config with tcpNodelay := b }
  | syslog b, config => { config with syslog := b }
  | daemon b, config => { config with daemon := b }
  | notifySystemd b, config => { config with notifySystemd := b }
  | notifySocket p, config => { config with notifySocket := p }
  | tcpPort n, config => { config with tcpPort := n }
  | tcpWorkerConnections n, config => { config with tcpWorkerConnections := n }
  | websockPort n, config => { config with websockPort := n }
  | websockWorkerConnections n, config => { config with websockWorkerConnections := n }
  | unixsockPath p, config => { config with unixsockPath := p }
  | unixsockWorkerConnections n, config => { config with unixsockWorkerConnections := n }

end Setting

theorem KServerConfig.ext_get {config config' : KServerConfig}
    (h : ∀ f, config.get f = config'.get f) : config = config' := by
  cases config with
  | mk =>
    cases config' with
    | mk =>
      simp only [KServerConfig.mk.injEq]
      exact ⟨FieldValue.flag.inj (h .verbose), FieldValue.flag.inj (h .tcpNodelay),
        FieldValue.flag.inj (h .syslog), FieldValue.flag.inj (h .daemon),
        FieldValue.flag.inj (h .notifySystemd), FieldValue.path.inj (h .notifySocket),
        FieldValue.number.inj (h .tcpPort), FieldValue.number.inj (h .tcpWorkerConnections),
        FieldValue.number.inj (h .websockPort), FieldValue.number.inj (h .websockWorkerConnections),
        FieldValue.path.inj (h .unixsockPath), FieldValue.number.inj (h .unixsockWorkerConnections)⟩

theorem Setting.get_apply_self (a : Setting) (config : KServerConfig) :
    (a.apply config).get a.field = a.value := by
  cases a <;> rfl

theorem Setting.get_apply_of_ne (a : Setting) (config : KServerConfig) (f : Field)
    (hne : f ≠ a.field) : (a.apply config).get f = config.get f := by
  cases a <;> cases f <;> first | rfl | exact absurd rfl hne

def configFields : Assignments KServerConfig Setting Field FieldValue where
  get := KServerConfig.get
  apply := Setting.apply
  field := Setting.field
  value := Setting.value
  get_apply_self := Setting.get_apply_self
  get_apply_of_ne := Setting.get_apply_of_ne

/-! ## Recognised keys -/

def Field.key : Field → String
  | verbose => "verbose"
  | tcpNodelay => "tcp_nodelay"
  | daemon => "daemon"
  | notifySystemd => "notify-systemd"
  | notifySocket => "notify-socket"
  | syslog => "logs"
  | tcpPort | tcpWorkerConnections => "TCP"
  | websockPort | websockWorkerConnections => "websocket"
  | unixsockPath | unixsockWorkerConnections => "unix"

def Field.innerKey : Field → String
  | syslog => "system_log"
  | tcpPort | websockPort => "listen"
  | unixsockPath => "path"
  | tcpWorkerConnections | websockWorkerConnections | unixsockWorkerConnections =>
      "worker_connections"
  | verbose | tcpNodelay | daemon | notifySystemd | notifySocket => ""

/-- The fields that are keys of the file, and those that are keys of an object in it. -/
def outerFields : List Field := [.verbose, .tcpNodelay, .daemon, .notifySystemd, .notifySocket]

def innerFields : List Field :=
  [.syslog, .tcpPort, .tcpWorkerConnections, .websockPort, .websockWorkerConnections, .unixsockPath,
    .unixsockWorkerConnections]

section

variable {D : Type} (toUnsigned : D → Option (BitVec 32))

/-- A path that `load_file` accepts. -/
def validPath : JsonValue D → Option (List Char)
  | .string s => if checkUnixsocketPath (cString s) = none then some (cString s) else none
  | _ => none

def validNumber : JsonValue D → Option (BitVec 32)
  | .number x => toUnsigned x
  | _ => none

def Field.setting (value : JsonValue D) : Field → Option Setting
  | .verbose => (isOn value).map .verbose
  | .tcpNodelay => (isOn value).map .tcpNodelay
  | .syslog => (isOn value).map .syslog
  | .daemon => (isOn value).map .daemon
  | .notifySystemd => (isOn value).map .notifySystemd
  | .notifySocket => (validPath value).map .notifySocket
  | .tcpPort => (validNumber toUnsigned value).map .tcpPort
  | .tcpWorkerConnections => (validNumber toUnsigned value).map .tcpWorkerConnections
  | .websockPort => (validNumber toUnsigned value).map .websockPort
  | .websockWorkerConnections => (validNumber toUnsigned value).map .websockWorkerConnections
  | .unixsockPath => (validPath value).map .unixsockPath
  | .unixsockWorkerConnections => (validNumber toUnsigned value).map .unixsockWorkerConnections

def settingsOfEach {α : Type} (settingsOf : α → Option (List Setting)) (nodes : List α) :
    Option (List Setting) :=
  (nodes.mapM settingsOf).map List.flatten

def innerSetting (key : List Char) (node : List Char × JsonValue D) : Option (List Setting) :=
  match innerFields.find? fun f => strEq key f.key && strEq node.1 f.innerKey with
  | none => none
  | some f => (f.setting toUnsigned node.2).map fun a => [a]

def outerSettings (node : List Char × JsonValue D) : Option (List Setting) :=
  match outerFields.find? fun f => strEq node.1 f.key with
  | some f => (f.setting toUnsigned node.2).map fun a => [a]
  | none =>
      match innerFields.any fun f => strEq node.1 f.key, node.2 with
      | true, .object nodes => settingsOfEach (innerSetting toUnsigned node.1) nodes
      | _, _ => none

/-- The settings of an object whose keys are all recognised and have valid values. -/
def settings (nodes : List (List Char × JsonValue D)) : Option (List Setting) :=
  settingsOfEach (outerSettings toUnsigned) nodes

/-! ## What `load_file` writes -/

/-- A setting is written to its field, but the path of `notify-socket` to that of the Unix
socket. -/
def store (config : KServerConfig) : Setting → Loaded
  | .notifySocket p | .unixsockPath p => strcpy (fun p => { config with unixsockPath := p }) p
  | a => .ok (a.apply config)

theorem strEq_eq {s : List Char} {t : String} (h : strEq s t = true) (t' : String) :
    strEq s t' = decide (t = t') := by
  have hs : cString s = t.toList := of_decide_eq_true h
  simp only [strEq, hs, String.toList_inj]

theorem readBool_eq {name : String} {set : Bool → KServerConfig} {config : KServerConfig}
    {value : JsonValue D} {b : Bool} (h : isOn value = some b) :
    readBool name set config value = .ok (set b) := by
  rw [readBool, h]

theorem readPath_eq {name : String} {set : List Char → KServerConfig} {config : KServerConfig}
    {value : JsonValue D} {p : List Char} (h : validPath value = some p) :
    readPath name set config value = strcpy set p := by
  unfold validPath at h
  split at h
  case h_2 => cases h
  case h_1 s =>
    split_ifs at h with hcheck
    obtain rfl := Option.some.inj h
    rw [readPath, hcheck]

variable {toUnsigned}

theorem readNumber_eq {name : String} {set : BitVec 32 → KServerConfig} {config : KServerConfig}
    {value : JsonValue D} {n : BitVec 32} (h : validNumber toUnsigned value = some n) :
    readNumber toUnsigned name set config value = .ok (set n) := by
  unfold validNumber at h
  split at h
  case h_2 => cases h
  case h_1 x => rw [readNumber, h]

/-- The keys of `outerFields` are written one by one. -/
theorem readKey_outer {config : KServerConfig} {node : List Char × JsonValue D} {f : Field}
    {a : Setting} (hf : f ∈ outerFields) (hkey : strEq node.1 f.key = true)
    (ha : f.setting toUnsigned node.2 = some a) :
    readKey toUnsigned config node = store config a := by
  have hkeys := strEq_eq hkey
  simp only [outerFields, List.mem_cons, List.not_mem_nil, or_false] at hf
  rcases hf with rfl | rfl | rfl | rfl | rfl
  · obtain ⟨b, hb, rfl⟩ := Option.map_eq_some_iff.mp ha
    simp only [readKey, hkeys, Field.key]
    exact readBool_eq hb
  · obtain ⟨b, hb, rfl⟩ := Option.map_eq_some_iff.mp ha
    simp only [readKey, hkeys, Field.key]
    exact readBool_eq hb
  · obtain ⟨b, hb, rfl⟩ := Option.map_eq_some_iff.mp ha
    simp only [readKey, hkeys, Field.key]
    exact readBool_eq hb
  · obtain ⟨b, hb, rfl⟩ := Option.map_eq_some_iff.mp ha
    simp only [readKey, hkeys, Field.key]
    exact readBool_eq hb
  · obtain ⟨p, hp, rfl⟩ := Option.map_eq_some_iff.mp ha
    simp only [readKey, hkeys, Field.key]
    exact readPath_eq hp

theorem innerSetting_eq_some {key : List Char} {node : List Char × JsonValue D} {as : List Setting}
    (h : innerSetting toUnsigned key node = some as) :
    ∃ f ∈ innerFields, strEq key f.key = true ∧ strEq node.1 f.innerKey = true ∧
      ∃ a, f.setting toUnsigned node.2 = some a ∧ as = [a] := by
  unfold innerSetting at h
  split at h
  case h_1 => cases h
  case h_2 f hfind =>
    have hf := List.find?_some hfind
    rw [Bool.and_eq_true] at hf
    obtain ⟨a, ha, rfl⟩ := Option.map_eq_some_iff.mp h
    exact ⟨f, List.mem_of_find?_eq_some hfind, hf.1, hf.2, a, ha, rfl⟩

theorem readEach_singleton (config : KServerConfig) (a : Setting) :
    readEach store config [a] = store config a := by
  simp only [readEach]
  cases store config a <;> rfl

theorem readLogKey_eq {key : List Char} (hkey : strEq key "logs" = true)
    {node : List Char × JsonValue D} {as : List Setting}
    (h : innerSetting toUnsigned key node = some as) (config : KServerConfig) :
    readLogKey config node = readEach store config as := by
  obtain ⟨f, hf, houter, hinner, a, ha, rfl⟩ := innerSetting_eq_some h
  rw [strEq_eq hkey] at houter
  rw [readEach_singleton]
  simp only [innerFields, List.mem_cons, List.not_mem_nil, or_false] at hf
  rcases hf with rfl | rfl | rfl | rfl | rfl | rfl | rfl
  case inl =>
    obtain ⟨b, hb, rfl⟩ := Option.map_eq_some_iff.mp ha
    rw [readLogKey, if_pos (show strEq node.1 "system_log" = true from hinner)]
    exact readBool_eq hb
  all_goals exact absurd houter (by decide)

def ServerType.key : ServerType → String
  | tcp => "TCP"
  | websock => "websocket"
  | unixsock => "unix"

theorem readServerKey_eq {servType : ServerType} {key : List Char}
    (hkey : strEq key servType.key = true) {node : List Char × JsonValue D} {as : List Setting}
    (h : innerSetting toUnsigned key node = some as) (config : KServerConfig) :
    readServerKey toUnsigned servType config node = readEach store config as := by
  obtain ⟨f, hf, houter, hinner, a, ha, rfl⟩ := innerSetting_eq_some h
  rw [strEq_eq hkey] at houter
  rw [readEach_singleton]
  have hkeys := strEq_eq hinner
  simp only [innerFields, List.mem_cons, List.not_mem_nil, or_false] at hf
  cases servType with
  | tcp =>
      rcases hf with rfl | rfl | rfl | rfl | rfl | rfl | rfl
      case inr.inl | inr.inr.inl =>
        obtain ⟨n, hn, rfl⟩ := Option.map_eq_some_iff.mp ha
        simp only [readServerKey, hkeys, Field.innerKey]
        exact readNumber_eq hn
      all_goals exact absurd houter (by decide)
  | websock =>
      rcases hf with rfl | rfl | rfl | rfl | rfl | rfl | rfl
      case inr.inr.inr.inl | inr.inr.inr.inr.inl =>
        obtain ⟨n, hn, rfl⟩ := Option.map_eq_some_iff.mp ha
        simp only [readServerKey, hkeys, Field.innerKey]
        exact readNumber_eq hn
      all_goals exact absurd houter (by decide)
  | unixsock =>
      rcases hf with rfl | rfl | rfl | rfl | rfl | rfl | rfl
      case inr.inr.inr.inr.inr.inl =>
        obtain ⟨p, hp, rfl⟩ := Option.map_eq_some_iff.mp ha
        simp only [readServerKey, hkeys, Field.innerKey]
        exact readPath_eq hp
      case inr.inr.inr.inr.inr.inr =>
        obtain ⟨n, hn, rfl⟩ := Option.map_eq_some_iff.mp ha
        simp only [readServerKey, hkeys, Field.innerKey]
        exact readNumber_eq hn
      all_goals exact absurd houter (by decide)

/-! ## The loops over the keys -/

theorem readEach_append {α : Type} (read : KServerConfig → α → Loaded) (config : KServerConfig)
    (xs ys : List α) :
    readEach read config (xs ++ ys) =
      match readEach read config xs with
      | .ok config => readEach read config ys
      | r => r := by
  induction xs generalizing config with
  | nil => rfl
  | cons x xs ih =>
      simp only [List.cons_append, readEach]
      cases read config x with
      | ok config => exact ih config
      | failed e config => rfl
      | fault f => rfl

/-- A loop over nodes each of which has some settings stores them all. -/
theorem readEach_store {α : Type} {read : KServerConfig → α → Loaded}
    {settingsOf : α → Option (List Setting)}
    (hread : ∀ node as, settingsOf node = some as → ∀ config,
      read config node = readEach store config as)
    {nodes : List α} {as : List Setting} (h : settingsOfEach settingsOf nodes = some as)
    (config : KServerConfig) : readEach read config nodes = readEach store config as := by
  obtain ⟨ass, hmap, rfl⟩ := Option.map_eq_some_iff.mp h
  clear h
  induction nodes generalizing ass config with
  | nil =>
      obtain rfl : [] = ass := by simpa using hmap
      rfl
  | cons node nodes ih =>
      simp only [List.mapM_cons, Option.bind_eq_bind, Option.bind_eq_some_iff] at hmap
      obtain ⟨as, has, rest, hrest, heq⟩ := hmap
      obtain rfl : as :: rest = ass := by simpa using heq
      rw [readEach, hread node as has, List.flatten_cons, readEach_append]
      cases readEach store config as with
      | ok config => exact ih config rest hrest
      | failed e config => rfl
      | fault f => rfl

/-- `load_file` stores the settings of a key of the file. -/
theorem readKey_store {node : List Char × JsonValue D} {as : List Setting}
    (h : outerSettings toUnsigned node = some as) (config : KServerConfig) :
    readKey toUnsigned config node = readEach store config as := by
  unfold outerSettings at h
  split at h
  case h_1 f hfind =>
    obtain ⟨a, ha, rfl⟩ := Option.map_eq_some_iff.mp h
    have hkey : strEq node.1 f.key = true := by simpa using List.find?_some hfind
    rw [readEach_singleton]
    exact readKey_outer (List.mem_of_find?_eq_some hfind) hkey ha
  case h_2 =>
    split at h
    case h_2 => cases h
    case h_1 nodes hany hvalue =>
      obtain ⟨f, hf, hkey⟩ := List.any_eq_true.mp hany
      have hkeys := strEq_eq hkey
      have hlog : f.key = "logs" → readKey toUnsigned config node = readEach store config as := by
        intro heq
        rw [heq] at hkeys hkey
        simp only [readKey, hkeys]
        rw [hvalue]
        exact readEach_store (fun inner bs hbs => readLogKey_eq hkey hbs) h config
      have hserver : ∀ servType : ServerType, f.key = servType.key →
          readKey toUnsigned config node = readEach store config as := by
        intro servType heq
        rw [heq] at hkeys hkey
        have hread : readKey toUnsigned config node =
            readServer toUnsigned servType config node.2 := by
          cases servType <;> simp only [readKey, hkeys, ServerType.key] <;> rfl
        rw [hread, hvalue]
        exact readEach_store (fun inner bs hbs => readServerKey_eq hkey hbs) h config
      simp only [innerFields, List.mem_cons, List.not_mem_nil, or_false] at hf
      rcases hf with rfl | rfl | rfl | rfl | rfl | rfl | rfl
      · exact hlog rfl
      · exact hserver .tcp rfl
      · exact hserver .tcp rfl
      · exact hserver .websock rfl
      · exact hserver .websock rfl
      · exact hserver .unixsock rfl
      · exact hserver .unixsock rfl

/-- `load_file` behind `jsonParse`, of an object whose keys are recognised and have valid values. -/
theorem readEach_readKey {nodes : List (List Char × JsonValue D)} {as : List Setting}
    (h : settings toUnsigned nodes = some as) (config : KServerConfig) :
    readEach (readKey toUnsigned) config nodes = readEach store config as :=
  readEach_store (fun _ _ has => readKey_store has) h config

/-! ## One setting for a field -/

theorem mem_settingsOfEach {α : Type} {settingsOf : α → Option (List Setting)} {nodes : List α}
    {as : List Setting} (h : settingsOfEach settingsOf nodes = some as) (a : Setting) :
    a ∈ as ↔ ∃ node ∈ nodes, ∃ bs, settingsOf node = some bs ∧ a ∈ bs := by
  obtain ⟨ass, hmap, rfl⟩ := Option.map_eq_some_iff.mp h
  clear h
  induction nodes generalizing ass with
  | nil =>
      obtain rfl : [] = ass := by simpa using hmap
      simp
  | cons node nodes ih =>
      simp only [List.mapM_cons, Option.bind_eq_bind, Option.bind_eq_some_iff] at hmap
      obtain ⟨bs, hbs, rest, hrest, heq⟩ := hmap
      obtain rfl : bs :: rest = ass := by simpa using heq
      rw [List.flatten_cons, List.mem_append, ih rest hrest]
      simp [hbs]

theorem settingsOfEach_isSome {α : Type} {settingsOf : α → Option (List Setting)} {nodes : List α} :
    (settingsOfEach settingsOf nodes).isSome ↔ ∀ node ∈ nodes, (settingsOf node).isSome := by
  rw [settingsOfEach, Option.isSome_map]
  induction nodes with
  | nil => simp
  | cons node nodes ih =>
      rw [List.mapM_cons, List.forall_mem_cons, ← ih]
      cases settingsOf node with
      | none => simp
      | some bs => cases nodes.mapM settingsOf <;> simp

def DistinctKeys (nodes : List (List Char × JsonValue D)) : Prop :=
  (nodes.map fun node => cString node.1).Nodup

instance (nodes : List (List Char × JsonValue D)) : Decidable (DistinctKeys nodes) :=
  inferInstanceAs (Decidable (List.Nodup _))

theorem DistinctKeys.eq {nodes : List (List Char × JsonValue D)} (h : DistinctKeys nodes)
    {node node' : List Char × JsonValue D} (hnode : node ∈ nodes) (hnode' : node' ∈ nodes)
    {t : String}
    (hkey : strEq node.1 t = true) (hkey' : strEq node'.1 t = true) : node = node' := by
  have heq : cString node.1 = cString node'.1 :=
    (of_decide_eq_true hkey).trans (of_decide_eq_true hkey').symm
  exact List.inj_on_of_nodup_map h hnode hnode' heq

theorem Field.setting_field {value : JsonValue D} {f : Field} {a : Setting}
    (h : f.setting toUnsigned value = some a) : a.field = f := by
  cases f <;> obtain ⟨_, _, rfl⟩ := Option.map_eq_some_iff.mp h <;> rfl

/-- What a key of the file sets. -/
theorem outerSettings_cases {node : List Char × JsonValue D} {as : List Setting}
    (h : outerSettings toUnsigned node = some as) :
    (∃ a, as = [a] ∧ strEq node.1 a.field.key = true) ∨
      ∃ nodes, node.2 = .object nodes ∧
        settingsOfEach (innerSetting toUnsigned node.1) nodes = some as := by
  unfold outerSettings at h
  split at h
  case h_1 f hfind =>
    obtain ⟨a, ha, rfl⟩ := Option.map_eq_some_iff.mp h
    refine .inl ⟨a, rfl, ?_⟩
    rw [Field.setting_field ha]
    simpa using List.find?_some hfind
  case h_2 =>
    split at h
    case h_1 nodes _ hvalue => exact .inr ⟨nodes, hvalue, h⟩
    case h_2 => cases h

theorem innerSetting_mem {key : List Char} {node : List Char × JsonValue D} {as : List Setting}
    {a : Setting} (h : innerSetting toUnsigned key node = some as) (ha : a ∈ as) :
    as = [a] ∧ a.field ∈ innerFields ∧ strEq key a.field.key = true ∧
      strEq node.1 a.field.innerKey = true := by
  obtain ⟨f, hf, hkey, hinner, b, hb, rfl⟩ := innerSetting_eq_some h
  obtain rfl := List.mem_singleton.mp ha
  rw [Field.setting_field hb]
  exact ⟨rfl, hf, hkey, hinner⟩

theorem outerSettings_key {node : List Char × JsonValue D} {as : List Setting} {a : Setting}
    (h : outerSettings toUnsigned node = some as) (ha : a ∈ as) :
    strEq node.1 a.field.key = true := by
  rcases outerSettings_cases h with ⟨b, rfl, hkey⟩ | ⟨nodes, -, hnodes⟩
  · obtain rfl := List.mem_singleton.mp ha
    exact hkey
  · obtain ⟨inner, -, bs, hbs, hmem⟩ := (mem_settingsOfEach hnodes a).mp ha
    exact (innerSetting_mem hbs hmem).2.2.1

/-- An object whose keys are recognised and distinct, also inside each object, and have valid
values. -/
structure Recognised (toUnsigned : D → Option (BitVec 32)) (nodes : List (List Char × JsonValue D))
    (as : List Setting) : Prop where
  settings : settings toUnsigned nodes = some as
  outer : DistinctKeys nodes
  inner : ∀ node ∈ nodes, ∀ inner, node.2 = .object inner → DistinctKeys inner

theorem Recognised.eq_of_field {nodes : List (List Char × JsonValue D)} {as : List Setting}
    (h : Recognised toUnsigned nodes as) {a b : Setting} (ha : a ∈ as) (hb : b ∈ as)
    (hfield : a.field = b.field) : a = b := by
  obtain ⟨node, hnode, bs, hbs, ha⟩ := (mem_settingsOfEach h.settings a).mp ha
  obtain ⟨node', hnode', bs', hbs', hb⟩ := (mem_settingsOfEach h.settings b).mp hb
  have hkey := outerSettings_key hbs ha
  have hkey' := outerSettings_key hbs' hb
  rw [← hfield] at hkey'
  obtain rfl := h.outer.eq hnode hnode' hkey hkey'
  obtain rfl := Option.some.inj (hbs.symm.trans hbs')
  rcases outerSettings_cases hbs with ⟨c, rfl, -⟩ | ⟨nodes, hvalue, hnodes⟩
  · rw [List.mem_singleton.mp ha, List.mem_singleton.mp hb]
  · obtain ⟨inner, hinner, cs, hcs, ha⟩ := (mem_settingsOfEach hnodes a).mp ha
    obtain ⟨inner', hinner', cs', hcs', hb⟩ := (mem_settingsOfEach hnodes b).mp hb
    obtain ⟨ha, -, -, hkey⟩ := innerSetting_mem hcs ha
    obtain ⟨hb, -, -, hkey'⟩ := innerSetting_mem hcs' hb
    rw [← hfield] at hkey'
    obtain rfl := (h.inner node hnode nodes hvalue).eq hinner hinner' hkey hkey'
    obtain rfl := Option.some.inj (hcs.symm.trans hcs')
    exact List.singleton_inj.mp (ha.symm.trans hb)

/-! ## The order of the keys -/

/-- The same value, or the same object with its keys in another order. -/
def SameValue (value value' : JsonValue D) : Prop :=
  value = value' ∨ ∃ inner inner', value = .object inner ∧ value' = .object inner' ∧
    inner.Perm inner'

/-- The same object with the keys in another order, also inside each object. -/
def Reordered (nodes nodes' : List (List Char × JsonValue D)) : Prop :=
  ∃ mid, nodes.Perm mid ∧
    List.Forall₂ (fun node node' => node.1 = node'.1 ∧ SameValue node.2 node'.2) mid nodes'

def SameSettings {α : Type} (settingsOf : α → Option (List Setting)) (node node' : α) : Prop :=
  ∀ as, settingsOf node = some as → ∃ as', settingsOf node' = some as' ∧ ∀ a, a ∈ as' ↔ a ∈ as

theorem SameSettings.refl {α : Type} (settingsOf : α → Option (List Setting)) (node : α) :
    SameSettings settingsOf node node := fun as h => ⟨as, h, fun _ => Iff.rfl⟩

theorem settingsOfEach_same {α : Type} {settingsOf : α → Option (List Setting)}
    {nodes nodes' : List α}
    (hforth : ∀ node ∈ nodes, ∃ node' ∈ nodes', SameSettings settingsOf node node')
    (hback : ∀ node' ∈ nodes', ∃ node ∈ nodes, SameSettings settingsOf node node') :
    SameSettings (settingsOfEach settingsOf) nodes nodes' := by
  intro as h
  have hsome := settingsOfEach_isSome.mp (Option.isSome_iff_exists.mpr ⟨as, h⟩)
  have hsome' : (settingsOfEach settingsOf nodes').isSome := by
    refine settingsOfEach_isSome.mpr fun node' hnode' => ?_
    obtain ⟨node, hnode, hsame⟩ := hback node' hnode'
    obtain ⟨bs, hbs⟩ := Option.isSome_iff_exists.mp (hsome node hnode)
    obtain ⟨bs', hbs', -⟩ := hsame bs hbs
    exact Option.isSome_iff_exists.mpr ⟨bs', hbs'⟩
  obtain ⟨as', h'⟩ := Option.isSome_iff_exists.mp hsome'
  refine ⟨as', h', fun a => ?_⟩
  rw [mem_settingsOfEach h, mem_settingsOfEach h']
  constructor
  · rintro ⟨node', hnode', bs', hbs', ha⟩
    obtain ⟨node, hnode, hsame⟩ := hback node' hnode'
    obtain ⟨bs, hbs⟩ := Option.isSome_iff_exists.mp (hsome node hnode)
    obtain ⟨cs, hcs, hmem⟩ := hsame bs hbs
    obtain rfl := Option.some.inj (hbs'.symm.trans hcs)
    exact ⟨node, hnode, bs, hbs, (hmem a).mp ha⟩
  · rintro ⟨node, hnode, bs, hbs, ha⟩
    obtain ⟨node', hnode', hsame⟩ := hforth node hnode
    obtain ⟨bs', hbs', hmem⟩ := hsame bs hbs
    exact ⟨node', hnode', bs', hbs', (hmem a).mpr ha⟩

theorem settingsOfEach_perm {α : Type} (settingsOf : α → Option (List Setting))
    {nodes nodes' : List α}
    (h : nodes.Perm nodes') : SameSettings (settingsOfEach settingsOf) nodes nodes' :=
  settingsOfEach_same (fun node hnode => ⟨node, h.mem_iff.mp hnode, .refl settingsOf node⟩)
    fun node' hnode' => ⟨node', h.mem_iff.mpr hnode', .refl settingsOf node'⟩

theorem setting_object (f : Field) (inner : List (List Char × JsonValue D)) :
    f.setting toUnsigned (.object inner) = none := by
  cases f <;> rfl

theorem outerSettings_same {node node' : List Char × JsonValue D} (hkey : node.1 = node'.1)
    (hvalue : SameValue node.2 node'.2) : SameSettings (outerSettings toUnsigned) node node' := by
  obtain ⟨key, value⟩ := node
  obtain ⟨key', value'⟩ := node'
  obtain rfl : key = key' := hkey
  rcases hvalue with heq | ⟨inner, inner', hinner, hinner', hperm⟩
  · obtain rfl : value = value' := heq
    exact .refl _ _
  · obtain rfl : value = .object inner := hinner
    obtain rfl : value' = .object inner' := hinner'
    intro as h
    unfold outerSettings at h ⊢
    split at h
    case h_1 f hfind =>
      rw [setting_object] at h
      cases h
    case h_2 hfind =>
      dsimp only at h ⊢
      rw [hfind]
      cases hany : innerFields.any fun f => strEq key f.key with
      | false =>
          rw [hany] at h
          cases h
      | true =>
          rw [hany] at h
          exact settingsOfEach_perm _ hperm as h

theorem forall₂_exists {α β : Type} {R : α → β → Prop} {xs : List α} {ys : List β}
    (h : List.Forall₂ R xs ys) {x : α} (hx : x ∈ xs) : ∃ y ∈ ys, R x y := by
  induction h with
  | nil => cases hx
  | cons hxy _ ih =>
      rcases List.mem_cons.mp hx with rfl | hx
      · exact ⟨_, List.mem_cons_self, hxy⟩
      · obtain ⟨y, hy, hR⟩ := ih hx
        exact ⟨y, List.mem_cons_of_mem _ hy, hR⟩

theorem Reordered.same {nodes nodes' : List (List Char × JsonValue D)}
    (h : Reordered nodes nodes') :
    SameSettings (settings toUnsigned) nodes nodes' := by
  obtain ⟨mid, hperm, hsame⟩ := h
  apply settingsOfEach_same
  · intro node hnode
    obtain ⟨node', hnode', hkey, hvalue⟩ := forall₂_exists hsame (hperm.mem_iff.mp hnode)
    exact ⟨node', hnode', outerSettings_same hkey hvalue⟩
  · intro node' hnode'
    obtain ⟨node, hnode, hkey, hvalue⟩ := forall₂_exists hsame.flip hnode'
    exact ⟨node, hperm.mem_iff.mpr hnode, outerSettings_same hkey hvalue⟩

theorem Reordered.of_perm {nodes nodes' : List (List Char × JsonValue D)} (h : nodes.Perm nodes') :
    Reordered nodes nodes' :=
  ⟨nodes', h, List.forall₂_same.mpr fun _ _ => ⟨rfl, .inl rfl⟩⟩

/-! ## The configuration that the keys describe -/

/-- Every field that a key names has the value of the key, and the other ones keep theirs. `verbose`
is off with `daemon`. -/
structure Describes (config : KServerConfig) (as : List Setting)
    (config' : KServerConfig) : Prop where
  named : ∀ a ∈ as, a.field ≠ .verbose → config'.get a.field = a.value
  kept : ∀ f, f ≠ .verbose → (∀ a ∈ as, a.field ≠ f) → config'.get f = config.get f
  verbose_named : ∀ b, .verbose b ∈ as → config'.verbose = (b && !config'.daemon)
  verbose_kept : (∀ b, .verbose b ∉ as) → config'.verbose = (config.verbose && !config'.daemon)

theorem Describes.unique {config config₁ config₂ : KServerConfig} {as : List Setting}
    (h₁ : Describes config as config₁) (h₂ : Describes config as config₂) : config₁ = config₂ := by
  have hother : ∀ f, f ≠ .verbose → config₁.get f = config₂.get f := by
    intro f hf
    by_cases hnamed : ∃ a ∈ as, a.field = f
    · obtain ⟨a, ha, rfl⟩ := hnamed
      rw [h₁.named a ha hf, h₂.named a ha hf]
    · have hnone : ∀ a ∈ as, a.field ≠ f := fun a ha heq => hnamed ⟨a, ha, heq⟩
      rw [h₁.kept f hf hnone, h₂.kept f hf hnone]
  have hdaemon : config₁.daemon = config₂.daemon := FieldValue.flag.inj (hother .daemon (by decide))
  refine KServerConfig.ext_get fun f => ?_
  by_cases hf : f = .verbose
  · subst hf
    refine congrArg FieldValue.flag ?_
    by_cases hnamed : ∃ b, .verbose b ∈ as
    · obtain ⟨b, hb⟩ := hnamed
      rw [h₁.verbose_named b hb, h₂.verbose_named b hb, hdaemon]
    · have hnone : ∀ b, .verbose b ∉ as := fun b hb => hnamed ⟨b, hb⟩
      rw [h₁.verbose_kept hnone, h₂.verbose_kept hnone, hdaemon]
  · exact hother f hf

theorem Describes.congr {config config' : KServerConfig} {as as' : List Setting}
    (h : Describes config as config') (hmem : ∀ a, a ∈ as ↔ a ∈ as') :
    Describes config as' config' where
  named a ha := h.named a ((hmem a).mpr ha)
  kept f hf hnone := h.kept f hf fun a ha => hnone a ((hmem a).mp ha)
  verbose_named b hb := h.verbose_named b ((hmem _).mpr hb)
  verbose_kept hnone := h.verbose_kept fun b hb => hnone b ((hmem _).mp hb)

def Setting.written : Setting → Setting
  | .notifySocket p => .unixsockPath p
  | a => a

def PathsFit (as : List Setting) : Prop :=
  ∀ a ∈ as, ∀ p, a.value = .path p → p.length < unixSocketPathLen

theorem store_eq {a : Setting} (h : ∀ p, a.value = .path p → p.length < unixSocketPathLen)
    (config : KServerConfig) : store config a = .ok (a.written.apply config) := by
  cases a with
  | notifySocket p | unixsockPath p => exact if_pos (h p rfl)
  | _ => rfl

theorem store_overflow {a : Setting} {p : List Char} (hp : a.value = .path p)
    (h : ¬p.length < unixSocketPathLen) (config : KServerConfig) :
    store config a = .fault .overflow := by
  cases a with
  | notifySocket q | unixsockPath q =>
      obtain rfl := FieldValue.path.inj hp
      exact if_neg h
  | _ => cases hp

theorem readEach_store_eq {as : List Setting} (h : PathsFit as) (config : KServerConfig) :
    readEach store config as = .ok (configFields.applyAll (as.map Setting.written) config) := by
  induction as generalizing config with
  | nil => rfl
  | cons a as ih =>
      rw [readEach, store_eq (h a List.mem_cons_self)]
      exact ih (fun b hb => h b (List.mem_cons_of_mem _ hb)) _

theorem readEach_store_overflow {as : List Setting} (h : ¬PathsFit as) (config : KServerConfig) :
    readEach store config as = .fault .overflow := by
  induction as generalizing config with
  | nil => exact absurd (fun a ha => nomatch ha) h
  | cons a as ih =>
      rw [readEach]
      by_cases ha : ∀ p, a.value = .path p → p.length < unixSocketPathLen
      · rw [store_eq ha]
        exact ih (fun hfit => h (List.forall_mem_cons.mpr ⟨ha, hfit⟩)) _
      · obtain ⟨p, hp⟩ := Classical.not_forall.mp ha
        obtain ⟨hvalue, hlong⟩ := Classical.not_imp.mp hp
        rw [store_overflow hvalue hlong]

theorem get_checkConfig (config : KServerConfig) {f : Field} (hf : f ≠ .verbose) :
    (checkConfig config).get f = config.get f := by
  unfold checkConfig
  split_ifs
  · cases f with
    | verbose => exact absurd rfl hf
    | _ => rfl
  · rfl

theorem verbose_checkConfig (config : KServerConfig) :
    (checkConfig config).verbose = (config.verbose && !(checkConfig config).daemon) := by
  unfold checkConfig
  split_ifs with hdaemon
  · simp [hdaemon]
  · simp [hdaemon]

/-- `load_file` of a file that `jsonParse` accepts. -/
theorem loadFile_eq {toDouble : NumberText → D} {allocates : Nat → Bool}
    {contents endptr : List Char}
    {value : JsonValue D} (h : jsonParse toDouble allocates (cString contents) = .ok value endptr)
    (config : KServerConfig) :
    loadFile toDouble toUnsigned allocates config (some contents) =
      loadValue toUnsigned config value := by
  rw [loadFile, loadSource, h]

theorem loadValue_fit {nodes : List (List Char × JsonValue D)} {as : List Setting}
    (h : settings toUnsigned nodes = some as) (hfit : PathsFit as) (config : KServerConfig) :
    loadValue toUnsigned config (.object nodes) =
      .ok (checkConfig (configFields.applyAll (as.map Setting.written) config)) := by
  rw [loadValue, readEach_readKey h, readEach_store_eq hfit]

theorem loadValue_overflow {nodes : List (List Char × JsonValue D)} {as : List Setting}
    (h : settings toUnsigned nodes = some as) (hfit : ¬PathsFit as) (config : KServerConfig) :
    loadValue toUnsigned config (.object nodes) = .fault .overflow := by
  rw [loadValue, readEach_readKey h, readEach_store_overflow hfit]

/-- What the keys say of a path of `notify-socket`: it is the one that the configuration has, and
the one of the Unix socket. -/
def NotifySocketKept (config : KServerConfig) (as : List Setting) : Prop :=
  ∀ p, .notifySocket p ∈ as →
    p = config.notifySocket ∧ (∀ q, .unixsockPath q ∈ as → q = p) ∧
      ((∀ q, .unixsockPath q ∉ as) → config.unixsockPath = p)

/-- The field that `load_file` writes a setting to. -/
theorem Setting.written_field (a : Setting) :
    (a.written = a ∧ a.field ≠ .notifySocket) ∨ ∃ p, a = .notifySocket p := by
  cases a with
  | notifySocket p => exact .inr ⟨p, rfl⟩
  | _ => exact .inl ⟨rfl, by simp [Setting.field]⟩

theorem Setting.written_value_agrees {config : KServerConfig} {as : List Setting}
    (heq : ∀ a ∈ as, ∀ b ∈ as, a.field = b.field → a = b) (hkept : NotifySocketKept config as)
    {a b : Setting} (ha : a ∈ as) (hb : b ∈ as) (hfield : b.written.field = a.written.field) :
    b.written.value = a.written.value := by
  rcases a.written_field with ⟨hwa, hna⟩ | ⟨p, rfl⟩
  · rcases b.written_field with ⟨hwb, hnb⟩ | ⟨q, rfl⟩
    · rw [hwa, hwb] at hfield
      rw [heq b hb a ha hfield]
    · rw [hwa] at hfield ⊢
      cases a with
      | unixsockPath p => exact congrArg FieldValue.path ((hkept q hb).2.1 p ha).symm
      | _ => cases hfield
  · rcases b.written_field with ⟨hwb, hnb⟩ | ⟨q, rfl⟩
    · rw [hwb] at hfield ⊢
      cases b with
      | unixsockPath q => exact congrArg FieldValue.path ((hkept p ha).2.1 q hb)
      | _ => cases hfield
    · rw [heq _ hb _ ha rfl]

theorem get_written_of_notMem {as : List Setting} {f : Field} (h : ∀ a ∈ as, a.written.field ≠ f)
    (config : KServerConfig) :
    (configFields.applyAll (as.map Setting.written) config).get f = config.get f := by
  refine configFields.get_applyAll_of_notMem ?_ config
  intro b hb
  obtain ⟨a, ha, rfl⟩ := List.mem_map.mp hb
  exact h a ha

/-- No setting is written to `notify_socket`. -/
theorem get_written_notifySocket (as : List Setting) (config : KServerConfig) :
    (configFields.applyAll (as.map Setting.written) config).get .notifySocket =
      config.get .notifySocket := by
  refine get_written_of_notMem (fun a _ => ?_) config
  cases a <;> simp [Setting.written, Setting.field]

/-- What `load_file` leaves where the two paths agree. -/
theorem describes_written {config : KServerConfig} {as : List Setting}
    (heq : ∀ a ∈ as, ∀ b ∈ as, a.field = b.field → a = b) (hkept : NotifySocketKept config as) :
    Describes config as (checkConfig (configFields.applyAll (as.map Setting.written) config)) := by
  have hwritten : ∀ a ∈ as, (configFields.applyAll (as.map Setting.written) config).get
      a.written.field = a.written.value := by
    intro a ha
    refine configFields.get_applyAll_of_mem (List.mem_map_of_mem ha) ?_ config
    intro b hb hfield
    obtain ⟨c, hc, rfl⟩ := List.mem_map.mp hb
    exact Setting.written_value_agrees heq hkept ha hc hfield
  have hother : ∀ f, f ≠ .unixsockPath → (∀ a ∈ as, a.field ≠ f) →
      (configFields.applyAll (as.map Setting.written) config).get f = config.get f := by
    intro f hf hfield
    refine get_written_of_notMem (fun a ha => ?_) config
    rcases a.written_field with ⟨hw, -⟩ | ⟨p, rfl⟩
    · rw [hw]
      exact hfield a ha
    · exact hf.symm
  refine ⟨?named, ?kept, ?verbose_named, ?verbose_kept⟩
  case named =>
    intro a ha hverbose
    rw [get_checkConfig _ hverbose]
    rcases a.written_field with ⟨hw, -⟩ | ⟨p, rfl⟩
    · have hget := hwritten a ha
      rwa [hw] at hget
    · have hsocket := get_written_notifySocket as config
      exact hsocket.trans (congrArg FieldValue.path (hkept p ha).1.symm)
  case kept =>
    intro f hverbose hf
    rw [get_checkConfig _ hverbose]
    by_cases hpath : f = .unixsockPath
    · subst hpath
      by_cases hsocket : ∃ p, .notifySocket p ∈ as
      · obtain ⟨p, hp⟩ := hsocket
        have hget := hwritten _ hp
        have hsame := (hkept p hp).2.2 fun q hq => hf _ hq rfl
        exact hget.trans (congrArg FieldValue.path hsame.symm)
      · refine get_written_of_notMem (fun a ha => ?_) config
        rcases a.written_field with ⟨hw, -⟩ | ⟨p, rfl⟩
        · rw [hw]
          exact hf a ha
        · exact absurd ⟨p, ha⟩ hsocket
    · exact hother f hpath hf
  case verbose_named =>
    intro b hb
    rw [verbose_checkConfig]
    have hget := FieldValue.flag.inj (hwritten _ hb)
    rw [hget]
  case verbose_kept =>
    intro hverbose
    rw [verbose_checkConfig]
    have hget := hother .verbose (by decide) fun a ha heq => by
      cases a with
      | verbose b => exact hverbose b ha
      | _ => cases heq
    rw [FieldValue.flag.inj hget]

theorem settingsOfEach_append {α : Type} {settingsOf : α → Option (List Setting)} {xs ys : List α}
    {as bs : List Setting} (hxs : settingsOfEach settingsOf xs = some as)
    (hys : settingsOfEach settingsOf ys = some bs) :
    settingsOfEach settingsOf (xs ++ ys) = some (as ++ bs) := by
  obtain ⟨ass, hmapx, rfl⟩ := Option.map_eq_some_iff.mp hxs
  obtain ⟨bss, hmapy, rfl⟩ := Option.map_eq_some_iff.mp hys
  rw [settingsOfEach, List.mapM_append, hmapx, hmapy]
  simp

/-- A path of `notify-socket` can stand behind all other keys. -/
theorem exists_notifySocket_last {nodes : List (List Char × JsonValue D)} {as : List Setting}
    (h : Recognised toUnsigned nodes as) {p : List Char} (hp : .notifySocket p ∈ as) :
    ∃ nodes' bs, Reordered nodes nodes' ∧
      settings toUnsigned nodes' = some (bs ++ [.notifySocket p]) := by
  obtain ⟨node, hnode, cs, hcs, hmem⟩ := (mem_settingsOfEach h.settings _).mp hp
  have hsingle : cs = [.notifySocket p] := by
    rcases outerSettings_cases hcs with ⟨a, rfl, -⟩ | ⟨inner, -, hinner⟩
    · rw [List.mem_singleton.mp hmem]
    · obtain ⟨node', -, ds, hds, hmem⟩ := (mem_settingsOfEach hinner _).mp hmem
      have hinner : Field.notifySocket ∈ innerFields := (innerSetting_mem hds hmem).2.1
      exact absurd hinner (by decide)
  subst hsingle
  obtain ⟨front, back, rfl⟩ := List.append_of_mem hnode
  have hsome := settingsOfEach_isSome.mp (Option.isSome_iff_exists.mpr ⟨as, h.settings⟩)
  obtain ⟨bs, hbs⟩ : ∃ bs, settingsOfEach (outerSettings toUnsigned) (front ++ back) = some bs := by
    refine Option.isSome_iff_exists.mp (settingsOfEach_isSome.mpr fun node' hnode' => hsome node' ?_)
    rcases List.mem_append.mp hnode' with hfront | hback
    · exact List.mem_append_left _ hfront
    · exact List.mem_append_right _ (List.mem_cons_of_mem _ hback)
  have hlast : settingsOfEach (outerSettings toUnsigned) [node] = some [.notifySocket p] := by
    simp [settingsOfEach, hcs]
  refine ⟨front ++ back ++ [node], bs, .of_perm ?_, settingsOfEach_append hbs hlast⟩
  exact List.perm_middle.trans (List.perm_append_singleton node (front ++ back)).symm

/-- `load_file` returns 0 for every order of the keys, behind `jsonParse` and of every file that
holds them, with the configuration that they describe. -/
def SetsOwnFields (toUnsigned : D → Option (BitVec 32)) (config : KServerConfig)
    (nodes : List (List Char × JsonValue D)) (as : List Setting) : Prop :=
  ∃ config', Describes config as config' ∧
    ∀ nodes', Reordered nodes nodes' →
      loadValue toUnsigned config (.object nodes') = .ok config' ∧
        ∀ toDouble allocates contents endptr,
          jsonParse toDouble allocates (cString contents) = .ok (.object nodes') endptr →
            loadFile toDouble toUnsigned allocates config (some contents) = .ok config'

theorem loadValue_ok {nodes : List (List Char × JsonValue D)} {as : List Setting}
    (h : settings toUnsigned nodes = some as) {config config' : KServerConfig}
    (hok : loadValue toUnsigned config (.object nodes) = .ok config') :
    PathsFit as ∧ config' = checkConfig (configFields.applyAll (as.map Setting.written) config) := by
  by_cases hfit : PathsFit as
  · rw [loadValue_fit h hfit] at hok
    exact ⟨hfit, (Loaded.ok.inj hok).symm⟩
  · rw [loadValue_overflow h hfit] at hok
    cases hok

/-- The path of a `notify-socket` that stands last is the one of the Unix socket. -/
theorem get_unixsockPath_last (bs : List Setting) (p : List Char) (config : KServerConfig) :
    (checkConfig (configFields.applyAll ((bs ++ [Setting.notifySocket p]).map Setting.written) config)).get
      .unixsockPath = .path p := by
  rw [get_checkConfig _ (by decide), List.map_append]
  have hmem : .unixsockPath p ∈ [Setting.unixsockPath p] := List.mem_singleton.mpr rfl
  have hlast := configFields.get_applyAll_of_mem hmem
    (fun b hb _ => by rw [List.mem_singleton.mp hb])
    (configFields.applyAll (bs.map Setting.written) config)
  rw [Assignments.applyAll, List.foldl_append]
  exact hlast

theorem SetsOwnFields.notifySocketKept {nodes : List (List Char × JsonValue D)} {as : List Setting}
    {config : KServerConfig} (hsets : SetsOwnFields toUnsigned config nodes as)
    (h : Recognised toUnsigned nodes as) : NotifySocketKept config as := by
  obtain ⟨config', hdescribes, hload⟩ := hsets
  intro p hp
  obtain ⟨nodes', bs, hreordered, hsettings⟩ := exists_notifySocket_last h hp
  obtain ⟨-, hconfig'⟩ := loadValue_ok hsettings (hload nodes' hreordered).1
  have hsocket : config'.get .notifySocket = config.get .notifySocket := by
    rw [hconfig', get_checkConfig _ (by decide)]
    exact get_written_notifySocket _ config
  have hpath : config'.get .unixsockPath = .path p := by
    rw [hconfig']
    exact get_unixsockPath_last bs p config
  refine ⟨?_, fun q hq => ?_, fun hnone => ?_⟩
  · have hnamed := hdescribes.named _ hp (by simp [Setting.field])
    exact FieldValue.path.inj (hnamed.symm.trans hsocket)
  · have hnamed := hdescribes.named _ hq (by simp [Setting.field])
    exact FieldValue.path.inj (hnamed.symm.trans hpath)
  · have hkept := hdescribes.kept .unixsockPath (by decide) fun a ha heq => by
      cases a with
      | unixsockPath q => exact hnone q ha
      | _ => cases heq
    exact FieldValue.path.inj (hkept.symm.trans hpath)

/-- Each key sets its own field and nothing else when, and only when, every path fits in its array
and a `notify-socket` changes nothing. -/
theorem load_sets_own_fields_iff {nodes : List (List Char × JsonValue D)} {as : List Setting}
    (h : Recognised toUnsigned nodes as) (config : KServerConfig) :
    SetsOwnFields toUnsigned config nodes as ↔ PathsFit as ∧ NotifySocketKept config as := by
  constructor
  · intro hsets
    refine ⟨?_, hsets.notifySocketKept h⟩
    obtain ⟨config', -, hload⟩ := hsets
    exact (loadValue_ok h.settings (hload nodes (.of_perm (.refl nodes))).1).1
  · rintro ⟨hfit, hkept⟩
    have heq : ∀ a ∈ as, ∀ b ∈ as, a.field = b.field → a = b :=
      fun a ha b hb hfield => h.eq_of_field ha hb hfield
    refine ⟨_, describes_written heq hkept, fun nodes' hreordered => ?_⟩
    obtain ⟨as', hsettings, hmem⟩ := hreordered.same as h.settings
    have hfit' : PathsFit as' := fun a ha => hfit a ((hmem a).mp ha)
    have heq' : ∀ a ∈ as', ∀ b ∈ as', a.field = b.field → a = b :=
      fun a ha b hb hfield => heq a ((hmem a).mp ha) b ((hmem b).mp hb) hfield
    have hkept' : NotifySocketKept config as' := by
      intro p hp
      obtain ⟨hsocket, hpath, hnone⟩ := hkept p ((hmem _).mp hp)
      exact ⟨hsocket, fun q hq => hpath q ((hmem _).mp hq),
        fun hq => hnone fun q hmem' => hq q ((hmem _).mpr hmem')⟩
    have hdescribes := (describes_written heq' hkept').congr hmem
    have hload := loadValue_fit hsettings hfit' config
    rw [hdescribes.unique (describes_written heq hkept)] at hload
    exact ⟨hload, fun toDouble allocates contents endptr hparse => by rw [loadFile_eq hparse, hload]⟩

end

/-! ## Some configurations -/

def decimal (text : NumberText) : Nat :=
  text.digits.foldl (fun n c => n * 10 + (c.toNat - '0'.toNat)) 0

def unsigned (n : Nat) : Option (BitVec 32) :=
  if n < 4294967296 then some (BitVec.ofNat 32 n) else none

def serverNodes : List (List Char × JsonValue Nat) :=
  [("verbose".toList, .string "ON".toList),
    ("unix".toList, .object [("path".toList, .string "/tmp/kserver.sock".toList)]),
    ("daemon".toList, .string "OFF".toList),
    ("TCP".toList,
      .object [("worker_connections".toList, .number 2), ("listen".toList, .number 36001)])]

/-- A configuration that is loaded in every order. -/
theorem load_sets_own_fields_servers :
    SetsOwnFields unsigned .default serverNodes
      [.verbose true, .unixsockPath "/tmp/kserver.sock".toList, .daemon false, .tcpWorkerConnections 2,
        .tcpPort 36001] := by
  have hrecognised : Recognised unsigned serverNodes
      [.verbose true, .unixsockPath "/tmp/kserver.sock".toList, .daemon false, .tcpWorkerConnections 2,
        .tcpPort 36001] := by
    refine ⟨by decide, by decide, fun node hnode inner hinner => ?_⟩
    simp only [serverNodes, List.mem_cons, List.not_mem_nil, or_false] at hnode
    rcases hnode with rfl | rfl | rfl | rfl <;> cases hinner <;> decide
  refine (load_sets_own_fields_iff hrecognised .default).mpr ⟨?_, fun p hp => ?_⟩
  · intro a ha p hp
    simp only [List.mem_cons, List.not_mem_nil, or_false] at ha
    rcases ha with rfl | rfl | rfl | rfl | rfl
    case inr.inl =>
      obtain rfl := FieldValue.path.inj hp
      decide
    all_goals cases hp
  · simp at hp

/-- The path of `notify-socket` goes to the Unix socket, and one of 108 characters overflows. -/
theorem load_sets_other_fields :
    (∃ nodes as, Recognised unsigned nodes as ∧ ¬SetsOwnFields unsigned .default nodes as ∧
      loadFile decimal unsigned (fun _ => true) .default
          (some "\x7b\"notify-socket\": \"/run/notify\"\x7d".toList) =
        .ok { KServerConfig.default with unixsockPath := "/run/notify".toList }) ∧
      ∃ nodes as, Recognised unsigned nodes as ∧
        loadValue unsigned .default (.object nodes) = .fault .overflow := by
  constructor
  · refine ⟨[("notify-socket".toList, .string "/run/notify".toList)],
      [.notifySocket "/run/notify".toList], ⟨by decide, by decide, ?_⟩, ?_, by decide +kernel⟩
    · intro node hnode inner hinner
      obtain rfl := List.mem_singleton.mp hnode
      cases hinner
    · rintro ⟨config', hdescribes, hload⟩
      have hok := (hload _ (.of_perm (.refl _))).1
      have hconfig' : config' =
          { KServerConfig.default with unixsockPath := "/run/notify".toList } := by
        refine (Loaded.ok.inj (Eq.trans ?_ hok)).symm
        decide +kernel
      have hnamed := hdescribes.named _ List.mem_cons_self (by decide)
      rw [hconfig'] at hnamed
      exact absurd hnamed (by decide)
  · refine ⟨[("unix".toList, .object [("path".toList, .string ('/' :: List.replicate 107 'a'))])],
      [.unixsockPath ('/' :: List.replicate 107 'a')], ⟨by decide, by decide, ?_⟩, by decide +kernel⟩
    intro node hnode inner hinner
    obtain rfl := List.mem_singleton.mp hnode
    cases hinner
    decide

end KoheronServer.Config
