import KoheronServer.Config.Keys
import KoheronServer.Foundation.CStrings

/-!
# The path of the Unix socket in memory

The bytes of a `KServerConfig`, of which a path that `load_file` accepts takes some, and
the address of `create_unix_listening`, where it is copied to again. Both arrays have
room for 107 characters and the NUL; the check lets 108 of them through.
-/

namespace KoheronServer.Config

open Foundation

/-! ## The configuration in memory -/

namespace Field

/-- The place of a field. Three bytes of padding precede the first number. -/
def offset : Field → Nat
  | verbose => 0
  | tcpNodelay => 1
  | syslog => 2
  | daemon => 3
  | notifySystemd => 4
  | notifySocket => 5
  | tcpPort => 116
  | tcpWorkerConnections => 120
  | websockPort => 124
  | websockWorkerConnections => 128
  | unixsockPath => 132
  | unixsockWorkerConnections => 240

def size : Field → Nat
  | verbose | tcpNodelay | syslog | daemon | notifySystemd => 1
  | notifySocket | unixsockPath => unixSocketPathLen
  | tcpPort | tcpWorkerConnections | websockPort | websockWorkerConnections
  | unixsockWorkerConnections => 4

end Field

def configLayout : Layout Field where
  offset := Field.offset
  size := Field.size
  disjoint f g hne := by
    cases f <;> cases g <;> first | exact absurd rfl hne | decide

/-- The bytes of a value, the lowest first in a number. -/
def FieldValue.bytes : FieldValue → Bytes
  | .flag b => [if b then 1 else 0]
  | .number n => (beDigits 4 n.toNat).reverse
  | .path p => chars p ++ [0]

def Represents (object : Memory) (config : KServerConfig) : Prop :=
  ∀ f, configLayout.Holds object f (config.get f).bytes

def Setting.storeAt (object : Memory) (a : Setting) : Memory :=
  configLayout.write object a.field a.value.bytes

def strcpyPath (object : Memory) (path : List Char) : Memory :=
  object.strcpy (configLayout.offset .unixsockPath) (chars path)

/-- The branches of `path` and `notify-socket`, which write to the same field. -/
def readPathAt {D : Type} (name : String) (object : Memory) :
    JsonValue D → Except ConfigError Memory
  | .string s =>
      match checkUnixsocketPath (cString s) with
      | some e => .error e
      | none => .ok (strcpyPath object (cString s))
  | _ => .error (.invalidValue name)

/-! ## The address of the listening socket -/

/-- `sizeof(sockaddr_un)`, with the place and the size of `sun_path`. -/
def sockaddrUnLen : Nat := 110

def sunPathOffset : Nat := 2

def sunPathLen : Nat := 108

/-- `local` in `create_unix_listening` before the path is copied to it: zeros, and `AF_UNIX`. -/
def localAddress (stack : Memory) : Memory :=
  (stack.store 0 (List.replicate sockaddrUnLen 0)).store 0 [1, 0]

/-- An accepted path stays inside the array of the configuration, changes no other field, and what
is found there later stays inside `sun_path`. -/
structure PathFits (object stack : Memory) (path : List Char) : Prop where
  field : object.CopyFits (configLayout.offset .unixsockPath) unixSocketPathLen (chars path)
  neighbours : ∀ f, f ≠ .unixsockPath →
    configLayout.read (strcpyPath object path) f = configLayout.read object f
  sunPath : ∀ s, (strcpyPath object path).CStringAt (configLayout.offset .unixsockPath) s →
    (localAddress stack).CopyFits sunPathOffset sunPathLen s

/-! ## Loading into memory -/

theorem path_bytes_length (p : List Char) : (FieldValue.path p).bytes.length = p.length + 1 := by
  simp [FieldValue.bytes]

theorem Setting.bytes_length {a : Setting}
    (h : ∀ p, a.value = .path p → p.length < unixSocketPathLen) :
    a.value.bytes.length ≤ configLayout.size a.field := by
  cases a with
  | notifySocket p | unixsockPath p =>
      have hp := h p rfl
      simp only [Setting.value, path_bytes_length]
      exact hp
  | verbose b | tcpNodelay b | syslog b | daemon b | notifySystemd b => exact Nat.le_refl 1
  | tcpPort n | tcpWorkerConnections n | websockPort n | websockWorkerConnections n
  | unixsockWorkerConnections n =>
      simp only [Setting.value, FieldValue.bytes, List.length_reverse, beDigits_length]
      exact Nat.le_refl 4

theorem Represents.storeAt {object : Memory} {config : KServerConfig}
    (h : Represents object config) {a : Setting}
    (hfit : ∀ p, a.value = .path p → p.length < unixSocketPathLen) :
    Represents (a.storeAt object) (a.apply config) := by
  intro f
  by_cases hf : f = a.field
  · subst hf
    rw [Setting.get_apply_self]
    exact configLayout.holds_write (Setting.bytes_length hfit) object
  · rw [Setting.get_apply_of_ne a config f hf, Layout.Holds, Setting.storeAt,
      configLayout.read_write_of_ne hf (Setting.bytes_length hfit)]
    exact h f

def checkConfigAt (object : Memory) : Memory :=
  if configLayout.read object .daemon = [0] then object
  else (Setting.verbose false).storeAt object

def loadAt (object : Memory) (as : List Setting) : Memory :=
  checkConfigAt (as.foldl (fun object a => a.written.storeAt object) object)

theorem Represents.foldl_storeAt {object : Memory} {config : KServerConfig}
    (h : Represents object config) {as : List Setting} (hfit : PathsFit as) :
    Represents (as.foldl (fun object a => a.written.storeAt object) object)
      (configFields.applyAll (as.map Setting.written) config) := by
  induction as generalizing object config with
  | nil => exact h
  | cons a as ih =>
      have ha : ∀ p, a.written.value = .path p → p.length < unixSocketPathLen := by
        intro p hp
        refine hfit a List.mem_cons_self p ?_
        cases a with
        | notifySocket q => exact hp
        | _ => exact hp
      exact ih (h.storeAt ha) fun b hb => hfit b (List.mem_cons_of_mem _ hb)

theorem Represents.read_daemon {object : Memory} {config : KServerConfig}
    (h : Represents object config) :
    configLayout.read object .daemon = [if config.daemon then 1 else 0] := by
  have hdaemon := h .daemon
  have hlength : (configLayout.read object .daemon).length = 1 := Memory.load_length _ _ _
  exact (hdaemon.eq_of_length hlength.symm).symm

theorem Represents.checkConfigAt {object : Memory} {config : KServerConfig}
    (h : Represents object config) : Represents (checkConfigAt object) (checkConfig config) := by
  unfold Config.checkConfigAt checkConfig
  rw [h.read_daemon]
  cases hdaemon : config.daemon with
  | false =>
      rw [if_pos (by rfl), if_neg (by decide)]
      exact h
  | true =>
      rw [if_neg (by decide), if_pos rfl]
      have hverbose := h.storeAt (a := .verbose false) fun p hp => nomatch hp
      rw [Setting.apply, hdaemon] at hverbose
      exact hverbose

/-- Any path that an array of the configuration holds fits in `sun_path`. -/
theorem Represents.sunPath {object : Memory} {config : KServerConfig}
    (h : Represents object config) (stack : Memory) {s : Bytes}
    (hs : object.CStringAt (configLayout.offset .unixsockPath) s) :
    (localAddress stack).CopyFits sunPathOffset sunPathLen s := by
  obtain ⟨hfit, hload⟩ := configLayout.holds_iff.mp (h .unixsockPath)
  have hlength : (config.get .unixsockPath).bytes.length = config.unixsockPath.length + 1 :=
    path_bytes_length config.unixsockPath
  rw [hlength] at hfit hload
  have hnul : object (configLayout.offset .unixsockPath + config.unixsockPath.length) = 0 := by
    have hlast := congrArg List.getLast? hload
    rw [Memory.load_append] at hlast
    simpa [KServerConfig.get, FieldValue.bytes, Memory.load_succ] using hlast
  have hle := hs.length_le hnul
  have hsize : configLayout.size .unixsockPath = sunPathLen := rfl
  exact (Memory.copyFits_iff _ _ _ _).mpr (by omega)

section

variable {D : Type} {toUnsigned : D → Option (BitVec 32)}

/-- A path is read into memory as into the configuration, as long as it fits. -/
theorem Represents.readPathAt {object : Memory} {config config' : KServerConfig} {name : String}
    {value : JsonValue D} (h : Represents object config)
    (hread : readPath name (fun p => { config with unixsockPath := p }) config value =
      .ok config') :
    ∃ object', readPathAt name object value = .ok object' ∧ Represents object' config' := by
  cases value with
  | string s =>
      simp only [readPath] at hread
      cases hcheck : checkUnixsocketPath (cString s) with
      | some e => rw [hcheck] at hread; cases hread
      | none =>
          simp only [hcheck, strcpy] at hread
          split_ifs at hread with hfit
          obtain rfl := Loaded.ok.inj hread
          refine ⟨strcpyPath object (cString s), by simp only [Config.readPathAt, hcheck], ?_⟩
          exact h.storeAt (a := .unixsockPath (cString s)) fun p hp =>
            FieldValue.path.inj hp ▸ hfit
  | _ => cases hread

/-- A load whose paths fit leaves in memory the configuration that it returns, and a path that
fits in the address of the socket. -/
theorem load_represents {nodes : List (List Char × JsonValue D)} {as : List Setting}
    (hsettings : settings toUnsigned nodes = some as) (hfit : PathsFit as) {object : Memory}
    {config : KServerConfig} (h : Represents object config) (stack : Memory) :
    ∃ config', loadValue toUnsigned config (.object nodes) = .ok config' ∧
      Represents (loadAt object as) config' ∧
      ∀ s, (loadAt object as).CStringAt (configLayout.offset .unixsockPath) s →
        (localAddress stack).CopyFits sunPathOffset sunPathLen s := by
  have hloaded : Represents (loadAt object as) _ := (h.foldl_storeAt hfit).checkConfigAt
  exact ⟨_, loadValue_fit hsettings hfit config, hloaded, fun s hs => hloaded.sunPath stack hs⟩

end

/-! ## Accepted paths -/

theorem neighbours_strcpyPath {path : List Char} (hfit : path.length < unixSocketPathLen)
    (object : Memory) {f : Field} (hf : f ≠ .unixsockPath) :
    configLayout.read (strcpyPath object path) f = configLayout.read object f := by
  refine configLayout.read_write_of_ne hf ?_ object
  have hsize : configLayout.size .unixsockPath = unixSocketPathLen := rfl
  rw [List.length_append, chars_length, List.length_singleton]
  omega

theorem checkUnixsocketPath_length {path : List Char} (h : checkUnixsocketPath path = none) :
    path.length ≤ unixSocketPathLen := by
  unfold checkUnixsocketPath at h
  split at h
  case h_1 first second rest =>
    split_ifs at h with hfirst hlong
    exact Nat.le_of_not_lt hlong
  case h_2 => cases h

/-- An accepted path fits where it is copied unless it is just as long as the arrays. -/
theorem accepted_path_fits_iff {s : List Char}
    (haccepted : checkUnixsocketPath (cString s) = none) (object stack : Memory) :
    PathFits object stack (cString s) ↔ (cString s).length ≠ unixSocketPathLen := by
  have hle := checkUnixsocketPath_length haccepted
  constructor
  · intro hfits
    have hfield := (Memory.copyFits_iff _ _ _ _).mp hfits.field
    rw [chars_length] at hfield
    omega
  · intro hne
    have hlt : (cString s).length < unixSocketPathLen := by omega
    refine ⟨?field, fun f hf => neighbours_strcpyPath hlt object hf, fun s' hs' => ?sunPath⟩
    case field =>
      refine (Memory.copyFits_iff _ _ _ _).mpr ?_
      rwa [chars_length]
    case sunPath =>
      -- the copy ends at the NUL of the path
      have hle := hs'.length_le (Memory.strcpy_nul _ _ _)
      rw [chars_length] at hle
      have hsize : unixSocketPathLen = sunPathLen := rfl
      exact (Memory.copyFits_iff _ _ _ _).mpr (by omega)

theorem accepted_path_fits_kserver :
    checkUnixsocketPath (cString "/tmp/kserver.sock".toList) = none ∧
      PathFits (fun _ => 0) (fun _ => 0) (cString "/tmp/kserver.sock".toList) :=
  ⟨by decide, (accepted_path_fits_iff (by decide) _ _).mpr (by decide)⟩

def longPath : List Char := '/' :: List.replicate 107 'a'

def defaultObject : Memory :=
  [Setting.daemon true, .notifySocket "/run/systemd/notify".toList, .tcpPort 36000,
    .tcpWorkerConnections 10, .websockPort 8080, .websockWorkerConnections 10,
    .unixsockPath "/var/run/kserver.sock".toList, .unixsockWorkerConnections 10].foldl
      (fun object a => a.storeAt object) fun _ => 0

/-- A path of 108 characters is accepted, and its NUL leaves no worker for the Unix socket. -/
theorem longPath_does_not_fit :
    Represents defaultObject .default ∧ checkUnixsocketPath (cString longPath) = none ∧
      (¬PathFits defaultObject (fun _ => 0) (cString longPath)) ∧
      configLayout.read defaultObject .unixsockWorkerConnections = [10, 0, 0, 0] ∧
      configLayout.read (strcpyPath defaultObject (cString longPath)) .unixsockWorkerConnections =
        [0, 0, 0, 0] := by
  refine ⟨fun f => ?_, by decide, fun hfits => ?_, by decide +kernel, by decide +kernel⟩
  · refine configLayout.holds_iff.mpr ?_
    cases f <;> decide +kernel
  · have hinside := hfits.field.inside
    exact absurd hinside (by decide)

end KoheronServer.Config
