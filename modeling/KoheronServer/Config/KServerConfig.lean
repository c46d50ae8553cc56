import KoheronServer.Config.JsonParse

/-!
# The configuration

`KServerConfig` and `load_file`, which goes through the keys of the JSON object in a
configuration file and writes their values to its fields.
-/

namespace KoheronServer.Config

def unixSocketPathLen : Nat := 108

/-- The two paths are the C strings in their arrays. -/
structure KServerConfig where
  verbose : Bool
  tcpNodelay : Bool
  syslog : Bool
  daemon : Bool
  notifySystemd : Bool
  notifySocket : List Char
  tcpPort : BitVec 32
  tcpWorkerConnections : BitVec 32
  websockPort : BitVec 32
  websockWorkerConnections : BitVec 32
  unixsockPath : List Char
  unixsockWorkerConnections : BitVec 32
  deriving DecidableEq

def KServerConfig.default : KServerConfig where
  verbose := false
  tcpNodelay := false
  syslog := false
  daemon := true
  notifySystemd := false
  notifySocket := "/run/systemd/notify".toList
  tcpPort := 36000
  tcpWorkerConnections := 10
  websockPort := 8080
  websockWorkerConnections := 10
  unixsockPath := "/var/run/kserver.sock".toList
  unixsockWorkerConnections := 10

/-- What `load_file` prints before it returns -1. -/
inductive ConfigError where
  | cannotOpenFile
  | json (errno : JsonErrno) (offset : Nat)
  | invalidFile
  | unknownField (key : List Char)
  | invalidField (name : String)
  | invalidKeyInLog
  | invalidTcpField
  | invalidValue (field : String)
  | noListenPort
  | pathOnlyForUnix
  | unknownServerKey (key : List Char)
  | invalidPath (path : List Char)
  | pathTooLong
  deriving DecidableEq

/-- What the language leaves undefined: a read behind the text, a write behind one of the paths, and
the conversion of a number that is no `unsigned int`. -/
inductive Fault where
  | overread
  | overflow
  | conversion
  deriving DecidableEq

/-- A return with 0 or with -1, each with the configuration that is left, or no defined one. -/
inductive Loaded where
  | ok (config : KServerConfig)
  | failed (e : ConfigError) (config : KServerConfig)
  | fault (f : Fault)
  deriving DecidableEq

def readEach {α : Type} (read : KServerConfig → α → Loaded) : KServerConfig → List α → Loaded
  | config, [] => .ok config
  | config, node :: nodes =>
      match read config node with
      | .ok config => readEach read config nodes
      | r => r

/-- What a reader of C strings finds. -/
def cString (s : List Char) : List Char := s.takeWhile (· ≠ '\x00')

/-- `strcmp(s, t) == 0`. -/
def strEq (s : List Char) (t : String) : Bool := cString s = t.toList

/-! ## Values -/

section

variable {D : Type}

/-- `is_on`, with no value for -1. -/
def isOn : JsonValue D → Option Bool
  | .string s => if strEq s "ON" then some true else if strEq s "OFF" then some false else none
  | _ => none

def readBool (name : String) (set : Bool → KServerConfig) (config : KServerConfig)
    (value : JsonValue D) : Loaded :=
  match isOn value with
  | none => .failed (.invalidField name) config
  | some status => .ok (set status)

def readVerbose (config : KServerConfig) (value : JsonValue D) : Loaded :=
  readBool "verbose" (fun status => { config with verbose := status }) config value

def readTcpNodelay (config : KServerConfig) (value : JsonValue D) : Loaded :=
  readBool "tcp_nodelay" (fun status => { config with tcpNodelay := status }) config value

def readDaemon (config : KServerConfig) (value : JsonValue D) : Loaded :=
  readBool "daemon" (fun status => { config with daemon := status }) config value

def readNotifySystemd (config : KServerConfig) (value : JsonValue D) : Loaded :=
  readBool "notify_systemd" (fun status => { config with notifySystemd := status }) config value

def readLogKey (config : KServerConfig) (node : List Char × JsonValue D) : Loaded :=
  if strEq node.1 "system_log" then
    readBool "system_log" (fun status => { config with syslog := status }) config node.2
  else .failed .invalidKeyInLog config

def readLog (config : KServerConfig) : JsonValue D → Loaded
  | .object nodes => readEach readLogKey config nodes
  | _ => .failed (.invalidField "log") config

def checkUnixsocketPath (path : List Char) : Option ConfigError :=
  match path with
  | first :: _ :: _ =>
      if first ≠ '@' ∧ first ≠ '/' then some (.invalidPath path)
      else if path.length > unixSocketPathLen then some .pathTooLong
      else none
  | _ => some (.invalidPath path)

def strcpy (set : List Char → KServerConfig) (path : List Char) : Loaded :=
  if path.length < unixSocketPathLen then .ok (set path) else .fault .overflow

def readPath (name : String) (set : List Char → KServerConfig) (config : KServerConfig) :
    JsonValue D → Loaded
  | .string s =>
      match checkUnixsocketPath (cString s) with
      | some e => .failed e config
      | none => strcpy set (cString s)
  | _ => .failed (.invalidValue name) config

def readNumber (toUnsigned : D → Option (BitVec 32)) (name : String)
    (set : BitVec 32 → KServerConfig)
    (config : KServerConfig) : JsonValue D → Loaded
  | .number x =>
      match toUnsigned x with
      | none => .fault .conversion
      | some n => .ok (set n)
  | _ => .failed (.invalidValue name) config

/-! ## Servers -/

inductive ServerType where
  | tcp
  | websock
  | unixsock
  deriving DecidableEq

def readServerKey (toUnsigned : D → Option (BitVec 32)) (servType : ServerType)
    (config : KServerConfig) (node : List Char × JsonValue D) : Loaded :=
  if strEq node.1 "listen" then
    match servType, node.2 with
    | .tcp, value =>
        readNumber toUnsigned "listen" (fun n => { config with tcpPort := n }) config value
    | .websock, value =>
        readNumber toUnsigned "listen" (fun n => { config with websockPort := n }) config value
    | .unixsock, .number _ => .failed .noListenPort config
    | .unixsock, _ => .failed (.invalidValue "listen") config
  else if strEq node.1 "path" then
    if servType ≠ .unixsock then .failed .pathOnlyForUnix config
    else readPath "path" (fun path => { config with unixsockPath := path }) config node.2
  else if strEq node.1 "worker_connections" then
    match servType with
    | .tcp =>
        readNumber toUnsigned "worker_connections"
          (fun n => { config with tcpWorkerConnections := n }) config node.2
    | .websock =>
        readNumber toUnsigned "worker_connections"
          (fun n => { config with websockWorkerConnections := n }) config node.2
    | .unixsock =>
        readNumber toUnsigned "worker_connections"
          (fun n => { config with unixsockWorkerConnections := n }) config node.2
  else .failed (.unknownServerKey node.1) config

def readServer (toUnsigned : D → Option (BitVec 32)) (servType : ServerType)
    (config : KServerConfig) :
    JsonValue D → Loaded
  | .object nodes => readEach (readServerKey toUnsigned servType) config nodes
  | _ => .failed .invalidTcpField config

/-! ## The file -/

/-- A key of the file. The path of `notify-socket` is written to `unixsock_path`. -/
def readKey (toUnsigned : D → Option (BitVec 32)) (config : KServerConfig)
    (node : List Char × JsonValue D) : Loaded :=
  if strEq node.1 "verbose" then readVerbose config node.2
  else if strEq node.1 "tcp_nodelay" then readTcpNodelay config node.2
  else if strEq node.1 "daemon" then readDaemon config node.2
  else if strEq node.1 "notify-systemd" then readNotifySystemd config node.2
  else if strEq node.1 "notify-socket" then
    readPath "notify-socket" (fun path => { config with unixsockPath := path }) config node.2
  else if strEq node.1 "logs" then readLog config node.2
  else if strEq node.1 "TCP" then readServer toUnsigned .tcp config node.2
  else if strEq node.1 "websocket" then readServer toUnsigned .websock config node.2
  else if strEq node.1 "unix" then readServer toUnsigned .unixsock config node.2
  else .failed (.unknownField node.1) config

def checkConfig (config : KServerConfig) : KServerConfig :=
  if config.daemon then { config with verbose := false } else config

/-- `load_file` behind `jsonParse`. -/
def loadValue (toUnsigned : D → Option (BitVec 32)) (config : KServerConfig) : JsonValue D → Loaded
  | .object nodes =>
      match readEach (readKey toUnsigned) config nodes with
      | .ok config => .ok (checkConfig config)
      | r => r
  | _ => .failed .invalidFile config

/-- `load_file` behind `_get_source`. -/
def loadSource (toDouble : NumberText → D) (toUnsigned : D → Option (BitVec 32))
    (allocates : Nat → Bool) (config : KServerConfig) (source : List Char) : Loaded :=
  match jsonParse toDouble allocates source with
  | .ok value _ => loadValue toUnsigned config value
  | .error errno endptr => .failed (.json errno (source.length - endptr.length)) config
  | .overread => .fault .overread

/-- `load_file`, of a file that cannot be opened or its characters. The copy of `_get_source` ends
at the first NUL. -/
def loadFile (toDouble : NumberText → D) (toUnsigned : D → Option (BitVec 32))
    (allocates : Nat → Bool) (config : KServerConfig) : Option (List Char) → Loaded
  | none => .failed .cannotOpenFile config
  | some contents => loadSource toDouble toUnsigned allocates config (cString contents)

end

end KoheronServer.Config
