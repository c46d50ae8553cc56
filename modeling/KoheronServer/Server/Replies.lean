import KoheronServer.Server.SessionManager

/-!
# Replies of several messages

`GET_RUNNING_SESSIONS` and `GET_STATS`, which send one message for a session or a
listener and a terminator behind them. The result of each `send` goes into an
`unsigned int` before it is compared with 0, so no failure of one is seen.
-/

namespace KoheronServer.Server

def ksDevWriteStrLen : Nat := 1024

def inet6AddrstrLen : Nat := 46

/-- What `GET_RUNNING_SESSIONS` asks a session for. The address is a C string in an array. -/
structure SessionParams where
  kind : SockType
  clientIp : String
  clientPort : BitVec 32
  requestNum : BitVec 32
  errorNum : BitVec 32
  startTime : BitVec 64
  clientIp_length : clientIp.length < inet6AddrstrLen

structure ListenerStats where
  openedSessionsNum : BitVec 32
  totalSessionsNum : BitVec 32
  totalRequestsNum : BitVec 32

/-- What the replies see of the rest of the server: the sessions, the listeners, the start of the
server, the time when a message is written, and what `send` returns for it. Messages count from the
first one of the reply. -/
structure ReplyEnv where
  session : SessID → SessionParams
  stats : SockType → ListenerStats
  startTime : BitVec 64
  time : Nat → BitVec 64
  sendResult : Nat → Int

/-- An operation that has sent some messages, and may have returned with an error. -/
abbrev Reply := EStateM Int (List String)

def send (env : ReplyEnv) (text : String) : Reply Int := fun sent =>
  .ok (env.sendResult sent.length) (sent ++ [text])

def time (env : ReplyEnv) : Reply (BitVec 64) := fun sent => .ok (env.time sent.length) sent

/-- `snprintf` of a text: its length, whether or not it fits. -/
def snprintf (text : String) : Int := text.length

/-! ## `GET_RUNNING_SESSIONS` -/

def sockTypeName : SockType → String
  | .tcp => "TCP"
  | .websock => "WEBSOCK"
  | .unix => "UNIX"

/-- The text of `"%u:%s:%s:%u:%u:%u:%li\n"`. -/
def sessionText (id : SessID) (s : SessionParams) (now : BitVec 64) : String :=
  toString (BitVec.ofInt 32 id).toNat ++ ":" ++ sockTypeName s.kind ++ ":" ++ s.clientIp ++ ":" ++
    toString s.clientPort.toNat ++ ":" ++ toString s.requestNum.toNat ++ ":" ++
    toString s.errorNum.toNat ++ ":" ++ toString (now - s.startTime).toInt ++ "\n"

def sendSessions (env : ReplyEnv) : List SessID → Reply Unit
  | [] => pure ()
  | id :: ids => do
      let text := sessionText id (env.session id) (← time env)
      let ret := snprintf text
      if ret < 0 then throw (-1)
      if ret ≥ ksDevWriteStrLen then throw (-1)
      let bytes := BitVec.ofInt 32 (← send env text)
      if bytes < 0 then throw (-1)
      sendSessions env ids

def getRunningSessions (env : ReplyEnv) (ids : List SessID) : Reply Int := do
  sendSessions env ids
  let bytes := BitVec.ofInt 32 (← send env "EORS\n")
  if bytes < 0 then throw (-1)
  pure 0

/-! ## `GET_STATS` -/

def listenChannelDesc : SockType → String
  | .tcp => "TCP"
  | .websock => "WebSocket"
  | .unix => "Unix socket"

/-- The text of `"%s:%d:%d:%d\n"`. -/
def listenerText (sockType : SockType) (stats : ListenerStats) : String :=
  listenChannelDesc sockType ++ ":" ++ toString stats.openedSessionsNum.toInt ++ ":" ++
    toString stats.totalSessionsNum.toInt ++ ":" ++ toString stats.totalRequestsNum.toInt ++ "\n"

/-- The text of `"%s:%lu\n"`. -/
def uptimeText (startTime now : BitVec 64) : String :=
  "UPTIME" ++ ":" ++ toString (now - startTime).toNat ++ "\n"

def sendListenerStats (env : ReplyEnv) (sockType : SockType) : Reply Int := do
  let text := listenerText sockType (env.stats sockType)
  let ret := snprintf text
  if ret < 0 then return -1
  if ret ≥ ksDevWriteStrLen then return -1
  let bytesSend := BitVec.ofInt 32 (← send env text)
  if bytesSend < 0 then return -1
  return bytesSend.toInt

/-- `execute_op<GET_STATS>`. -/
def getStats (env : ReplyEnv) : Reply Int := do
  let text := uptimeText env.startTime (← time env)
  let ret := snprintf text
  if ret < 0 then throw (-1)
  if ret ≥ ksDevWriteStrLen then throw (-1)
  let bytes := BitVec.ofInt 32 (← send env text)
  if bytes < 0 then throw (-1)
  let bytes := BitVec.ofInt 32 (← sendListenerStats env .tcp)
  if bytes < 0 then throw (-1)
  let bytes := BitVec.ofInt 32 (← sendListenerStats env .websock)
  if bytes < 0 then throw (-1)
  let bytes := BitVec.ofInt 32 (← sendListenerStats env .unix)
  if bytes < 0 then throw (-1)
  let bytes := BitVec.ofInt 32 (← send env "EOKS\n")
  if bytes < 0 then throw (-1)
  pure 0

/-! ## What is sent -/

def sessionTexts (env : ReplyEnv) (ids : List SessID) (k : Nat) : List String :=
  ids.mapIdx fun i id => sessionText id (env.session id) (env.time (k + i))

def runningSessionsTexts (env : ReplyEnv) (ids : List SessID) : List String :=
  sessionTexts env ids 0 ++ ["EORS\n"]

def statsTexts (env : ReplyEnv) : List String :=
  [uptimeText env.startTime (env.time 0), listenerText .tcp (env.stats .tcp),
    listenerText .websock (env.stats .websock), listenerText .unix (env.stats .unix), "EOKS\n"]

/-- What an operation returns, an error or not, and the messages it has sent. -/
def outcome (op : Reply Int) : Int × List String :=
  match op [] with
  | .ok ret sent => (ret, sent)
  | .error ret sent => (ret, sent)

/-- A reply of several messages reports failure: it returns 0 behind the last of them when no
`send` returns a negative value, and -1 at the first one that does. -/
structure Reports (results : Nat → Int) (texts : List String) (done : Int × List String) :
    Prop where
  all_sent : (∀ k < texts.length, 0 ≤ results k) → done = (0, texts)
  stopped : ∀ k < texts.length, (∀ i < k, 0 ≤ results i) → results k < 0 →
    done = (-1, texts.take (k + 1))

/-! ## The texts fit -/

theorem length_toString_nat {n d : Nat} (hpos : 0 < d) (hn : n < 10 ^ d) :
    (toString n).length ≤ d := by
  rw [Nat.toString_eq_repr, Nat.length_repr_le_iff hpos]
  exact hn

theorem length_toString_int {i : Int} {d : Nat} (hpos : 0 < d) (hi : i.natAbs < 10 ^ d) :
    (toString i).length ≤ d + 1 := by
  cases i with
  | ofNat n =>
      have hn := length_toString_nat hpos hi
      exact Nat.le_succ_of_le hn
  | negSucc n =>
      have hn : (toString (n + 1)).length ≤ d := length_toString_nat hpos hi
      have htext : toString (Int.negSucc n) = "-" ++ toString (n + 1) := rfl
      rw [htext, String.length_append]
      have hsign : "-".length = 1 := rfl
      omega

theorem length_word (x : BitVec 32) : (toString x.toNat).length ≤ 10 :=
  length_toString_nat (by omega) (by have hlt := x.isLt; omega)

theorem natAbs_toInt_le {w : Nat} (x : BitVec w) : 2 * x.toInt.natAbs ≤ 2 ^ w := by
  have hlt := x.isLt
  rw [BitVec.toInt_eq_toNat_cond]
  split <;> omega

theorem length_int (x : BitVec 32) : (toString x.toInt).length ≤ 11 := by
  have hle := natAbs_toInt_le x
  exact length_toString_int (by omega) (by omega)

theorem length_long (x : BitVec 64) : (toString x.toInt).length ≤ 20 := by
  have hle := natAbs_toInt_le x
  exact length_toString_int (by omega) (by omega)

theorem length_unsigned_long (x : BitVec 64) : (toString x.toNat).length ≤ 20 :=
  length_toString_nat (by omega) (by have hlt := x.isLt; omega)

theorem length_colon : ":".length = 1 := rfl

theorem length_newline : "\n".length = 1 := rfl

theorem length_sockTypeName (sockType : SockType) : (sockTypeName sockType).length ≤ 7 := by
  cases sockType <;> decide

theorem length_listenChannelDesc (sockType : SockType) :
    (listenChannelDesc sockType).length ≤ 11 := by
  cases sockType <;> decide

theorem length_sessionText (id : SessID) (s : SessionParams) (now : BitVec 64) :
    (sessionText id s now).length < ksDevWriteStrLen := by
  have hid := length_word (BitVec.ofInt 32 id)
  have hkind := length_sockTypeName s.kind
  have hip := s.clientIp_length
  have hport := length_word s.clientPort
  have hrequests := length_word s.requestNum
  have herrors := length_word s.errorNum
  have htime := length_long (now - s.startTime)
  unfold inet6AddrstrLen at hip
  simp only [sessionText, String.length_append, length_colon, length_newline, ksDevWriteStrLen]
  omega

theorem length_listenerText (sockType : SockType) (stats : ListenerStats) :
    (listenerText sockType stats).length < ksDevWriteStrLen := by
  have hdesc := length_listenChannelDesc sockType
  have hopened := length_int stats.openedSessionsNum
  have htotal := length_int stats.totalSessionsNum
  have hrequests := length_int stats.totalRequestsNum
  simp only [listenerText, String.length_append, length_colon, length_newline,
    ksDevWriteStrLen]
  omega

theorem length_uptimeText (startTime now : BitVec 64) :
    (uptimeText startTime now).length < ksDevWriteStrLen := by
  have htime := length_unsigned_long (now - startTime)
  have hname : "UPTIME".length = 6 := rfl
  simp only [uptimeText, String.length_append, hname, length_colon, length_newline,
    ksDevWriteStrLen]
  omega

/-! ## No failure is seen -/

/-- The checks of a text's length let it through. -/
theorem snprintf_not_neg (text : String) : ¬ snprintf text < 0 := by
  unfold snprintf
  omega

theorem snprintf_fits {text : String} (hlength : text.length < ksDevWriteStrLen) :
    ¬ snprintf text ≥ ksDevWriteStrLen := by
  unfold snprintf
  omega

/-- `bytes < 0` of an `unsigned int`. -/
theorem bytes_not_neg (bytes : BitVec 32) : ¬ bytes < 0 :=
  BitVec.not_lt_zero

theorem sendSessions_cons (env : ReplyEnv) (id : SessID) (ids : List SessID)
    (sent : List String) :
    sendSessions env (id :: ids) sent =
      sendSessions env ids
        (sent ++ [sessionText id (env.session id) (env.time sent.length)]) := by
  have hfits := snprintf_fits (length_sessionText id (env.session id) (env.time sent.length))
  simp only [sendSessions, time, send, bind, EStateM.bind, if_neg (snprintf_not_neg _),
    if_neg hfits, if_neg (bytes_not_neg _)]

/-- The loop sends one message for each id. -/
theorem sendSessions_all (env : ReplyEnv) (ids : List SessID) (sent : List String) :
    sendSessions env ids sent = .ok () (sent ++ sessionTexts env ids sent.length) := by
  induction ids generalizing sent with
  | nil => simp [sendSessions, sessionTexts, pure, EStateM.pure]
  | cons id ids ih =>
      rw [sendSessions_cons, ih]
      simp [sessionTexts, List.mapIdx_cons, Nat.add_assoc, Nat.add_comm 1]

theorem getRunningSessions_returns (env : ReplyEnv) (ids : List SessID) :
    outcome (getRunningSessions env ids) = (0, runningSessionsTexts env ids) := by
  have hloop := sendSessions_all env ids []
  rw [List.nil_append] at hloop
  simp only [outcome, getRunningSessions, bind, EStateM.bind, hloop, send, pure, EStateM.pure,
    if_neg (bytes_not_neg _)]
  rfl

theorem sendListenerStats_sends (env : ReplyEnv) (sockType : SockType) (sent : List String) :
    ∃ bytes, sendListenerStats env sockType sent =
      .ok bytes (sent ++ [listenerText sockType (env.stats sockType)]) := by
  have hfits := snprintf_fits (length_listenerText sockType (env.stats sockType))
  refine ⟨(BitVec.ofInt 32 (env.sendResult sent.length)).toInt, ?_⟩
  simp only [sendListenerStats, send, bind, EStateM.bind, pure, EStateM.pure,
    if_neg (snprintf_not_neg _), if_neg hfits, if_neg (bytes_not_neg _)]

theorem getStats_returns (env : ReplyEnv) : outcome (getStats env) = (0, statsTexts env) := by
  have hfits := snprintf_fits (length_uptimeText env.startTime (env.time 0))
  obtain ⟨_, htcp⟩ := sendListenerStats_sends env .tcp [uptimeText env.startTime (env.time 0)]
  obtain ⟨_, hwebsock⟩ := sendListenerStats_sends env .websock
    [uptimeText env.startTime (env.time 0), listenerText .tcp (env.stats .tcp)]
  obtain ⟨_, hunix⟩ := sendListenerStats_sends env .unix
    [uptimeText env.startTime (env.time 0), listenerText .tcp (env.stats .tcp),
      listenerText .websock (env.stats .websock)]
  simp only [List.cons_append, List.nil_append] at htcp hwebsock hunix
  simp only [outcome, getStats, time, send, bind, EStateM.bind, pure, EStateM.pure,
    List.length_nil, List.nil_append, List.cons_append, if_neg (snprintf_not_neg _), if_neg hfits,
    if_neg (bytes_not_neg _), htcp, hwebsock, hunix, statsTexts]

/-- An operation that returns 0 behind all of its messages, whatever the results, reports failure
only where there is none. -/
theorem reports_iff {results : Nat → Int} {texts : List String} {done : Int × List String}
    (hdone : done = (0, texts)) :
    Reports results texts done ↔ ∀ k < texts.length, 0 ≤ results k := by
  constructor
  · intro hreports k hk
    by_contra hneg
    -- the first message whose result is negative
    have hex : ∃ k, k < texts.length ∧ results k < 0 := ⟨k, hk, by omega⟩
    obtain ⟨hfirst, hresult⟩ := Nat.find_spec hex
    have hbefore : ∀ i < Nat.find hex, 0 ≤ results i := by
      intro i hi
      have hnot := Nat.find_min hex hi
      exact not_lt.mp fun hlt => hnot ⟨by omega, hlt⟩
    have hstop := hreports.stopped _ hfirst hbefore hresult
    rw [hdone] at hstop
    have hret : (0 : Int) = -1 := congrArg Prod.fst hstop
    omega
  · intro hall
    refine ⟨fun _ => hdone, fun k hk _ hneg => ?_⟩
    have hk := hall k hk
    omega

/-- `GET_RUNNING_SESSIONS` and `GET_STATS` report failure exactly when there is none to
report. -/
theorem replies_report_iff (env : ReplyEnv) (ids : List SessID) :
    (Reports env.sendResult (runningSessionsTexts env ids)
        (outcome (getRunningSessions env ids)) ↔
      ∀ k < (runningSessionsTexts env ids).length, 0 ≤ env.sendResult k) ∧
    (Reports env.sendResult (statsTexts env) (outcome (getStats env)) ↔
      ∀ k < (statsTexts env).length, 0 ≤ env.sendResult k) :=
  ⟨reports_iff (getRunningSessions_returns env ids), reports_iff (getStats_returns env)⟩

def goneClient : ReplyEnv where
  session _ := ⟨.tcp, "127.0.0.1", 36100, 1, 0, 0, by decide⟩
  stats _ := ⟨1, 1, 1⟩
  startTime := 0
  time _ := 10
  sendResult _ := -1

/-- Neither reply stops at the first message for a client that is gone. -/
theorem goneClient_not_reported :
    ¬ Reports goneClient.sendResult (runningSessionsTexts goneClient [0])
        (outcome (getRunningSessions goneClient [0])) ∧
      ¬ Reports goneClient.sendResult (statsTexts goneClient) (outcome (getStats goneClient)) := by
  have hneg : goneClient.sendResult 0 < 0 := by decide
  refine ⟨fun hreports => ?_, fun hreports => ?_⟩
  · have hstop := hreports.stopped 0 (by decide) (by omega) hneg
    rw [getRunningSessions_returns] at hstop
    exact absurd (congrArg Prod.fst hstop) (by decide)
  · have hstop := hreports.stopped 0 (by decide) (by omega) hneg
    rw [getStats_returns] at hstop
    exact absurd (congrArg Prod.fst hstop) (by decide)

end KoheronServer.Server
