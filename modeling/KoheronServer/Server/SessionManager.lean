import KoheronServer.Foundation.Runs
import KoheronServer.Server.Subscribers

/-!
# The session manager

`SessionManager` with the pool of sessions, the reusable ids and the static
counter, and the part of the server that `delete_session` reaches through it, the
subscribers. The order of the pool is that of `std::map`.
-/

namespace KoheronServer.Server

open Foundation

inductive SockType where
  | tcp
  | unix
  | websock
  deriving DecidableEq, Repr

/-- What the manager uses of a session: its kind and its descriptor. -/
structure Session where
  kind : SockType
  commFd : Nat

structure SessionManager where
  numSess : BitVec 32
  sessionPool : Std.TreeMap SessID Session
  reusableIds : List SessID

structure KServer where
  sessionManager : SessionManager
  subscribers : Subscribers channelsCount

inductive Assertion where
  | idNotReusable
  | numSessIsPoolSize
  | noSessionLeft
  deriving DecidableEq, Repr

namespace SessionManager

def empty : SessionManager := ⟨0, ∅, []⟩

def isReusableId (m : SessionManager) (id : SessID) : Bool :=
  m.reusableIds.any fun reusableId => reusableId = id

def getCurrentIds (m : SessionManager) : Except Assertion (List SessID) :=
  if m.sessionPool.keys.any m.isReusableId then .error .idNotReusable else .ok m.sessionPool.keys

def isCurrentId (m : SessionManager) (id : SessID) : Except Assertion Bool :=
  match m.getCurrentIds with
  | .error e => .error e
  | .ok currIds => .ok (currIds.any fun currId => currId = id)

/-- The choice of an id in `create_session`, and the reusable ids behind it. -/
def chooseId (m : SessionManager) : SessID × List SessID :=
  match m.reusableIds.getLast? with
  | none => (m.numSess.toInt, m.reusableIds)
  | some id => (id, m.reusableIds.dropLast)

/-- `create_session`. The insertion into a `std::map` keeps a session that is there. -/
def createSession (m : SessionManager) (kind : SockType) (commFd : Nat) : SessID × SessionManager :=
  (m.chooseId.1,
    { numSess := m.numSess + 1
      sessionPool := m.sessionPool.insertIfNew m.chooseId.1 ⟨kind, commFd⟩
      reusableIds := m.chooseId.2 })

def eraseSession (m : SessionManager) (id : SessID) : SessionManager where
  numSess := m.numSess - 1
  sessionPool := m.sessionPool.erase id
  reusableIds := m.reusableIds ++ [id]

end SessionManager

namespace KServer

def empty : KServer := ⟨.empty, .empty⟩

def createSession (srv : KServer) (kind : SockType) (commFd : Nat) : SessID × KServer :=
  ((srv.sessionManager.createSession kind commFd).1,
    { srv with sessionManager := (srv.sessionManager.createSession kind commFd).2 })

def deleteSession (srv : KServer) (id : SessID) : Except Assertion KServer :=
  match srv.sessionManager.isCurrentId id with
  | .error e => .error e
  | .ok false => .ok srv
  | .ok true =>
      .ok
        { sessionManager := srv.sessionManager.eraseSession id
          subscribers := srv.subscribers.unsubscribe id }

def deleteEach (srv : KServer) : List SessID → Except Assertion KServer
  | [] => .ok srv
  | id :: ids =>
      match srv.deleteSession id with
      | .error e => .error e
      | .ok srv => srv.deleteEach ids

def deleteAll (srv : KServer) : Except Assertion KServer :=
  if srv.sessionManager.numSess.toNat ≠ srv.sessionManager.sessionPool.size then
    .error .numSessIsPoolSize
  else
    match srv.sessionManager.getCurrentIds with
    | .error e => .error e
    | .ok ids =>
        match srv.deleteEach ids with
        | .error e => .error e
        | .ok srv => if srv.sessionManager.numSess = 0 then .ok srv else .error .noSessionLeft

/-- `KServer::execute_op<SUBSCRIBE_PUBSUB>` behind the reception of the channel, whose upper
half the conversion to `uint16_t` drops. -/
def subscribe (srv : KServer) (channel : BitVec 32) (sid : SessID) : Int × KServer :=
  ((srv.subscribers.subscribe (channel.setWidth 16) sid).1,
    { srv with subscribers := (srv.subscribers.subscribe (channel.setWidth 16) sid).2 })

end KServer

/-! ## Steps -/

inductive Event where
  | created (id : SessID) (kind : SockType) (commFd : Nat)
  | deleted (id : SessID)
  | deletedAll
  | subscribed (channel : BitVec 32) (sid : SessID)

/-- A descriptor that `accept` may return: no session holds it open. -/
def SessionManager.Accepts (m : SessionManager) (commFd : Nat) : Prop :=
  commFd < 2 ^ 31 ∧ ∀ (id : SessID) (s : Session), m.sessionPool[id]? = some s → s.commFd ≠ commFd

def Step (srv : KServer) (event : Event) (srv' : KServer) : Prop :=
  match event with
  | .created id kind commFd =>
      srv.sessionManager.Accepts commFd ∧ srv.createSession kind commFd = (id, srv')
  | .deleted id => srv.deleteSession id = .ok srv'
  | .deletedAll => srv.deleteAll = .ok srv'
  | .subscribed channel sid =>
      sid ∈ srv.sessionManager.sessionPool ∧ srv' = (srv.subscribe channel sid).2

end KoheronServer.Server
