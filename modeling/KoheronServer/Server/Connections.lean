import KoheronServer.Foundation.Ownership
import KoheronServer.Server.Subscriptions
import KoheronServer.Server.Workers

/-!
# Connections

The descriptor of a connection goes from `accept` to the variable of
`comm_thread_call`, from there to a session thread and with `create_session` to the
session, which `delete_session` closes. A listener that has reached its limit goes on
without it, and so does one that finds `exit_comm` behind `accept`: these connections
are never closed.
-/

namespace KoheronServer.Server

open Foundation

structure SockOpts where
  sndBuf : Bool
  rcvBuf : Bool
  noDelay : Bool

def setCommSockOpts (tcpNodelay : Bool) (opts : SockOpts) (kernel : HandleTable Nat)
    (commFd : Nat) :
    Int × HandleTable Nat :=
  if opts.sndBuf = false then (-1, kernel.close commFd)
  else if opts.rcvBuf = false then (-1, kernel.close commFd)
  else if tcpNodelay = true ∧ opts.noDelay = false then (-1, kernel.close commFd)
  else (0, kernel)

/-- `open_tcp_communication`, where `accept` fails or returns a descriptor. -/
def openTcpCommunication (tcpNodelay : Bool) (opts : SockOpts) (kernel : HandleTable Nat) :
    Option Nat → Int × HandleTable Nat
  | none => (-1, kernel)
  | some commFd =>
      match setCommSockOpts tcpNodelay opts (kernel.acquire commFd) commFd with
      | (status, kernel) => if status < 0 then (-1, kernel) else (commFd, kernel)

def openCommunication (kind : SockType) (tcpNodelay : Bool) (opts : SockOpts)
    (kernel : HandleTable Nat) (accepted : Option Nat) : Int × HandleTable Nat :=
  match kind with
  | .tcp | .websock => openTcpCommunication tcpNodelay opts kernel accepted
  | .unix =>
      match accepted with
      | none => (-1, kernel)
      | some commFd => (commFd, kernel.acquire commFd)

/-- What `session_thread_call` has of its connection: its argument, the id of its session, or
nothing behind `delete_session`. -/
inductive SessionCall where
  | connection (commFd : Nat)
  | session (sid : SessID)
  | closed
  deriving DecidableEq

/-- The server, its listeners with their variable `comm_fd`, the session threads of each, and the
descriptors of the process. -/
structure Connections where
  srv : KServer
  listeners : SockType → Listener
  commFds : SockType → Int
  calls : SockType → List SessionCall
  tcpNodelay : Bool
  kernel : HandleTable Nat

inductive ConnectionAction where
  | exitComm
  | checkExit (kind : SockType)
  | openCommunication (kind : SockType) (accepted : Option Nat) (opts : SockOpts)
  | checkOpened (kind : SockType)
  | isMaxThreads (kind : SockType)
  | spawn (kind : SockType)
  | incThreadNum (kind : SockType) (t : Nat)
  | createSession (kind : SockType) (t : Nat)
  | run (kind : SockType) (t : Nat)
  | deleteSession (kind : SockType) (t : Nat)
  | decThreadNum (kind : SockType) (t : Nat)
  | deleteAll (id : SessID)

namespace Connections

def init (config : WorkerConnections) (tcpNodelay : Bool) : Connections where
  srv := .empty
  listeners := Listener.init config
  commFds := fun _ => -1
  calls := fun _ => []
  tcpNodelay := tcpNodelay
  kernel := .empty

def advance (s : Connections) (kind : SockType) (a : Listener.Action) : Option Connections :=
  match (s.listeners kind).step a with
  | none => none
  | some listener => some { s with listeners := Function.update s.listeners kind listener }

def setCall (s : Connections) (kind : SockType) (t : Nat) (call : SessionCall) : Connections :=
  { s with calls := Function.update s.calls kind ((s.calls kind).set t call) }

/-- `delete_session`, with the `close` of the descriptor of the session. -/
def deleteSession (s : Connections) (id : SessID) : Option Connections :=
  match s.srv.deleteSession id with
  | .error _ => none
  | .ok srv =>
      match s.srv.sessionManager.sessionPool[id]? with
      | none => some { s with srv := srv }
      | some session => some { s with srv := srv, kernel := s.kernel.close session.commFd }

/-- A result of `accept`: a descriptor that is not open, and fits in an `int`. -/
def offers (s : Connections) : Option Nat → Bool
  | none => true
  | some commFd => (s.kernel.resource commFd).isNone && decide (commFd < 2 ^ 31)

def step (s : Connections) : ConnectionAction → Option Connections
  | .exitComm =>
      some { s with listeners := fun kind => { s.listeners kind with exitComm := true } }
  | .checkExit kind => s.advance kind .checkExit
  | .openCommunication kind accepted opts =>
      if s.offers accepted then
        match Server.openCommunication kind s.tcpNodelay opts s.kernel accepted with
        | (commFd, kernel) =>
            advance { s with commFds := Function.update s.commFds kind commFd, kernel := kernel } kind
              (.openCommunication commFd)
      else none
  | .checkOpened kind => s.advance kind .checkOpened
  | .isMaxThreads kind => s.advance kind .isMaxThreads
  | .spawn kind =>
      advance
        { s with
          calls :=
            Function.update s.calls kind (s.calls kind ++ [.connection (s.commFds kind).toNat]) }
        kind .spawn
  | .incThreadNum kind t => s.advance kind (.incThreadNum t)
  | .createSession kind t =>
      match (s.listeners kind).sessions[t]?, (s.calls kind)[t]? with
      | some .counted, some (.connection commFd) =>
          some
            { s.setCall kind t (.session (s.srv.createSession kind commFd).1) with
              srv := (s.srv.createSession kind commFd).2 }
      | _, _ => none
  | .run kind t =>
      match (s.calls kind)[t]? with
      | some (.session _) => s.advance kind (.run t)
      | _ => none
  | .deleteSession kind t =>
      match (s.listeners kind).sessions[t]?, (s.calls kind)[t]? with
      | some .ran, some (.session sid) => (s.setCall kind t .closed).deleteSession sid
      | _, _ => none
  | .decThreadNum kind t =>
      match (s.calls kind)[t]? with
      | some .closed => s.advance kind (.decThreadNum t)
      | _ => none
  | .deleteAll id => s.deleteSession id

abbrev Runs (config : WorkerConnections) (tcpNodelay : Bool)
    (past : List (Connections × ConnectionAction)) (s : Connections) : Prop :=
  Run (fun s a s' => step s a = some s') (init config tcpNodelay) past s

/-! ## Who has a connection -/

/-- A listener between `accept` and the start of the thread, a session thread in front of
`create_session`, and a session. -/
inductive Place where
  | listener (kind : SockType)
  | thread (kind : SockType) (t : Nat)
  | session (id : SessID)
  deriving DecidableEq

/-- The descriptor that a listener has between `accept` and the start of the thread. -/
def listenerFd (comm : CommThread) (commFd : Int) : Option Nat :=
  match comm with
  | .opened _ | .testing | .spawning => if 0 ≤ commFd then some commFd.toNat else none
  | .loop | .opening | .closed => none

/-- The descriptor that a session thread has in front of `create_session`. -/
def callFd : SessionCall → Option Nat
  | .connection commFd => some commFd
  | .session _ | .closed => none

def held (s : Connections) : Place → Option Nat
  | .listener kind => listenerFd (s.listeners kind).comm (s.commFds kind)
  | .thread kind t => (s.calls kind)[t]?.bind callFd
  | .session id => s.srv.sessionManager.sessionPool[id]?.map Session.commFd

def ownership (s : Connections) : Ownership Place Nat := ⟨s.kernel, s.held⟩

/-- The steps behind which nobody has the connection of a listener: the limit is reached, or
`exit_comm` is found behind `accept`. -/
def Drops (s : Connections) : ConnectionAction → Prop
  | .checkOpened kind => (s.listeners kind).exitComm = true ∧ 0 ≤ s.commFds kind
  | .isMaxThreads kind => (s.listeners kind).isMaxThreads = true
  | _ => False

instance (s : Connections) : DecidablePred s.Drops
  | .checkOpened _ => inferInstanceAs (Decidable (_ ∧ _))
  | .isMaxThreads _ => inferInstanceAs (Decidable (_ = _))
  | .exitComm | .checkExit _ | .openCommunication _ _ _ | .spawn _ | .incThreadNum _ _
  | .createSession _ _ | .run _ _ | .deleteSession _ _ | .decThreadNum _ _ | .deleteAll _ => .isFalse id

def deletion (s : Connections) (id : SessID) : Handover Place Nat :=
  match s.srv.sessionManager.sessionPool[id]? with
  | none => .keep
  | some _ => .release (.session id)

def handover (s : Connections) : ConnectionAction → Handover Place Nat
  | .openCommunication _ none _ => .keep
  | .openCommunication kind (some fd) opts =>
      if (Server.openCommunication kind s.tcpNodelay opts s.kernel (some fd)).1 < 0 then .refuse fd
      else .acquire (.listener kind) fd
  | .checkOpened kind =>
      if (s.listeners kind).exitComm = true ∧ 0 ≤ s.commFds kind then .drop (.listener kind)
      else .keep
  | .isMaxThreads kind =>
      if (s.listeners kind).isMaxThreads = true then .drop (.listener kind) else .keep
  | .spawn kind => .pass (.listener kind) (.thread kind (s.calls kind).length)
  | .createSession kind t => .pass (.thread kind t) (.session s.srv.sessionManager.chooseId.1)
  | .deleteSession kind t =>
      match (s.calls kind)[t]? with
      | some (.session sid) => s.deletion sid
      | _ => .keep
  | .deleteAll id => s.deletion id
  | .exitComm | .checkExit _ | .incThreadNum _ _ | .run _ _ | .decThreadNum _ _ => .keep

theorem drops_iff {s : Connections} {a : ConnectionAction} :
    s.Drops a ↔ ∃ p, s.handover a = .drop p := by
  have hdeletion : ∀ id p, s.deletion id ≠ .drop p := by
    intro id p
    unfold deletion
    split <;> simp
  cases a with
  | checkOpened kind => simp only [Drops, handover]; split <;> simp_all
  | isMaxThreads kind => simp only [Drops, handover]; split <;> simp_all
  | openCommunication kind accepted opts =>
      cases accepted with
      | none => simp [Drops, handover]
      | some fd =>
          simp only [Drops, handover]
          split <;> simp
  | deleteSession kind t =>
      simp only [Drops, handover]
      split <;> simp [hdeletion]
  | deleteAll id => simp [Drops, handover, hdeletion]
  | exitComm | checkExit | spawn | incThreadNum | createSession | run | decThreadNum =>
      simp [Drops, handover]

/-! ## The places behind a step -/

variable {s s' : Connections} {kind : SockType}

theorem advance_eq {a : Listener.Action} (h : s.advance kind a = some s') :
    ∃ listener, (s.listeners kind).step a = some listener ∧
      s' = { s with listeners := Function.update s.listeners kind listener } := by
  unfold advance at h
  split at h
  case h_1 => cases h
  case h_2 listener hstep => exact ⟨listener, hstep, (Option.some.inj h).symm⟩

theorem held_listener (s : Connections) (kind : SockType) (listener : Listener) (commFd : Int)
    (kernel : HandleTable Nat) :
    held
        { s with
          listeners := Function.update s.listeners kind listener
          commFds := Function.update s.commFds kind commFd
          kernel := kernel } =
      Function.update s.held (.listener kind) (listenerFd listener.comm commFd) := by
  funext p
  cases p with
  | listener kind' =>
      by_cases hkind : kind' = kind
      · subst hkind
        simp only [held, Function.update_self]
      · have hne : Place.listener kind' ≠ .listener kind := fun heq =>
          hkind (Place.listener.inj heq)
        rw [Function.update_of_ne hne]
        simp only [held, Function.update_of_ne hkind]
  | thread kind' t => rfl
  | session id => rfl

theorem held_setListener (s : Connections) (kind : SockType) (listener : Listener) :
    held { s with listeners := Function.update s.listeners kind listener } =
      Function.update s.held (.listener kind) (listenerFd listener.comm (s.commFds kind)) := by
  have h := held_listener s kind listener (s.commFds kind) s.kernel
  rwa [Function.update_eq_self] at h

theorem held_setCall (s : Connections) {t : Nat} {before : SessionCall}
    (ht : (s.calls kind)[t]? = some before) (call : SessionCall) :
    (s.setCall kind t call).held = Function.update s.held (.thread kind t) (callFd call) := by
  have hlt : t < (s.calls kind).length := (List.getElem?_eq_some_iff.mp ht).choose
  funext p
  cases p with
  | listener kind' => rfl
  | thread kind' t' =>
      by_cases hplace : Place.thread kind' t' = .thread kind t
      · obtain ⟨rfl, rfl⟩ := Place.thread.inj hplace
        rw [Function.update_self]
        simp [held, setCall, hlt]
      · rw [Function.update_of_ne hplace]
        simp only [held, setCall]
        by_cases hkind : kind' = kind
        · subst hkind
          have hne : t ≠ t' := fun heq => hplace (heq ▸ rfl)
          rw [Function.update_self, List.getElem?_set_ne hne]
        · rw [Function.update_of_ne hkind]
  | session id => rfl

theorem held_spawn (s : Connections) (kind : SockType) (commFd : Nat) :
    held { s with calls := Function.update s.calls kind (s.calls kind ++ [.connection commFd]) } =
      Function.update s.held (.thread kind (s.calls kind).length) (some commFd) := by
  funext p
  cases p with
  | listener kind' => rfl
  | thread kind' t' =>
      by_cases hplace : Place.thread kind' t' = .thread kind (s.calls kind).length
      · obtain ⟨rfl, rfl⟩ := Place.thread.inj hplace
        rw [Function.update_self]
        simp [held, callFd]
      · rw [Function.update_of_ne hplace]
        simp only [held]
        by_cases hkind : kind' = kind
        · subst hkind
          have hne : t' ≠ (s.calls kind').length := fun heq => hplace (heq ▸ rfl)
          rw [Function.update_self]
          rcases Nat.lt_or_gt_of_ne hne with hlt | hgt
          · rw [List.getElem?_append_left hlt]
          · rw [List.getElem?_eq_none (by simp; omega), List.getElem?_eq_none (by omega)]
        · rw [Function.update_of_ne hkind]
  | session id => rfl

theorem held_createSession (s : Connections) (kind : SockType) (commFd : Nat)
    (hid : s.srv.sessionManager.chooseId.1 ∉ s.srv.sessionManager.sessionPool) :
    held { s with srv := (s.srv.createSession kind commFd).2 } =
      Function.update s.held (.session s.srv.sessionManager.chooseId.1) (some commFd) := by
  funext p
  cases p with
  | listener kind' => rfl
  | thread kind' t => rfl
  | session id =>
      simp only [held, KServer.createSession, SessionManager.createSession,
        Std.TreeMap.getElem?_insertIfNew, compare_eq]
      by_cases heq : s.srv.sessionManager.chooseId.1 = id
      · subst heq
        rw [if_pos ⟨rfl, hid⟩, Function.update_self]
        rfl
      · rw [if_neg fun hand => heq hand.1, Function.update_of_ne fun hp => heq (Place.session.inj hp).symm]
        rfl

theorem held_erase (s : Connections) (id : SessID) (subs : Subscribers channelsCount)
    (kernel : HandleTable Nat) :
    held { s with srv := ⟨s.srv.sessionManager.eraseSession id, subs⟩, kernel := kernel } =
      Function.update s.held (.session id) none := by
  funext p
  cases p with
  | listener kind' => rfl
  | thread kind' t => rfl
  | session id' =>
      simp only [held, SessionManager.eraseSession, Std.TreeMap.getElem?_erase, compare_eq]
      by_cases heq : id = id'
      · subst heq
        rw [if_pos rfl, Function.update_self]
        rfl
      · rw [if_neg heq, Function.update_of_ne fun hp => heq (Place.session.inj hp).symm]
        rfl

/-! ## Every step hands the descriptors over -/

/-- The variable `comm_fd` is the result of `open_communication`, and a descriptor behind the test
of it. -/
def CommFits (comm : CommThread) (commFd : Int) : Prop :=
  match comm with
  | .opened result => commFd = result
  | .testing | .spawning => 0 ≤ commFd
  | .loop | .opening | .closed => True

structure Inv (s : Connections) : Prop where
  srv : s.srv.Consistent
  comm : ∀ kind, CommFits (s.listeners kind).comm (s.commFds kind)
  ownership : s.ownership.Valid
  int : ∀ commFd c, s.kernel.resource commFd = some c → commFd < 2 ^ 31

theorem init_inv (config : WorkerConnections) (tcpNodelay : Bool) :
    (init config tcpNodelay).Inv where
  srv := Run.consistent .start
  comm _ := trivial
  ownership := by
    have hnone : ∀ p fd, (init config tcpNodelay).held p ≠ some fd := by
      intro p fd hp
      cases p <;> cases hp
    exact ⟨HandleTable.empty_valid, fun p fd hp => absurd hp (hnone p fd),
      fun p _ fd hp => absurd hp (hnone p fd)⟩
  int _ _ h := nomatch h

theorem commFits_update (h : s.Inv) (kind : SockType) {listener : Listener} {commFd : Int}
    (hfits : CommFits listener.comm commFd) (kind' : SockType) :
    CommFits (Function.update s.listeners kind listener kind').comm
      (Function.update s.commFds kind commFd kind') := by
  by_cases hkind : kind' = kind
  · subst hkind
    rwa [Function.update_self, Function.update_self]
  · rw [Function.update_of_ne hkind, Function.update_of_ne hkind]
    exact h.comm kind'

theorem Inv.advance_keep (h : s.Inv) {a : Listener.Action} (hstep : s.advance kind a = some s')
    (hcomm : ∀ listener, (s.listeners kind).step a = some listener →
      listenerFd listener.comm (s.commFds kind) =
      listenerFd (s.listeners kind).comm (s.commFds kind) ∧
        CommFits listener.comm (s.commFds kind)) :
    s'.Inv ∧ s.ownership.step .keep = some s'.ownership := by
  obtain ⟨listener, hlistener, rfl⟩ := advance_eq hstep
  obtain ⟨hfd, hfits⟩ := hcomm listener hlistener
  have hheld : held { s with listeners := Function.update s.listeners kind listener } = s.held := by
    rw [held_setListener, hfd]
    exact Function.update_eq_self _ _
  have hown : Connections.ownership { s with listeners := Function.update s.listeners kind listener } =
      s.ownership := by
    rw [Connections.ownership, hheld]
    rfl
  refine ⟨⟨h.srv, ?_, ?_, h.int⟩, ?_⟩
  · have hupdate := commFits_update h kind hfits
    rwa [Function.update_eq_self] at hupdate
  · rw [hown]
    exact h.ownership
  · rw [hown]
    rfl

theorem Inv.advance_drop (h : s.Inv) {a : Listener.Action} (hstep : s.advance kind a = some s')
    (hcomm : ∀ listener, (s.listeners kind).step a = some listener →
      listenerFd (s.listeners kind).comm (s.commFds kind) = some (s.commFds kind).toNat ∧
        (listener.comm = .loop ∨ listener.comm = .closed)) :
    s'.Inv ∧ s.ownership.step (.drop (.listener kind)) = some s'.ownership := by
  obtain ⟨listener, hlistener, rfl⟩ := advance_eq hstep
  obtain ⟨hheld, hcomm⟩ := hcomm listener hlistener
  have hfits : CommFits listener.comm (s.commFds kind) := by
    rcases hcomm with hcomm | hcomm <;> rw [hcomm] <;> trivial
  have hnone : listenerFd listener.comm (s.commFds kind) = none := by
    rcases hcomm with hcomm | hcomm <;> rw [hcomm] <;> rfl
  have hown : s.ownership.step (.drop (.listener kind)) =
      some (Connections.ownership { s with listeners := Function.update s.listeners kind listener }) := by
    have hplace : s.ownership.held (.listener kind) = some (s.commFds kind).toNat := hheld
    have hafter := held_setListener s kind listener
    rw [hnone] at hafter
    simp only [Ownership.step, hplace]
    exact congrArg (fun held => some (Ownership.mk s.kernel held)) hafter.symm
  refine ⟨⟨h.srv, ?_, h.ownership.step hown, h.int⟩, hown⟩
  have hupdate := commFits_update h kind hfits
  rwa [Function.update_eq_self] at hupdate

theorem openCommunication_cases (kind : SockType) (tcpNodelay : Bool) (opts : SockOpts)
    (kernel : HandleTable Nat) (commFd : Nat) :
    openCommunication kind tcpNodelay opts kernel (some commFd) =
        (-1, (kernel.acquire commFd).close commFd) ∨
      openCommunication kind tcpNodelay opts kernel (some commFd) =
        ((commFd : Int), kernel.acquire commFd) := by
  have htcp : openTcpCommunication tcpNodelay opts kernel (some commFd) =
        (-1, (kernel.acquire commFd).close commFd) ∨
      openTcpCommunication tcpNodelay opts kernel (some commFd) =
        ((commFd : Int), kernel.acquire commFd) := by
    unfold openTcpCommunication setCommSockOpts
    split_ifs
    · exact .inl rfl
    · exact .inl rfl
    · exact .inl rfl
    · exact .inr rfl
  cases kind with
  | tcp | websock => exact htcp
  | unix => exact .inr rfl

theorem openCommunication_none (kind : SockType) (tcpNodelay : Bool) (opts : SockOpts)
    (kernel : HandleTable Nat) :
    openCommunication kind tcpNodelay opts kernel none = (-1, kernel) := by
  cases kind <;> rfl

theorem Inv.opened (h : s.Inv) {commFd : Int} {kernel : HandleTable Nat} {listener : Listener}
    {a : Handover Place Nat} (hcomm : listener.comm = .opened commFd)
    (hown : s.ownership.step a =
      some ⟨kernel, Function.update s.held (.listener kind) (listenerFd (.opened commFd) commFd)⟩)
    (hint : ∀ fd c, kernel.resource fd = some c → fd < 2 ^ 31)
    (hs' : s' =
      { s with
        listeners := Function.update s.listeners kind listener
        commFds := Function.update s.commFds kind commFd
        kernel := kernel }) :
    s'.Inv ∧ s.ownership.step a = some s'.ownership := by
  have hheld : s'.held =
      Function.update s.held (.listener kind) (listenerFd (.opened commFd) commFd) := by
    rw [hs', held_listener, hcomm]
  have hafter : s.ownership.step a = some s'.ownership := by
    rw [hown, ← hheld, hs']
    rfl
  have hfits : CommFits listener.comm commFd := by
    rw [hcomm]
    exact rfl
  refine ⟨⟨?_, ?_, h.ownership.step hafter, ?_⟩, hafter⟩
  · rw [hs']
    exact h.srv
  · rw [hs']
    exact commFits_update h kind hfits
  · rw [hs']
    exact hint

theorem Inv.openCommunication (h : s.Inv) {accepted : Option Nat} {opts : SockOpts}
    (hstep : s.step (.openCommunication kind accepted opts) = some s') :
    s'.Inv ∧ s.ownership.step (s.handover (.openCommunication kind accepted opts)) =
      some s'.ownership := by
  simp only [Connections.step] at hstep
  split at hstep
  case isFalse => cases hstep
  case isTrue hoffers =>
    obtain ⟨listener, hlistener, hs'⟩ := advance_eq hstep
    have hopening : (s.listeners kind).comm = .opening := by
      unfold Listener.step at hlistener
      cases hcomm : (s.listeners kind).comm <;> simp [hcomm] at hlistener
      rfl
    have hnone : s.held (.listener kind) = none := by
      simp only [held, hopening, listenerFd]
    simp only [Listener.step, hopening, Option.some.injEq] at hlistener
    have hcomm := (congrArg Listener.comm hlistener).symm
    cases accepted with
    | none =>
        rw [openCommunication_none] at hs' hcomm
        refine h.opened hcomm ?_ h.int hs'
        simp only [handover, Ownership.step]
        rw [show listenerFd (.opened (-1)) (-1) = s.held (.listener kind) from hnone.symm,
          Function.update_eq_self]
        rfl
    | some fd =>
        simp only [offers, Bool.and_eq_true, Option.isNone_iff_eq_none,
          decide_eq_true_eq] at hoffers
        have hint : ∀ fd' c, (s.kernel.acquire fd).resource fd' = some c → fd' < 2 ^ 31 := by
          intro fd' c hc
          rcases HandleTable.resource_acquire hc with ⟨rfl, -⟩ | ⟨-, hc⟩
          · exact hoffers.2
          · exact h.int fd' c hc
        have hfree : s.ownership.table.resource fd = none := hoffers.1
        rcases openCommunication_cases kind s.tcpNodelay opts s.kernel fd with heq | heq
        · have hrefuse : s.handover (.openCommunication kind (some fd) opts) = .refuse fd := by
            rw [handover, heq]
            rfl
          rw [heq] at hs' hcomm
          refine h.opened hcomm ?_ (fun fd' c hc => ?_) hs'
          · rw [hrefuse, Ownership.step, if_pos hfree]
            rw [show listenerFd (.opened (-1)) (-1) = s.held (.listener kind) from hnone.symm,
              Function.update_eq_self]
            rfl
          · exact hint fd' c (HandleTable.resource_close.mp hc).2
        · have hacquire : s.handover (.openCommunication kind (some fd) opts) =
              .acquire (.listener kind) fd := by
            rw [handover, heq]
            exact if_neg (by omega)
          rw [heq] at hs' hcomm
          refine h.opened hcomm ?_ hint hs'
          rw [hacquire, Ownership.step, if_pos ⟨hfree, hnone⟩]
          rfl

/-- The listener gives its descriptor to the thread that it starts. -/
theorem Inv.spawn (h : s.Inv) (hstep : s.step (.spawn kind) = some s') :
    s'.Inv ∧ s.ownership.step (s.handover (.spawn kind)) = some s'.ownership := by
  obtain ⟨listener, hlistener, hs'⟩ := advance_eq hstep
  have hspawning : (s.listeners kind).comm = .spawning := by
    unfold Listener.step at hlistener
    cases hcomm : (s.listeners kind).comm <;> simp [hcomm] at hlistener
    rfl
  simp only [Listener.step, hspawning, Option.some.injEq] at hlistener
  have hloop : listener.comm = .loop := (congrArg Listener.comm hlistener).symm
  have hcommFd : 0 ≤ s.commFds kind := by
    have hfits := h.comm kind
    rwa [hspawning] at hfits
  have hplace : s.held (.listener kind) = some (s.commFds kind).toNat := by
    simp only [held, hspawning, listenerFd, if_pos hcommFd]
  have hnone : s.held (.thread kind (s.calls kind).length) = none := by
    simp [held]
  have hheld : s'.held =
      Function.update (Function.update s.held (.listener kind) none)
        (.thread kind (s.calls kind).length) (some (s.commFds kind).toNat) := by
    rw [hs', held_setListener, held_spawn, hloop, Function.update_comm (by simp)]
    rfl
  have hafter : s.ownership.step (s.handover (.spawn kind)) = some s'.ownership := by
    have hlistenerPlace : s.ownership.held (.listener kind) = some (s.commFds kind).toNat := hplace
    have hthreadPlace : s.ownership.held (.thread kind (s.calls kind).length) = none := hnone
    simp only [handover, Ownership.step, hlistenerPlace, hthreadPlace]
    rw [Connections.ownership, Connections.ownership, hheld, hs']
  refine ⟨⟨?_, ?_, h.ownership.step hafter, ?_⟩, hafter⟩
  · rw [hs']
    exact h.srv
  · have hfits : CommFits listener.comm (s.commFds kind) := by
      rw [hloop]
      trivial
    have hupdate := commFits_update h kind hfits
    rw [Function.update_eq_self] at hupdate
    rw [hs']
    exact hupdate
  · rw [hs']
    exact h.int

/-- The thread gives its descriptor to its session. -/
theorem Inv.createSession (h : s.Inv) {t : Nat} (hstep : s.step (.createSession kind t) = some s') :
    s'.Inv ∧ s.ownership.step (s.handover (.createSession kind t)) = some s'.ownership := by
  simp only [Connections.step] at hstep
  split at hstep
  case h_2 => cases hstep
  case h_1 commFd _ hcall =>
    have hs' := (Option.some.inj hstep).symm
    have hplace : s.held (.thread kind t) = some commFd := by
      simp [held, hcall, callFd]
    have hfresh := chooseId_notMem h.srv.valid
    have hnone : s.held (.session s.srv.sessionManager.chooseId.1) = none := by
      simp [held, Std.TreeMap.getElem?_eq_none hfresh]
    have haccepts : s.srv.sessionManager.Accepts commFd := by
      constructor
      · obtain ⟨c, hc⟩ := h.ownership.isOpen (.thread kind t) commFd hplace
        exact h.int commFd c hc
      · rintro id session hsession rfl
        have hother : s.held (.session id) = some session.commFd := by
          simp [held, hsession]
        cases h.ownership.distinct (.thread kind t) (.session id) session.commFd hplace hother
    have hheld : s'.held =
        Function.update (Function.update s.held (.thread kind t) none)
          (.session s.srv.sessionManager.chooseId.1) (some commFd) := by
      rw [hs']
      have hcreated := held_createSession
        (s.setCall kind t (.session (s.srv.createSession kind commFd).1)) kind commFd hfresh
      rw [held_setCall s hcall] at hcreated
      exact hcreated
    have hafter : s.ownership.step (s.handover (.createSession kind t)) = some s'.ownership := by
      have hthread : s.ownership.held (.thread kind t) = some commFd := hplace
      have hsession : s.ownership.held (.session s.srv.sessionManager.chooseId.1) = none := hnone
      simp only [handover, Ownership.step, hthread, hsession]
      rw [Connections.ownership, Connections.ownership, hheld, hs']
      rfl
    refine ⟨⟨?_, ?_, h.ownership.step hafter, ?_⟩, hafter⟩
    · rw [hs']
      exact h.srv.createSession kind haccepts
    · rw [hs']
      exact h.comm
    · rw [hs']
      exact h.int

/-- `delete_session` closes the descriptor of the session. -/
theorem Inv.deleteSession (h : s.Inv) {id : SessID} (hstep : s.deleteSession id = some s') :
    s'.Inv ∧ s.ownership.step (s.deletion id) = some s'.ownership := by
  have hdelete := h.srv.valid.deleteSession id
  unfold Connections.deleteSession at hstep
  rw [hdelete] at hstep
  by_cases hid : id ∈ s.srv.sessionManager.sessionPool
  · rw [if_pos hid] at hdelete
    obtain ⟨session, hsession⟩ : ∃ session, s.srv.sessionManager.sessionPool[id]? = some session :=
      ⟨_, Std.TreeMap.getElem?_eq_some_getElem hid⟩
    simp only [if_pos hid, hsession, Option.some.injEq] at hstep
    have hs' := hstep.symm
    have hheld : s'.held = Function.update s.held (.session id) none := by
      rw [hs']
      exact held_erase s id _ _
    have hplace : s.ownership.held (.session id) = some session.commFd := by
      simp only [Connections.ownership, held, hsession, Option.map_some]
    have hafter : s.ownership.step (s.deletion id) = some s'.ownership := by
      simp only [deletion, hsession, Ownership.step, hplace]
      rw [Connections.ownership, Connections.ownership, hheld, hs']
    refine ⟨⟨?_, ?_, h.ownership.step hafter, ?_⟩, hafter⟩
    · rw [hs']
      exact (h.srv.deleteSession hdelete).1
    · rw [hs']
      exact h.comm
    · rw [hs']
      exact fun fd c hc => h.int fd c (HandleTable.resource_close.mp hc).2
  · simp only [if_neg hid, Std.TreeMap.getElem?_eq_none hid, Option.some.injEq] at hstep
    subst hstep
    refine ⟨h, ?_⟩
    rw [deletion, Std.TreeMap.getElem?_eq_none hid]
    rfl

/-- A session thread calls `delete_session`. -/
theorem Inv.setCall_closed (h : s.Inv) {t : Nat} {sid : SessID}
    (ht : (s.calls kind)[t]? = some (.session sid)) :
    (s.setCall kind t .closed).Inv ∧ (s.setCall kind t .closed).ownership = s.ownership := by
  have hnone : s.held (.thread kind t) = none := by
    simp [held, ht, callFd]
  have hheld : (s.setCall kind t .closed).held = s.held := by
    rw [held_setCall s ht, show callFd .closed = s.held (.thread kind t) from hnone.symm,
      Function.update_eq_self]
  have hown : (s.setCall kind t .closed).ownership = s.ownership := by
    rw [Connections.ownership, hheld]
    rfl
  refine ⟨⟨h.srv, h.comm, ?_, h.int⟩, hown⟩
  rw [hown]
  exact h.ownership

theorem Inv.advance_thread (h : s.Inv) {a : Listener.Action} (hstep : s.advance kind a = some s')
    (ha : ∃ t, a = .incThreadNum t ∨ a = .run t ∨ a = .decThreadNum t) :
    s'.Inv ∧ s.ownership.step .keep = some s'.ownership := by
  refine h.advance_keep hstep fun listener hlistener => ?_
  have hcomm : listener.comm = (s.listeners kind).comm := by
    obtain ⟨t, rfl | rfl | rfl⟩ := ha
    all_goals
      simp only [Listener.step] at hlistener
      split at hlistener
      · obtain rfl := Option.some.inj hlistener
        rfl
      · cases hlistener
  rw [hcomm]
  exact ⟨rfl, h.comm kind⟩

theorem Inv.checkOpened (h : s.Inv) (hstep : s.advance kind .checkOpened = some s') :
    s'.Inv ∧ s.ownership.step (s.handover (.checkOpened kind)) = some s'.ownership := by
  obtain ⟨result, hopened⟩ : ∃ result, (s.listeners kind).comm = .opened result := by
    obtain ⟨listener, hlistener, -⟩ := advance_eq hstep
    unfold Listener.step at hlistener
    cases hcomm : (s.listeners kind).comm <;> simp [hcomm] at hlistener
    exact ⟨_, rfl⟩
  have hresult : s.commFds kind = result := by
    have hfits := h.comm kind
    rwa [hopened] at hfits
  have hlistener : ∀ listener, (s.listeners kind).step .checkOpened = some listener →
      listener.comm =
        if (s.listeners kind).exitComm then .closed
        else if result < 0 then .loop
        else .testing := by
    intro listener hlistener
    simp only [Listener.step, hopened, Option.some.injEq] at hlistener
    exact (congrArg Listener.comm hlistener).symm
  by_cases hdrop : (s.listeners kind).exitComm = true ∧ 0 ≤ s.commFds kind
  · rw [handover, if_pos hdrop]
    refine h.advance_drop hstep fun listener htaken => ⟨?_, .inr ?_⟩
    · rw [hopened, listenerFd, if_pos hdrop.2]
    · rw [hlistener listener htaken, if_pos hdrop.1]
  · rw [handover, if_neg hdrop]
    refine h.advance_keep hstep fun listener htaken => ?_
    rw [hlistener listener htaken, hopened, hresult]
    rw [hresult] at hdrop
    by_cases hexit : (s.listeners kind).exitComm = true
    · have hneg : ¬0 ≤ result := fun hle => hdrop ⟨hexit, hle⟩
      rw [if_pos hexit, listenerFd, listenerFd, if_neg hneg]
      exact ⟨rfl, trivial⟩
    · rw [if_neg hexit]
      by_cases hneg : result < 0
      · rw [if_pos hneg, listenerFd, listenerFd, if_neg (by omega)]
        exact ⟨rfl, trivial⟩
      · rw [if_neg hneg]
        exact ⟨rfl, Int.not_lt.mp hneg⟩

theorem Inv.isMaxThreads (h : s.Inv) (hstep : s.advance kind .isMaxThreads = some s') :
    s'.Inv ∧ s.ownership.step (s.handover (.isMaxThreads kind)) = some s'.ownership := by
  have htesting : (s.listeners kind).comm = .testing := by
    obtain ⟨listener, hlistener, -⟩ := advance_eq hstep
    unfold Listener.step at hlistener
    cases hcomm : (s.listeners kind).comm <;> simp [hcomm] at hlistener
    rfl
  have hcommFd : 0 ≤ s.commFds kind := by
    have hfits := h.comm kind
    rwa [htesting] at hfits
  have hlistener : ∀ listener, (s.listeners kind).step .isMaxThreads = some listener →
      listener.comm = if (s.listeners kind).isMaxThreads then .loop else .spawning := by
    intro listener hlistener
    simp only [Listener.step, htesting, Option.some.injEq] at hlistener
    exact (congrArg Listener.comm hlistener).symm
  by_cases hmax : (s.listeners kind).isMaxThreads = true
  · rw [handover, if_pos hmax]
    refine h.advance_drop hstep fun listener htaken => ⟨?_, .inl ?_⟩
    · rw [htesting, listenerFd, if_pos hcommFd]
    · rw [hlistener listener htaken, if_pos hmax]
  · rw [handover, if_neg hmax]
    refine h.advance_keep hstep fun listener htaken => ?_
    rw [hlistener listener htaken, if_neg hmax, htesting]
    exact ⟨rfl, hcommFd⟩

theorem Inv.step {a : ConnectionAction} (h : s.Inv) (hstep : s.step a = some s') :
    s'.Inv ∧ s.ownership.step (s.handover a) = some s'.ownership := by
  cases a with
  | exitComm =>
      obtain rfl := Option.some.inj hstep
      have hheld : held { s with
          listeners := fun kind => { s.listeners kind with exitComm := true } } = s.held := by
        funext p
        cases p <;> rfl
      refine ⟨⟨h.srv, h.comm, ?_, h.int⟩, ?_⟩
      · rw [Connections.ownership, hheld]
        exact h.ownership
      · rw [Connections.ownership, Connections.ownership, hheld]
        rfl
  | checkExit kind =>
      refine h.advance_keep hstep fun listener hlistener => ?_
      unfold Listener.step at hlistener
      cases hcomm : (s.listeners kind).comm <;> simp only [hcomm, reduceCtorEq] at hlistener
      obtain rfl := Option.some.inj hlistener
      cases (s.listeners kind).exitComm <;> exact ⟨rfl, trivial⟩
  | openCommunication kind accepted opts => exact h.openCommunication hstep
  | checkOpened kind => exact h.checkOpened hstep
  | isMaxThreads kind => exact h.isMaxThreads hstep
  | spawn kind => exact h.spawn hstep
  | incThreadNum kind t => exact h.advance_thread hstep ⟨t, .inl rfl⟩
  | createSession kind t => exact h.createSession hstep
  | run kind t =>
      simp only [Connections.step] at hstep
      split at hstep
      · exact h.advance_thread hstep ⟨t, .inr (.inl rfl)⟩
      · cases hstep
  | deleteSession kind t =>
      simp only [Connections.step] at hstep
      split at hstep
      case h_2 => cases hstep
      case h_1 sid _ hcall =>
        obtain ⟨hclosed, hown⟩ := h.setCall_closed hcall
        obtain ⟨hinv, hafter⟩ := hclosed.deleteSession hstep
        refine ⟨hinv, ?_⟩
        rw [hown] at hafter
        rw [handover, hcall]
        exact hafter
  | decThreadNum kind t =>
      simp only [Connections.step] at hstep
      split at hstep
      · exact h.advance_thread hstep ⟨t, .inr (.inr rfl)⟩
      · cases hstep
  | deleteAll id => exact h.deleteSession hstep

theorem Runs.inv {config : WorkerConnections} {tcpNodelay : Bool}
    {past : List (Connections × ConnectionAction)} (h : Runs config tcpNodelay past s) : s.Inv :=
  Run.invariant (P := Inv) (init_inv config tcpNodelay) (fun hinv hstep => (hinv.step hstep).1) h

/-- The descriptors of a run are handed over from place to place. -/
theorem Runs.ownership {config : WorkerConnections} {tcpNodelay : Bool}
    {past : List (Connections × ConnectionAction)} (h : Runs config tcpNodelay past s) :
    Ownership.Runs (past.map fun x => (x.1.ownership, x.1.handover x.2)) s.ownership := by
  have hinit : (init config tcpNodelay).ownership = Ownership.empty := by
    have hheld : (init config tcpNodelay).held = fun _ => none := by
      funext p
      cases p <;> rfl
    rw [Connections.ownership, hheld]
    rfl
  have hrun : Run (fun o a o' => Ownership.step o a = some o') (init config tcpNodelay).ownership
      (past.map fun x => (x.1.ownership, x.1.handover x.2)) s.ownership :=
    Run.relabel (I := Inv) Connections.ownership handover (fun run => Runs.inv run)
      (fun hinv hstep => (hinv.step hstep).2) h
  rw [hinit] at hrun
  exact hrun

/-- Every connection is at one place or has been closed once in the runs, and only in those, in
which no listener finds its limit reached or `exit_comm` set behind `accept`. -/
theorem connections_owned_once_iff {config : WorkerConnections} {tcpNodelay : Bool}
    {past : List (Connections × ConnectionAction)} (h : Runs config tcpNodelay past s) :
    (∀ c < s.kernel.opened, s.ownership.OwnedOnce c) ↔ ∀ x ∈ past, ¬x.1.Drops x.2 := by
  have howned := (Runs.ownership h).ownedOnce_iff
  refine howned.trans ⟨fun hkept x hx hdrops => ?_, fun hkept x hx p hp => ?_⟩
  · obtain ⟨p, hp⟩ := drops_iff.mp hdrops
    exact hkept _ (List.mem_map_of_mem hx) p hp
  · obtain ⟨y, hy, rfl⟩ := List.mem_map.mp hx
    exact hkept y hy (drops_iff.mpr ⟨p, hp⟩)

theorem step_listener {a : ConnectionAction} (hstep : s.step a = some s') (kind : SockType) :
    s'.listeners kind = s.listeners kind ∨
      ∃ b, (s.listeners kind).step b = some (s'.listeners kind) := by
  have hadvance : ∀ {s₁ : Connections} {kind' b}, s₁.advance kind' b = some s' →
      s₁.listeners = s.listeners → s'.listeners kind = s.listeners kind ∨
        ∃ b, (s.listeners kind).step b = some (s'.listeners kind) := by
    intro s₁ kind' b hadv hsame
    obtain ⟨listener, hlistener, rfl⟩ := advance_eq hadv
    rw [hsame] at hlistener ⊢
    by_cases hkind : kind = kind'
    · subst hkind
      refine .inr ⟨b, hlistener.trans (congrArg some ?_)⟩
      exact (Function.update_self kind listener s.listeners).symm
    · exact .inl (Function.update_of_ne hkind _ _)
  have hdelete : ∀ {s₁ : Connections} {id}, s₁.deleteSession id = some s' →
      s₁.listeners = s.listeners → s'.listeners kind = s.listeners kind := by
    intro s₁ id hdel hsame
    unfold deleteSession at hdel
    split at hdel
    · cases hdel
    · split at hdel
      all_goals
        obtain rfl := Option.some.inj hdel
        rw [← hsame]
  cases a with
  | exitComm =>
      obtain rfl := Option.some.inj hstep
      exact .inr ⟨.exitComm, rfl⟩
  | checkExit | checkOpened | isMaxThreads | incThreadNum => exact hadvance hstep rfl
  | spawn kind' => exact hadvance hstep rfl
  | openCommunication kind' accepted opts =>
      simp only [step] at hstep
      split at hstep
      · exact hadvance hstep rfl
      · cases hstep
  | createSession kind' t =>
      simp only [step] at hstep
      split at hstep
      · obtain rfl := Option.some.inj hstep
        exact .inl rfl
      · cases hstep
  | run kind' t | decThreadNum kind' t =>
      simp only [step] at hstep
      split at hstep
      · exact hadvance hstep rfl
      · cases hstep
  | deleteSession kind' t =>
      simp only [step] at hstep
      split at hstep
      · exact .inl (hdelete hstep rfl)
      · cases hstep
  | deleteAll id => exact .inl (hdelete hstep rfl)

/-- In the runs of the server each listener does a run of its own. -/
theorem Runs.listener {config : WorkerConnections} {tcpNodelay : Bool}
    {past : List (Connections × ConnectionAction)} (h : Runs config tcpNodelay past s)
    (kind : SockType) :
    ∃ past', Run Listener.Taken (Listener.init config kind) past' (s.listeners kind) := by
  induction h with
  | start => exact ⟨[], .start⟩
  | next _ taken ih =>
      obtain ⟨past', hrun⟩ := ih
      rcases step_listener taken kind with hsame | ⟨b, hb⟩
      · rw [hsame]
        exact ⟨past', hrun⟩
      · exact ⟨_, hrun.next hb⟩

def accepting (commFd : Nat) (opts : SockOpts) : List ConnectionAction :=
  [.checkExit .tcp, .openCommunication .tcp (some commFd) opts, .checkOpened .tcp]

def serving (t : Nat) : List ConnectionAction :=
  [.isMaxThreads .tcp, .spawn .tcp, .incThreadNum .tcp t, .createSession .tcp t, .run .tcp t]

/-- A session that has ended, a connection whose options cannot be set, and a session that reuses
the descriptor. -/
theorem connections_owned_once_three :
    ∃ past s, Runs ⟨2, 0, 0⟩ true past s ∧ (s.kernel.opened = 3 ∧ s.kernel.closed = [1, 0]) ∧
      ∀ c < s.kernel.opened, s.ownership.OwnedOnce c := by
  obtain ⟨past, s, hrun, hkernel, hkept⟩ := Run.exists_of_follow step (init ⟨2, 0, 0⟩ true)
    (accepting 7 ⟨true, true, true⟩ ++ serving 0 ++ [.deleteSession .tcp 0, .decThreadNum .tcp 0] ++
      accepting 7 ⟨true, true, false⟩ ++ accepting 7 ⟨true, true, true⟩ ++ serving 1)
    (P := fun past s => (s.kernel.opened = 3 ∧ s.kernel.closed = [1, 0]) ∧ ∀ x ∈ past, ¬x.1.Drops x.2)
    (by decide +kernel)
  exact ⟨past, s, hrun, hkernel, (connections_owned_once_iff hrun).mpr hkept⟩

/-- A second connection with a limit of one is neither closed nor anywhere. -/
theorem connections_lost :
    ∃ past s, Runs ⟨1, 0, 0⟩ true past s ∧ s.kernel.opened = 2 ∧ s.kernel.closed = [] ∧
      ∃ c < s.kernel.opened, ¬s.ownership.OwnedOnce c := by
  obtain ⟨past, s, hrun, hopened, hclosed, x, hx, hdrops⟩ := Run.exists_of_follow step
    (init ⟨1, 0, 0⟩ true)
    (accepting 7 ⟨true, true, true⟩ ++ serving 0 ++ accepting 8 ⟨true, true, true⟩ ++
      [.isMaxThreads .tcp])
    (P := fun past s => s.kernel.opened = 2 ∧ s.kernel.closed = [] ∧ ∃ x ∈ past, x.1.Drops x.2)
    (by decide +kernel)
  have hownership := Runs.ownership hrun
  obtain ⟨p, hp⟩ := drops_iff.mp hdrops
  obtain ⟨c, hlost⟩ := hownership.lost_iff.mpr ⟨_, List.mem_map_of_mem hx, p, hp⟩
  have hlt : c < s.kernel.opened := by
    obtain ⟨commFd, hc, -⟩ := hlost
    exact hownership.valid.table.lt commFd c hc
  exact ⟨past, s, hrun, hopened, hclosed, c, hlt, fun howned =>
    (hownership.valid.ownedOnce_iff hlt).mp howned hlost⟩

end Connections

end KoheronServer.Server
