import KoheronServer.Foundation.Runs
import KoheronServer.Server.ManagerSections
import Mathlib.Logic.Function.Basic

/-!
# Shutting the server down

`KServer::run` ends with `delete_all` and then `close_listeners`. Up to the second one
the listeners go on to accept connections, and the threads of the deleted sessions
still call `delete_session` with an id that may have been given out again.
-/

namespace KoheronServer.Server

open Foundation

/-- Where `comm_thread_call` is: in `open_communication`, behind a test of `exit_comm` with a
connection, or at its end. -/
inductive Acceptor where
  | accepting
  | accepted (commFd : Nat)
  | closed
  deriving DecidableEq

/-- Where `session_thread_call` is: in front of `create_session`, in it, in `run`, in
`delete_session`, or behind it. -/
inductive Worker where
  | absent
  | spawned (kind : SockType) (commFd : Nat)
  | creating
  | running (id : SessID)
  | deleting (id : SessID)
  | ended
  deriving DecidableEq

/-- Where `KServer::run` is: in front of the shutdown, at `assert(num_sess == session_pool.size())`
with the operands that it has read, at `session_pool.empty()`, at `session_pool.begin()`, at `it !=
session_pool.end()` and at `++it` in `get_current_ids` with the ids that it has collected, in the
loop of `delete_all` with the ids that are left, in its call of `delete_session`, at
`assert(num_sess == 0)`, at `exit_comm.store(true)`, in front of the ends of the listeners, or
behind them. A failed assertion ends the server, and behind the erasure of the node that `it` points
to nothing is known of it. -/
inductive MainThread where
  | serving
  | checking (numSess : Option (BitVec 32)) (size : Option Nat)
  | testing
  | starting
  | listing (ids : List SessID) (it : Option SessID)
  | advancing (ids : List SessID) (it : SessID)
  | deleting (ids : List SessID)
  | inDelete (id : SessID) (ids : List SessID)
  | asserting
  | closing
  | joining
  | finished
  | aborted
  | astray
  deriving DecidableEq

/-- A thread that can hold the mutex of the manager. -/
inductive Party where
  | main
  | worker (t : Nat)

/-- The server, the holder of the mutex, the threads, and the thread that has created the session
of an id. -/
structure ShutdownState where
  srv : KServer
  holder : Option (Party × Section)
  acceptors : SockType → Acceptor
  workers : Nat → Worker
  main : MainThread
  exitComm : Bool
  creators : SessID → Option Nat

inductive ShutdownAction where
  | accept (kind : SockType) (commFd : Nat)
  | reject (kind : SockType)
  | closeListener (kind : SockType)
  | spawn (kind : SockType) (t : Nat)
  | createSession (t : Nat)
  | deleteSession (t : Nat)
  | proceed
  | readNumSess
  | readSize
  | main
  deriving DecidableEq

def Section.returned : Section → Worker
  | increment id => .running id
  | _ => .ended

def MainThread.returned : MainThread → MainThread
  | inDelete _ ids => .deleting ids
  | main => main

namespace SessionManager

/-- `session_pool.begin()` -/
def firstId (m : SessionManager) : Option SessID := m.sessionPool.keys.head?

/-- `++it`, where `it` points to the node of `id`. -/
def nextId (m : SessionManager) (id : SessID) : Option SessID := m.sessionPool.keys.find? (id < ·)

variable {m : SessionManager} {id k : SessID}

theorem pairwise_keys (m : SessionManager) : m.sessionPool.keys.Pairwise (· < ·) := by
  refine List.Pairwise.imp ?_ Std.TreeMap.ordered_keys
  intro a b h
  exact compare_lt_iff_lt.mp h

theorem firstId_none (h : m.firstId = none) (id : SessID) : id ∉ m.sessionPool := by
  rw [firstId, List.head?_eq_none_iff] at h
  rw [← Std.TreeMap.mem_keys, h]
  exact List.not_mem_nil

theorem firstId_some (h : m.firstId = some k) :
    k ∈ m.sessionPool ∧ ∀ id ∈ m.sessionPool, k ≤ id := by
  obtain ⟨keys, hkeys⟩ := List.head?_eq_some_iff.mp h
  have hordered := m.pairwise_keys
  rw [hkeys, List.pairwise_cons] at hordered
  refine ⟨Std.TreeMap.mem_keys.mp (by simp [hkeys]), fun id hid => ?_⟩
  have hmem := Std.TreeMap.mem_keys.mpr hid
  rw [hkeys] at hmem
  rcases List.mem_cons.mp hmem with rfl | hmem
  · exact le_refl _
  · exact le_of_lt (hordered.1 id hmem)

theorem nextId_none (h : m.nextId k = none) (hid : id ∈ m.sessionPool) : id ≤ k := by
  have hnot := List.find?_eq_none.mp h id (Std.TreeMap.mem_keys.mpr hid)
  simpa using hnot

theorem nextId_some {next : SessID} (h : m.nextId k = some next) :
    next ∈ m.sessionPool ∧ k < next ∧ ∀ id ∈ m.sessionPool, k < id → next ≤ id := by
  obtain ⟨hlt, pre, post, hkeys, hpre⟩ := List.find?_eq_some_iff_append.mp h
  have hordered := m.pairwise_keys
  rw [hkeys, List.pairwise_append] at hordered
  refine ⟨Std.TreeMap.mem_keys.mp (by simp [hkeys]), by simpa using hlt, fun id hid hgt => ?_⟩
  have hmem := Std.TreeMap.mem_keys.mpr hid
  rw [hkeys, List.mem_append, List.mem_cons] at hmem
  rcases hmem with hmem | rfl | hmem
  · have hnot := hpre id hmem
    simp [hgt] at hnot
  · exact le_refl _
  · exact le_of_lt ((List.pairwise_cons.mp hordered.2.1).1 id hmem)

end SessionManager

namespace MainThread

def iterator : MainThread → Option SessID
  | listing _ it => it
  | advancing _ it => some it
  | _ => none

/-- `delete_all` is going to delete a session of this id: it has not begun to collect, its iterator
stands in front of the id, or it has collected the id. -/
def Covers (id : SessID) : MainThread → Prop
  | serving | checking _ _ | testing | starting => True
  | listing ids it => id ∈ ids ∨ ∃ k ∈ it, k ≤ id
  | advancing ids it => id ∈ ids ∨ it ≤ id
  | deleting ids | inDelete _ ids => id ∈ ids
  | asserting | closing | joining | finished | aborted | astray => False

instance (id : SessID) : DecidablePred (Covers id)
  | serving | checking _ _ | testing | starting => .isTrue trivial
  | listing _ _ | advancing _ _ => inferInstanceAs (Decidable (_ ∨ _))
  | deleting _ | inDelete _ _ => inferInstanceAs (Decidable (_ ∈ _))
  | asserting | closing | joining | finished | aborted | astray => .isFalse not_false

def Asserts (m : SessionManager) : MainThread → Prop
  | checking (some numSess) (some size) => numSess.toNat = size
  | listing _ (some it) => m.isReusableId it = false
  | asserting => m.numSess = 0
  | _ => True

instance (m : SessionManager) : DecidablePred (Asserts m)
  | checking (some _) (some _) | listing _ (some _) | asserting =>
    inferInstanceAs (Decidable (_ = _))
  | serving | checking none _ | checking (some _) none | testing | starting | listing _ none
  | advancing _ _ | deleting _ | inDelete _ _ | closing | joining | finished | aborted | astray =>
      .isTrue trivial

def awaitsSize : MainThread → Bool
  | checking (some _) none => true
  | _ => false

def awaitsNumSess : MainThread → Bool
  | checking none (some _) => true
  | _ => false

def behind (main : MainThread) : Section → MainThread
  | .erase id => if main.iterator = some id then astray else main
  | _ => main

end MainThread

def Section.deletes : Section → Option SessID
  | isCurrentId id | unsubscribe id _ | erase id => some id
  | _ => none

def Section.OfDelete : Section → Prop
  | isCurrentId _ | unsubscribe _ _ | erase _ | recycle _ | decrement => True
  | choose _ _ | insert _ _ _ | increment _ => False

namespace Section

variable {srv : KServer} {c c' : Section} {id : SessID}

/-- Only the insertion of a session brings it into the pool. -/
theorem mem_of_next (h : id ∈ (c.next srv).2.sessionManager.sessionPool) :
    id ∈ srv.sessionManager.sessionPool ∨ ∃ kind commFd, c = insert id kind commFd := by
  cases c with
  | isCurrentId id' =>
      simp only [next] at h
      split at h
      · exact .inl h
      · exact .inl h
  | unsubscribe id' channels =>
      cases channels with
      | nil => exact .inl h
      | cons c channels => exact .inl h
  | erase id' =>
      simp only [next, Std.TreeMap.mem_erase] at h
      exact .inl h.2
  | insert id' kind commFd =>
      simp only [next, Std.TreeMap.mem_insertIfNew, compare_eq] at h
      rcases h with rfl | h
      · exact .inr ⟨kind, commFd, rfl⟩
      · exact .inl h
  | recycle | decrement | choose | increment => exact .inl h

/-- The erasure is the last operation of a section that deletes the session. -/
theorem next_deletes (h : (c.next srv).1 = some c') :
    (c'.deletes = some id → c.deletes = some id) ∧
      (c.deletes = some id →
        c'.deletes = some id ∨ id ∉ (c.next srv).2.sessionManager.sessionPool) := by
  cases c with
  | isCurrentId id' =>
      simp only [next] at h
      split at h
      · obtain rfl := Option.some.inj h
        exact ⟨fun hid => hid, fun hid => .inl hid⟩
      · cases h
  | unsubscribe id' channels =>
      cases channels with
      | nil =>
          obtain rfl := Option.some.inj h
          exact ⟨fun hid => hid, fun hid => .inl hid⟩
      | cons c channels =>
          obtain rfl := Option.some.inj h
          exact ⟨fun hid => hid, fun hid => .inl hid⟩
  | erase id' =>
      obtain rfl := Option.some.inj h
      constructor
      · intro hid
        cases hid
      · intro hid
        obtain rfl := Option.some.inj hid
        exact .inr (by simp [next])
  | recycle | choose | insert =>
      obtain rfl := Option.some.inj h
      constructor
      · intro hid
        cases hid
      · intro hid
        cases hid
  | decrement | increment => cases h

/-- A section that ends without an erasure has found no session of the id. -/
theorem next_none (h : (c.next srv).1 = none) (hid : c.deletes = some id) :
    id ∉ srv.sessionManager.sessionPool := by
  cases c with
  | isCurrentId id' =>
      obtain rfl := Option.some.inj hid
      simp only [next] at h
      split at h
      · cases h
      case isFalse hmem => exact hmem
  | unsubscribe id' channels => cases channels <;> cases h
  | erase => cases h
  | recycle | decrement | choose | insert | increment => cases hid

theorem next_increment (h : (c.next srv).1 = some (increment id)) :
    ∃ kind commFd, c = insert id kind commFd := by
  cases c with
  | isCurrentId id' =>
      simp only [next] at h
      split at h <;> cases h
  | unsubscribe id' channels => cases channels <;> cases h
  | insert id' kind commFd =>
      obtain rfl := increment.inj (Option.some.inj h)
      exact ⟨kind, commFd, rfl⟩
  | erase | recycle | choose => cases h
  | decrement | increment => cases h

theorem next_ofDelete (h : (c.next srv).1 = some c') (hc : c.OfDelete) : c'.OfDelete := by
  cases c with
  | isCurrentId id' =>
      simp only [next] at h
      split at h
      · obtain rfl := Option.some.inj h
        trivial
      · cases h
  | unsubscribe id' channels =>
      cases channels with
      | nil =>
          obtain rfl := Option.some.inj h
          trivial
      | cons c channels =>
          obtain rfl := Option.some.inj h
          trivial
  | erase | recycle =>
      obtain rfl := Option.some.inj h
      trivial
  | decrement => cases h
  | choose | insert | increment => exact hc.elim

theorem next_pool (hinsert : ∀ id kind commFd, c ≠ insert id kind commFd)
    (herase : ∀ id, c ≠ erase id) :
    (c.next srv).2.sessionManager.sessionPool = srv.sessionManager.sessionPool := by
  cases c with
  | isCurrentId id' =>
      simp only [next]
      split
      · rfl
      · rfl
  | unsubscribe id' channels => cases channels <;> rfl
  | erase id' => exact absurd rfl (herase id')
  | insert id' kind commFd => exact absurd rfl (hinsert id' kind commFd)
  | recycle | decrement | choose | increment => rfl

theorem next_numSess (hincrement : ∀ id, c ≠ increment id) (hdecrement : c ≠ decrement) :
    (c.next srv).2.sessionManager.numSess = srv.sessionManager.numSess := by
  cases c with
  | isCurrentId id' =>
      simp only [next]
      split
      · rfl
      · rfl
  | unsubscribe id' channels => cases channels <;> rfl
  | increment id' => exact absurd rfl (hincrement id')
  | decrement => exact absurd rfl hdecrement
  | erase | recycle | choose | insert => rfl

end Section

namespace ShutdownState

def init : ShutdownState where
  srv := .empty
  holder := none
  acceptors := fun _ => .accepting
  workers := fun _ => .absent
  main := .serving
  exitComm := false
  creators := fun _ => none

def setAcceptor (s : ShutdownState) (kind : SockType) (a : Acceptor) : ShutdownState :=
  { s with acceptors := Function.update s.acceptors kind a }

def setWorker (s : ShutdownState) (t : Nat) (w : Worker) : ShutdownState :=
  { s with workers := Function.update s.workers t w }

/-- The holder of the mutex does its next operation, and returns behind the last one. -/
def operate (s : ShutdownState) (p : Party) (c : Section) : ShutdownState where
  srv := (c.next s.srv).2
  holder := (c.next s.srv).1.map fun c' => (p, c')
  acceptors := s.acceptors
  workers :=
    match p, (c.next s.srv).1 with
    | .worker t, none => Function.update s.workers t c.returned
    | _, _ => s.workers
  main :=
    match p, (c.next s.srv).1 with
    | .main, none => s.main.returned
    | _, _ => s.main.behind c
  exitComm := s.exitComm
  creators :=
    match p, c with
    | .worker t, .insert id _ _ => Function.update s.creators id (some t)
    | _, _ => s.creators

/-- The next step of `KServer::run`. The assertions are those of a build with `DEBUG_KSERVER`. -/
def mainStep (debug : Bool) (s : ShutdownState) : Option ShutdownState :=
  if debug = true ∧ ¬s.main.Asserts s.srv.sessionManager then some { s with main := .aborted }
  else
    match s.main with
    | .serving => some { s with main := if debug then .checking none none else .testing }
    | .checking (some _) (some _) => some { s with main := .testing }
    | .checking _ _ => none
    | .testing =>
        some
          { s with main := if s.srv.sessionManager.sessionPool.isEmpty then .asserting else .starting }
    | .starting => some { s with main := .listing [] s.srv.sessionManager.firstId }
    | .listing ids (some it) => some { s with main := .advancing (ids ++ [it]) it }
    | .listing ids none => some { s with main := .deleting ids }
    | .advancing ids it => some { s with main := .listing ids (s.srv.sessionManager.nextId it) }
    | .deleting [] => some { s with main := .asserting }
    | .deleting (id :: ids) =>
        match s.holder with
        | none => some { s with main := .inDelete id ids, holder := some (.main, .isCurrentId id) }
        | some _ => none
    | .inDelete _ _ => none
    | .asserting => some { s with main := .closing }
    | .closing => some { s with main := .joining, exitComm := true }
    | .joining =>
        if s.acceptors .tcp = .closed ∧ s.acceptors .websock = .closed ∧
          s.acceptors .unix = .closed then
          some { s with main := .finished }
        else none
    | .finished | .aborted | .astray => none

def step (debug : Bool) (s : ShutdownState) (action : ShutdownAction) : Option ShutdownState :=
  if s.main = .aborted ∨ s.main = .astray then none
  else
    match action with
    | .accept kind commFd =>
        match s.acceptors kind with
        | .accepting => some (s.setAcceptor kind (if s.exitComm then .closed else .accepted commFd))
        | _ => none
    | .reject kind =>
        match s.acceptors kind with
        | .accepted _ => some (s.setAcceptor kind .accepting)
        | _ => none
    | .closeListener kind =>
        if s.acceptors kind = .accepting ∧ s.exitComm then some (s.setAcceptor kind .closed)
        else none
    | .spawn kind t =>
        match s.acceptors kind, s.workers t with
        | .accepted commFd, .absent =>
            some ((s.setAcceptor kind .accepting).setWorker t (.spawned kind commFd))
        | _, _ => none
    | .createSession t =>
        match s.holder, s.workers t with
        | none, .spawned kind commFd =>
            if s.srv.sessionManager.Accepts commFd then
              some { s.setWorker t .creating with holder := some (.worker t, .choose kind commFd) }
            else none
        | _, _ => none
    | .deleteSession t =>
        match s.holder, s.workers t with
        | none, .running id =>
            some { s.setWorker t (.deleting id) with holder := some (.worker t, .isCurrentId id) }
        | _, _ => none
    | .proceed =>
        match s.holder with
        | none => none
        | some (p, c) => some (s.operate p c)
    | .readNumSess =>
        match s.main with
        | .checking none size =>
            some { s with main := .checking (some s.srv.sessionManager.numSess) size }
        | _ => none
    | .readSize =>
        match s.main with
        | .checking numSess none =>
            some { s with main := .checking numSess (some s.srv.sessionManager.sessionPool.size) }
        | _ => none
    | .main => s.mainStep debug

abbrev Runs (debug : Bool) (past : List (ShutdownState × ShutdownAction))
    (s : ShutdownState) : Prop :=
  Run (fun s action s' => step debug s action = some s') init past s

/-! ## What the shutdown ought to keep -/

/-- A session thread erases the session that it has created. -/
def ErasesOwn (s : ShutdownState) (action : ShutdownAction) : Prop :=
  ∀ t id, action = .proceed → s.holder = some (.worker t, .erase id) → s.creators id = some t

def AssertionHolds (s : ShutdownState) (action : ShutdownAction) : Prop :=
  action = .main → s.main.Asserts s.srv.sessionManager

end ShutdownState

/-- What the main thread bears while it is where it is: `delete_all` covers a session that is
inserted, the iterator of `get_current_ids` is not on a node that is erased, and between the reads
of the first assertion neither operand changes. -/
def MainThread.Bears (main : MainThread) : Section → Prop
  | .insert id _ _ => main.Covers id ∧ main.awaitsSize = false
  | .erase id => main.iterator ≠ some id ∧ main.awaitsSize = false
  | .increment _ | .decrement => main.awaitsNumSess = false
  | _ => True

instance (main : MainThread) : DecidablePred main.Bears
  | .insert _ _ _ | .erase _ => inferInstanceAs (Decidable (_ ∧ _))
  | .increment _ | .decrement => inferInstanceAs (Decidable (_ = _))
  | .isCurrentId _ | .unsubscribe _ _ | .recycle _ | .choose _ _ => .isTrue trivial

namespace ShutdownState

/-- A step does to the main thread what it bears, and at the first read of an assertion about
`num_sess` no thread stands between the change of the pool and the one of the counter. -/
def Undisturbed (s : ShutdownState) (action : ShutdownAction) : Prop :=
  (action = .proceed → ∀ x ∈ s.holder, s.main.Bears x.2) ∧
    (action = .readNumSess ∨ action = .readSize → s.main = .checking none none →
      Section.Quiet (s.holder.map Prod.snd)) ∧
    (action = .main → s.main = .asserting → Section.Quiet (s.holder.map Prod.snd))

instance (s : ShutdownState) (action : ShutdownAction) : Decidable (s.Undisturbed action) :=
  inferInstanceAs (Decidable (_ ∧ _))

/-! ## The invariant -/

end ShutdownState

/-- What the main thread has read is still so: the operands of the first assertion, and the node of
the iterator. -/
def MainThread.Current (m : SessionManager) : MainThread → Prop
  | checking (some numSess) none => numSess.toNat = m.sessionPool.size
  | checking none (some size) => m.numSess.toNat = size
  | checking (some numSess) (some size) => numSess.toNat = size
  | listing _ (some it) | advancing _ it => it ∈ m.sessionPool
  | _ => True

/-- `delete_all` comes to each id once. -/
def MainThread.Ordered : MainThread → Prop
  | listing ids it => ids.Nodup ∧ ∀ id ∈ ids, ∀ k ∈ it, id < k
  | advancing ids it => ids.Nodup ∧ it ∈ ids ∧ ∀ id ∈ ids, id ≤ it
  | deleting ids => ids.Nodup
  | inDelete id ids => (id :: ids).Nodup
  | _ => True

namespace ShutdownState

/-- What an undisturbed shutdown keeps. -/
structure Inv (s : ShutdownState) : Prop where
  held : Section.Held s.srv (s.holder.map Prod.snd)
  /-- A session thread that runs has created the session of its id. -/
  own : ∀ t id, s.workers t = .running id → id ∈ s.srv.sessionManager.sessionPool →
    s.creators id = some t
  /-- And that session is alive until `delete_all` has come to it. -/
  alive : ∀ t id, s.workers t = .running id → id ∈ s.srv.sessionManager.sessionPool ∨
    ¬s.main.Covers id
  /-- A session thread in a section does not run, and deletes or has created its own session. -/
  worker : ∀ t c, s.holder = some (.worker t, c) →
    (∀ id, s.workers t ≠ .running id) ∧
    (∀ id, c.deletes = some id → id ∈ s.srv.sessionManager.sessionPool → s.creators id = some t) ∧
    ∀ id, c = .increment id → id ∈ s.srv.sessionManager.sessionPool ∧ s.creators id = some t
  /-- The main thread in a section deletes the session that it has come to, or has done so. -/
  main : ∀ c, s.holder = some (.main, c) → ∃ id ids, s.main = .inDelete id ids ∧
    (c.deletes = some id ∨ c.deletes = none ∧ id ∉ s.srv.sessionManager.sessionPool) ∧
    c.OfDelete
  /-- `delete_all` covers all sessions, or is deleting the one that it does not. -/
  covers : ∀ id ∈ s.srv.sessionManager.sessionPool,
    s.main.Covers id ∨ ∃ ids, s.main = .inDelete id ids
  current : s.main.Current s.srv.sessionManager
  ordered : s.main.Ordered

theorem init_inv : init.Inv where
  held := Run.consistent .start
  own _ _ h := nomatch h
  alive _ _ h := nomatch h
  worker _ _ h := nomatch h
  main _ h := nomatch h
  covers _ _ := .inl trivial
  current := trivial
  ordered := trivial

variable {s s' : ShutdownState}

theorem Inv.listener (h : s.Inv) {acceptors : SockType → Acceptor} {workers : Nat → Worker}
    (hworkers : ∀ t id, workers t = .running id → s.workers t = .running id) :
    Inv { s with acceptors := acceptors, workers := workers } where
  held := h.held
  own t id hid := h.own t id (hworkers t id hid)
  alive t id hid := h.alive t id (hworkers t id hid)
  worker t c hc :=
    ⟨fun id hid => (h.worker t c hc).1 id (hworkers t id hid), (h.worker t c hc).2⟩
  main := h.main
  covers := h.covers
  current := h.current
  ordered := h.ordered

theorem Inv.locked (h : s.Inv) (hfree : s.holder = none) {t : Nat} {w : Worker} {c : Section}
    (hw : ∀ id, w ≠ .running id) (hfits : s.srv.Consistent → c.Fits s.srv)
    (hdeletes : ∀ id, c.deletes = some id → id ∈ s.srv.sessionManager.sessionPool →
      s.creators id = some t)
    (hincrement : ∀ id, c ≠ .increment id) :
    Inv { s.setWorker t w with holder := some (.worker t, c) } := by
  have hrunning : ∀ t' id, Function.update s.workers t w t' = .running id →
      s.workers t' = .running id := by
    intro t' id hid
    by_cases ht : t' = t
    · subst ht
      rw [Function.update_self] at hid
      exact absurd hid (hw id)
    · rwa [Function.update_of_ne ht] at hid
  have hheld := h.held
  rw [hfree] at hheld
  refine ⟨hfits hheld, fun t' id hid => h.own t' id (hrunning t' id hid),
    fun t' id hid => h.alive t' id (hrunning t' id hid), ?_, ?_, h.covers, h.current, h.ordered⟩
  · intro t' c' hc'
    obtain ⟨hparty, rfl⟩ := Prod.mk.inj (Option.some.inj hc')
    obtain rfl := Party.worker.inj hparty
    refine ⟨fun id hid => hw id ?_, hdeletes, fun id heq => absurd heq (hincrement id)⟩
    simpa [setWorker] using hid
  · intro c' hc'
    cases hc'

/-- A step of the main thread outside of the manager covers no id that has not been covered, and
still covers all sessions. -/
theorem Inv.setMain (h : s.Inv) (hmain : ∀ id ids, s.main ≠ .inDelete id ids) {main : MainThread}
    (exitComm : Bool) (hshrinks : ∀ id, main.Covers id → s.main.Covers id)
    (hcovers : ∀ id ∈ s.srv.sessionManager.sessionPool, s.main.Covers id → main.Covers id)
    (hcurrent : main.Current s.srv.sessionManager) (hordered : main.Ordered) :
    Inv { s with main := main, exitComm := exitComm } where
  held := h.held
  own := h.own
  alive t id hid := (h.alive t id hid).imp_right fun hnot hnew => hnot (hshrinks id hnew)
  worker := h.worker
  main c hc := by
    obtain ⟨id, ids, heq, -⟩ := h.main c hc
    exact absurd heq (hmain id ids)
  covers id hid := by
    rcases h.covers id hid with hold | ⟨ids, heq⟩
    · exact .inl (hcovers id hid hold)
    · exact absurd heq (hmain id ids)
  current := hcurrent
  ordered := hordered

theorem Inv.asserts (h : s.Inv) (hquiet : s.main = .asserting → Section.Quiet (s.holder.map Prod.snd)) :
    s.main.Asserts s.srv.sessionManager := by
  have hcurrent := h.current
  unfold MainThread.Asserts
  split
  case h_1 numSess size hmain =>
    rw [hmain] at hcurrent
    exact hcurrent
  case h_2 ids it hmain =>
    rw [hmain] at hcurrent
    rw [SessionManager.isReusableId, List.any_eq_false]
    intro id hid heq
    obtain rfl := of_decide_eq_true heq
    exact h.held.disjoint hcurrent hid
  case h_3 hmain =>
    have hempty : s.srv.sessionManager.sessionPool.isEmpty := by
      refine Std.TreeMap.isEmpty_iff_forall_not_mem.mpr fun id hid => ?_
      rcases h.covers id hid with hcovers | ⟨ids, heq⟩
      · rw [hmain] at hcovers
        exact hcovers
      · rw [hmain] at heq
        cases heq
    have hsize := h.held.numSess_eq (hquiet hmain)
    rw [Std.TreeMap.isEmpty_eq_size_eq_zero, beq_iff_eq] at hempty
    exact BitVec.eq_of_toNat_eq (hsize.trans hempty)
  case h_4 => trivial

theorem isEmpty_notMem (hempty : s.srv.sessionManager.sessionPool.isEmpty) (id : SessID) :
    id ∉ s.srv.sessionManager.sessionPool :=
  Std.TreeMap.isEmpty_iff_forall_not_mem.mp hempty id

theorem Inv.starting (h : s.Inv) (hmain : s.main = .starting) :
    Inv { s with main := .listing [] s.srv.sessionManager.firstId } := by
  refine h.setMain (by simp [hmain]) _ (fun id _ => by rw [hmain]; trivial) ?_ ?_
    ⟨List.nodup_nil, by simp⟩
  · intro id hid _
    cases hfirst : s.srv.sessionManager.firstId with
    | none => exact absurd hid (SessionManager.firstId_none hfirst id)
    | some k => exact .inr ⟨k, rfl, (SessionManager.firstId_some hfirst).2 id hid⟩
  · cases hfirst : s.srv.sessionManager.firstId with
    | none => trivial
    | some k => exact (SessionManager.firstId_some hfirst).1

theorem Inv.collected (h : s.Inv) {ids : List SessID} {it : SessID}
    (hmain : s.main = .listing ids (some it)) :
    Inv { s with main := .advancing (ids ++ [it]) it } := by
  have hordered := h.ordered
  have hcurrent := h.current
  rw [hmain] at hordered hcurrent
  obtain ⟨hnodup, hbelow⟩ := hordered
  have hbelow : ∀ id ∈ ids, id < it := fun id hid => hbelow id hid it rfl
  refine h.setMain (by simp [hmain]) _ ?_ ?_ hcurrent ⟨?_, by simp, ?_⟩
  · intro id hid
    rw [hmain]
    rcases hid with hid | hle
    · rcases List.mem_append.mp hid with hid | hid
      · exact .inl hid
      · obtain rfl := List.mem_singleton.mp hid
        exact .inr ⟨id, rfl, le_refl _⟩
    · exact .inr ⟨it, rfl, hle⟩
  · intro id _ hid
    rw [hmain] at hid
    rcases hid with hid | ⟨k, hk, hle⟩
    · exact .inl (List.mem_append_left _ hid)
    · obtain rfl := Option.some.inj hk
      exact .inr hle
  · rw [List.nodup_append]
    refine ⟨hnodup, List.nodup_singleton it, fun id hid k hk => ?_⟩
    obtain rfl := List.mem_singleton.mp hk
    exact ne_of_lt (hbelow id hid)
  · intro id hid
    rcases List.mem_append.mp hid with hid | hid
    · exact le_of_lt (hbelow id hid)
    · exact le_of_eq (List.mem_singleton.mp hid)

theorem Inv.advanced (h : s.Inv) {ids : List SessID} {it : SessID}
    (hmain : s.main = .advancing ids it) :
    Inv { s with main := .listing ids (s.srv.sessionManager.nextId it) } := by
  have hordered := h.ordered
  rw [hmain] at hordered
  obtain ⟨hnodup, hit, hbelow⟩ := hordered
  have hnext : ∀ k ∈ s.srv.sessionManager.nextId it, it < k :=
    fun k hk => (SessionManager.nextId_some hk).2.1
  refine h.setMain (by simp [hmain]) _ ?_ ?_ ?_ ⟨hnodup, fun id hid k hk => ?_⟩
  · intro id hid
    rw [hmain]
    rcases hid with hid | ⟨k, hk, hle⟩
    · exact .inl hid
    · exact .inr (le_trans (le_of_lt (hnext k hk)) hle)
  · intro id hid hcovers
    rw [hmain] at hcovers
    rcases hcovers with hmem | hle
    · exact .inl hmem
    · rcases eq_or_lt_of_le hle with rfl | hlt
      · exact .inl hit
      · cases hk : s.srv.sessionManager.nextId it with
        | none => exact absurd (SessionManager.nextId_none hk hid) (not_le_of_gt hlt)
        | some k => exact .inr ⟨k, rfl, (SessionManager.nextId_some hk).2.2 id hid hlt⟩
  · cases hk : s.srv.sessionManager.nextId it with
    | none => trivial
    | some k => exact (SessionManager.nextId_some hk).1
  · exact lt_of_le_of_lt (hbelow id hid) (hnext k hk)

theorem Inv.setMain_all (h : s.Inv) {main : MainThread} (hbefore : ∀ id, s.main.Covers id)
    (hafter : ∀ id, main.Covers id) (hmain : ∀ id ids, s.main ≠ .inDelete id ids)
    (hcurrent : main.Current s.srv.sessionManager) (hordered : main.Ordered) :
    Inv { s with main := main } :=
  h.setMain hmain _ (fun id _ => hbefore id) (fun id _ _ => hafter id) hcurrent hordered

theorem Inv.setMain_none (h : s.Inv) {main : MainThread} (exitComm : Bool)
    (hbefore : ∀ id, ¬s.main.Covers id) (hafter : ∀ id, ¬main.Covers id)
    (hmain : ∀ id ids, s.main ≠ .inDelete id ids) (hcurrent : main.Current s.srv.sessionManager)
    (hordered : main.Ordered) : Inv { s with main := main, exitComm := exitComm } :=
  h.setMain hmain _ (fun id hid => absurd hid (hafter id)) (fun id _ hid => absurd hid (hbefore id))
    hcurrent hordered

theorem Inv.deletes (h : s.Inv) {id : SessID} {ids : List SessID}
    (hmain : s.main = .deleting (id :: ids))
    (hfree : s.holder = none) :
    Inv { s with main := .inDelete id ids, holder := some (.main, .isCurrentId id) } := by
  have hheld := h.held
  rw [hfree] at hheld
  have hordered := h.ordered
  rw [hmain] at hordered
  refine ⟨hheld, h.own, ?_, ?_, ?_, ?_, trivial, hordered⟩
  · intro t id' hid'
    refine (h.alive t id' hid').imp_right fun hnot hnew => hnot ?_
    rw [hmain]
    exact List.mem_cons_of_mem _ hnew
  · intro t c hc
    cases hc
  · intro c hc
    obtain ⟨-, rfl⟩ := Prod.mk.inj (Option.some.inj hc)
    exact ⟨id, ids, rfl, .inl rfl, trivial⟩
  · intro id' hid'
    rcases h.covers id' hid' with hcovers | ⟨ids', heq⟩
    · rw [hmain] at hcovers
      rcases List.mem_cons.mp hcovers with rfl | hmem
      · exact .inr ⟨ids, rfl⟩
      · exact .inl hmem
    · rw [hmain] at heq
      cases heq

theorem Inv.mainStep {debug : Bool} (h : s.Inv) (hund : s.Undisturbed .main)
    (hstep : s.mainStep debug = some s') : s'.Inv := by
  have hasserts := h.asserts (hund.2.2 rfl)
  unfold ShutdownState.mainStep at hstep
  rw [if_neg fun hfails => hfails.2 hasserts] at hstep
  cases hmain : s.main with
  | serving =>
      simp only [hmain, Option.some.injEq] at hstep
      subst hstep
      refine h.setMain_all (by simp [hmain, MainThread.Covers]) ?_ (by simp [hmain]) ?_ ?_
      · intro id
        split <;> trivial
      · split <;> trivial
      · split <;> trivial
  | checking numSess size =>
      cases numSess with
      | none => simp [hmain] at hstep
      | some numSess =>
          cases size with
          | none => simp [hmain] at hstep
          | some size =>
              simp only [hmain, Option.some.injEq] at hstep
              subst hstep
              exact h.setMain_all (by simp [hmain, MainThread.Covers]) (fun _ => trivial)
                (by simp [hmain]) trivial trivial
  | testing =>
      simp only [hmain, Option.some.injEq] at hstep
      subst hstep
      by_cases hnone : s.srv.sessionManager.sessionPool.isEmpty
      · simp only [hnone, if_true]
        refine h.setMain (by simp [hmain]) _ (fun _ hid => hid.elim) ?_ trivial trivial
        intro id hid _
        exact absurd hid (isEmpty_notMem hnone id)
      · simp only [hnone, Bool.false_eq_true, if_false]
        exact h.setMain_all (by simp [hmain, MainThread.Covers]) (fun _ => trivial)
          (by simp [hmain])
          trivial trivial
  | starting =>
      simp only [hmain, Option.some.injEq] at hstep
      subst hstep
      exact h.starting hmain
  | listing ids it =>
      cases it with
      | none =>
          simp only [hmain, Option.some.injEq] at hstep
          subst hstep
          have hordered := h.ordered
          rw [hmain] at hordered
          refine h.setMain (by simp [hmain]) _ ?_ ?_ trivial hordered.1
          · intro id hid
            rw [hmain]
            exact .inl hid
          · intro id _ hid
            rw [hmain] at hid
            rcases hid with hid | ⟨k, hk, -⟩
            · exact hid
            · cases hk
      | some it =>
          simp only [hmain, Option.some.injEq] at hstep
          subst hstep
          exact h.collected hmain
  | advancing ids it =>
      simp only [hmain, Option.some.injEq] at hstep
      subst hstep
      exact h.advanced hmain
  | deleting ids =>
      cases ids with
      | nil =>
          simp only [hmain, Option.some.injEq] at hstep
          subst hstep
          refine h.setMain (by simp [hmain]) _ (fun _ hid => hid.elim) ?_ trivial trivial
          intro id _ hid
          rw [hmain] at hid
          cases hid
      | cons id ids =>
          simp only [hmain] at hstep
          split at hstep
          case h_2 => cases hstep
          case h_1 hfree =>
            obtain rfl := Option.some.inj hstep
            exact h.deletes hmain hfree
  | inDelete id ids => simp [hmain] at hstep
  | asserting =>
      simp only [hmain, Option.some.injEq] at hstep
      subst hstep
      exact h.setMain_none _ (by simp [hmain, MainThread.Covers]) (fun _ hid => hid)
        (by simp [hmain])
        trivial trivial
  | closing =>
      simp only [hmain, Option.some.injEq] at hstep
      subst hstep
      exact h.setMain_none _ (by simp [hmain, MainThread.Covers]) (fun _ hid => hid)
        (by simp [hmain])
        trivial trivial
  | joining =>
      simp only [hmain] at hstep
      split at hstep
      case isFalse => cases hstep
      case isTrue =>
        obtain rfl := Option.some.inj hstep
        exact h.setMain_none _ (by simp [hmain, MainThread.Covers]) (fun _ hid => hid)
          (by simp [hmain])
          trivial trivial
  | finished | aborted | astray => simp [hmain] at hstep

theorem MainThread.returned_covers {main : MainThread} (id : SessID) :
    main.returned.Covers id ↔ main.Covers id := by
  cases main <;> rfl

section

variable {p : Party} {c : Section}

/-- Behind an operation a session thread runs that has run before, or it has just created its
session. -/
theorem operate_running {t : Nat} {id : SessID} (h : (s.operate p c).workers t = .running id) :
    s.workers t = .running id ∨ p = .worker t ∧ c = .increment id := by
  cases p with
  | main => exact .inl h
  | worker u =>
      cases hnext : (c.next s.srv).1 with
      | some c' =>
          simp only [operate, hnext] at h
          exact .inl h
      | none =>
          simp only [operate, hnext] at h
          by_cases ht : t = u
          · subst ht
            rw [Function.update_self] at h
            cases c <;> simp [Section.returned] at h
            exact .inr ⟨rfl, by rw [h]⟩
          · rw [Function.update_of_ne ht] at h
            exact .inl h

theorem operate_holder {p' : Party} {c' : Section} (h : (s.operate p c).holder = some (p', c')) :
    p' = p ∧ (c.next s.srv).1 = some c' := by
  obtain ⟨c'', hc'', heq⟩ := Option.map_eq_some_iff.mp h
  obtain ⟨rfl, rfl⟩ := Prod.mk.inj heq
  exact ⟨rfl, hc''⟩

/-- The creators change with an insertion only. -/
theorem operate_creators (hinsert : ∀ id kind commFd, c ≠ .insert id kind commFd) :
    (s.operate p c).creators = s.creators := by
  cases p with
  | main => rfl
  | worker t =>
      cases c with
      | insert id kind commFd => exact absurd rfl (hinsert id kind commFd)
      | _ => rfl

theorem operate_section : (s.operate p c).holder.map Prod.snd = (c.next s.srv).1 := by
  simp only [operate, Option.map_map, Function.comp_def, Option.map_id']

theorem behind_of_bears {main : MainThread} (h : main.Bears c) : main.behind c = main := by
  cases c with
  | erase id => exact if_neg h.1
  | _ => rfl

/-- An operation moves the main thread only when it is the end of its own section. -/
theorem operate_main (h : s.main.Bears c) :
    (s.operate p c).main = s.main ∨
      p = .main ∧ (c.next s.srv).1 = none ∧ (s.operate p c).main = s.main.returned := by
  cases p with
  | worker t => exact .inl (behind_of_bears h)
  | main =>
      cases hnext : (c.next s.srv).1 with
      | some c' =>
          left
          simp only [operate, hnext]
          exact behind_of_bears h
      | none =>
          right
          refine ⟨rfl, rfl, ?_⟩
          simp only [operate, hnext]

theorem operate_covers (h : s.main.Bears c) (id : SessID) :
    (s.operate p c).main.Covers id ↔ s.main.Covers id := by
  rcases operate_main (p := p) h with hmain | ⟨-, -, hmain⟩
  · rw [hmain]
  · rw [hmain, MainThread.returned_covers]

theorem Inv.fits (h : s.Inv) (hholder : s.holder = some (p, c)) : c.Fits s.srv := by
  have hheld := h.held
  rw [hholder] at hheld
  exact hheld

/-- A session of a thread stays in the pool up to the erasure of its own thread, or the main
thread has come to it. -/
theorem Inv.alive_operate (h : s.Inv) (hholder : s.holder = some (p, c)) {t : Nat} {id : SessID}
    (hrunning : s.workers t = .running id) (hid : id ∈ s.srv.sessionManager.sessionPool) :
    id ∈ (c.next s.srv).2.sessionManager.sessionPool ∨ ¬s.main.Covers id := by
  by_cases herase : c = .erase id
  · right
    cases p with
    | main =>
        obtain ⟨id', ids, hmain, hdeletes, -⟩ := h.main c hholder
        have hordered := h.ordered
        rw [hmain] at hordered ⊢
        obtain rfl : id = id' := by
          rcases hdeletes with hdeletes | ⟨hnone, -⟩
          · rw [herase] at hdeletes
            exact Option.some.inj hdeletes
          · rw [herase] at hnone
            cases hnone
        exact (List.nodup_cons.mp hordered).1
    | worker u =>
        obtain ⟨hnot, hdeletes, -⟩ := h.worker u c hholder
        have hu := hdeletes id (by rw [herase]; rfl) hid
        rw [h.own t id hrunning hid] at hu
        obtain rfl := Option.some.inj hu
        exact absurd hrunning (hnot id)
  · exact .inl (Section.mem_next hid herase)

/-- A session that is new has a thread that does not run yet. -/
theorem Inv.mem_of_running (h : s.Inv) (hbears : s.main.Bears c) {t : Nat} {id : SessID}
    (hrunning : s.workers t = .running id) (hid : id ∈ (c.next s.srv).2.sessionManager.sessionPool) :
    id ∈ s.srv.sessionManager.sessionPool := by
  rcases Section.mem_of_next hid with hid | ⟨kind, commFd, rfl⟩
  · exact hid
  · exact (h.alive t id hrunning).resolve_right (not_not.mpr hbears.1)

theorem Inv.creators_operate (h : s.Inv) (hholder : s.holder = some (p, c)) {id : SessID}
    (hid : id ∈ s.srv.sessionManager.sessionPool) :
    (s.operate p c).creators id = s.creators id := by
  by_cases hcase : ∃ id' kind commFd, c = .insert id' kind commFd
  · obtain ⟨id', kind, commFd, rfl⟩ := hcase
    have hne : id ≠ id' := fun heq => Section.insert_fresh (h.fits hholder) (heq ▸ hid)
    cases p with
    | main => rfl
    | worker t => exact Function.update_of_ne hne _ _
  · rw [operate_creators fun id' kind commFd heq => hcase ⟨id', kind, commFd, heq⟩]

/-- The sessions that `delete_all` covers stay those of the pool. -/
theorem Inv.covers_operate (h : s.Inv) (hholder : s.holder = some (p, c)) (hbears : s.main.Bears c)
    {id : SessID} (hid : id ∈ (c.next s.srv).2.sessionManager.sessionPool) :
    (s.operate p c).main.Covers id ∨ ∃ ids, (s.operate p c).main = .inDelete id ids := by
  rw [operate_covers hbears]
  rcases Section.mem_of_next hid with hmem | ⟨kind, commFd, rfl⟩
  · rcases h.covers id hmem with hcovers | ⟨ids, hmain⟩
    · exact .inl hcovers
    · right
      rcases operate_main (p := p) hbears with hsame | ⟨rfl, hnext, -⟩
      · exact ⟨ids, hsame.trans hmain⟩
      · obtain ⟨id', ids', hmain', hdeletes, -⟩ := h.main c hholder
        rw [hmain] at hmain'
        cases hmain'
        rcases hdeletes with hdeletes | ⟨-, hnotMem⟩
        · exact absurd hmem (Section.next_none hnext hdeletes)
        · exact absurd hmem hnotMem
  · exact .inl hbears.1

theorem Inv.current_operate (h : s.Inv) (hholder : s.holder = some (p, c))
    (hbears : s.main.Bears c) :
    (s.operate p c).main.Current (c.next s.srv).2.sessionManager := by
  have hcurrent := h.current
  rcases operate_main (p := p) hbears with hsame | ⟨rfl, -, hreturned⟩
  · rw [hsame]
    cases hmain : s.main with
    | checking numSess size =>
        rw [hmain] at hcurrent hbears
        cases numSess with
        | some numSess =>
            cases size with
            | some size => exact hcurrent
            | none =>
                have hpool : (c.next s.srv).2.sessionManager.sessionPool =
                    s.srv.sessionManager.sessionPool := by
                  apply Section.next_pool
                  · rintro id kind commFd rfl
                    cases hbears.2
                  · rintro id rfl
                    cases hbears.2
                simp only [MainThread.Current, hpool]
                exact hcurrent
        | none =>
            cases size with
            | none => trivial
            | some size =>
                have hnumSess : (c.next s.srv).2.sessionManager.numSess =
                    s.srv.sessionManager.numSess := by
                  apply Section.next_numSess
                  · rintro id rfl
                    cases hbears
                  · rintro rfl
                    cases hbears
                simp only [MainThread.Current, hnumSess]
                exact hcurrent
    | listing ids it =>
        cases it with
        | none => trivial
        | some it =>
            rw [hmain] at hcurrent hbears
            refine Section.mem_next hcurrent ?_
            rintro rfl
            exact hbears.1 rfl
    | advancing ids it =>
        rw [hmain] at hcurrent hbears
        refine Section.mem_next hcurrent ?_
        rintro rfl
        exact hbears.1 rfl
    | _ => trivial
  · obtain ⟨id, ids, hmain, -⟩ := h.main c hholder
    rw [hreturned, hmain]
    trivial

theorem Inv.ordered_operate (h : s.Inv) (hholder : s.holder = some (p, c))
    (hbears : s.main.Bears c) :
    (s.operate p c).main.Ordered := by
  have hordered := h.ordered
  rcases operate_main (p := p) hbears with hsame | ⟨rfl, -, hreturned⟩
  · rwa [hsame]
  · obtain ⟨id, ids, hmain, -⟩ := h.main c hholder
    rw [hmain] at hordered
    rw [hreturned, hmain]
    exact (List.nodup_cons.mp hordered).2

/-- An operation of the holder of the mutex. -/
theorem Inv.operate (h : s.Inv) (hholder : s.holder = some (p, c)) (hbears : s.main.Bears c) :
    (s.operate p c).Inv := by
  have hheld := h.fits hholder
  refine ⟨?held, ?own, ?alive, ?worker, ?main, ?covers, h.current_operate hholder hbears,
    h.ordered_operate hholder hbears⟩
  case held =>
    rw [operate_section]
    exact Section.next_held hheld
  case own =>
    intro t id hid hmem
    rcases operate_running hid with hrunning | ⟨rfl, rfl⟩
    · have hbefore := h.mem_of_running hbears hrunning hmem
      rw [h.creators_operate hholder hbefore]
      exact h.own t id hrunning hbefore
    · exact ((h.worker t _ hholder).2.2 id rfl).2
  case alive =>
    intro t id hid
    rw [operate_covers hbears]
    rcases operate_running hid with hrunning | ⟨rfl, rfl⟩
    · rcases h.alive t id hrunning with hmem | hnot
      · exact h.alive_operate hholder hrunning hmem
      · exact .inr hnot
    · exact .inl ((h.worker t _ hholder).2.2 id rfl).1
  case worker =>
    intro t c' hc'
    obtain ⟨rfl, hnext⟩ := operate_holder hc'
    obtain ⟨hnot, hdeletes, -⟩ := h.worker t c hholder
    refine ⟨fun id hid => ?_, fun id hid hmem => ?_, fun id hid => ?_⟩
    · rcases operate_running hid with hrunning | ⟨-, rfl⟩
      · exact hnot id hrunning
      · cases hnext
    · have hbefore := (Section.next_deletes hnext).1 hid
      rcases Section.mem_of_next hmem with hmem | ⟨kind, commFd, rfl⟩
      · rw [h.creators_operate hholder hmem]
        exact hdeletes id hbefore hmem
      · cases hbefore
    · subst hid
      obtain ⟨kind, commFd, rfl⟩ := Section.next_increment hnext
      refine ⟨?_, Function.update_self _ _ _⟩
      exact Std.TreeMap.mem_insertIfNew_self
  case main =>
    intro c' hc'
    obtain ⟨rfl, hnext⟩ := operate_holder hc'
    obtain ⟨id, ids, hmain, hdeletes, hdelete⟩ := h.main c hholder
    have hsame : (s.operate .main c).main = s.main := by
      rcases operate_main (p := .main) hbears with hsame | ⟨-, hnone, -⟩
      · exact hsame
      · rw [hnext] at hnone
        cases hnone
    refine ⟨id, ids, hsame.trans hmain, ?_, Section.next_ofDelete hnext hdelete⟩
    · cases hdeletes' : c'.deletes with
      | some id' =>
          left
          have hbefore := (Section.next_deletes hnext).1 hdeletes'
          rcases hdeletes with hid | ⟨hnone, -⟩
          · exact hbefore.symm.trans hid
          · rw [hbefore] at hnone
            cases hnone
      | none =>
          right
          refine ⟨rfl, ?_⟩
          rcases hdeletes with hid | ⟨-, hnotMem⟩
          · rcases (Section.next_deletes hnext).2 hid with hid' | hgone
            · rw [hdeletes'] at hid'
              cases hid'
            · exact hgone
          · intro hmem
            rcases Section.mem_of_next hmem with hmem | ⟨kind, commFd, rfl⟩
            · exact hnotMem hmem
            · exact hdelete
  case covers => exact fun id hid => h.covers_operate hholder hbears hid

end

/-- Where no step disturbs the shutdown, a session thread erases its own session, and the assertions
hold. -/
theorem Inv.keeps {action : ShutdownAction} (h : s.Inv) (hund : s.Undisturbed action) :
    s.ErasesOwn action ∧ s.AssertionHolds action := by
  constructor
  · intro t id _ hholder
    exact (h.worker t _ hholder).2.1 id rfl (h.fits hholder).2.1
  · intro haction
    exact h.asserts (hund.2.2 haction)

theorem Inv.read (h : s.Inv) {numSess numSess' : Option (BitVec 32)} {size size' : Option Nat}
    (hmain : s.main = .checking numSess size)
    (hcurrent : (MainThread.checking numSess' size').Current s.srv.sessionManager) :
    Inv { s with main := .checking numSess' size' } :=
  h.setMain_all (by simp [hmain, MainThread.Covers]) (fun _ => trivial)
    (by simp [hmain]) hcurrent trivial

theorem Inv.step {debug : Bool} {action : ShutdownAction} (h : s.Inv) (hund : s.Undisturbed action)
    (hstep : s.step debug action = some s') : s'.Inv := by
  unfold ShutdownState.step at hstep
  split at hstep
  case isTrue => cases hstep
  cases action with
  | accept kind commFd =>
      simp only at hstep
      split at hstep
      · obtain rfl := Option.some.inj hstep
        exact h.listener fun t id hid => hid
      · cases hstep
  | reject kind =>
      simp only at hstep
      split at hstep
      · obtain rfl := Option.some.inj hstep
        exact h.listener fun t id hid => hid
      · cases hstep
  | closeListener kind =>
      simp only at hstep
      split at hstep
      · obtain rfl := Option.some.inj hstep
        exact h.listener fun t id hid => hid
      · cases hstep
  | spawn kind t =>
      simp only at hstep
      split at hstep
      case h_2 => cases hstep
      case h_1 commFd _ habsent =>
        obtain rfl := Option.some.inj hstep
        refine h.listener fun t' id hid => ?_
        by_cases ht : t' = t
        · subst ht
          rw [Function.update_self] at hid
          cases hid
        · exact (Function.update_of_ne ht _ _).symm.trans hid
  | createSession t =>
      simp only at hstep
      split at hstep
      case h_2 => cases hstep
      case h_1 kind commFd hfree hspawned =>
        split at hstep
        case isFalse => cases hstep
        case isTrue haccepts =>
          obtain rfl := Option.some.inj hstep
          exact h.locked hfree (by simp) (fun hconsistent => ⟨hconsistent, haccepts⟩)
            (fun id hid => nomatch hid) (by simp)
  | deleteSession t =>
      simp only at hstep
      split at hstep
      case h_2 => cases hstep
      case h_1 id hfree hrunning =>
        obtain rfl := Option.some.inj hstep
        refine h.locked hfree (by simp) (fun hconsistent => hconsistent) ?_ (by simp)
        intro id' hid' hmem
        obtain rfl := Option.some.inj hid'
        exact h.own t id hrunning hmem
  | proceed =>
      simp only at hstep
      split at hstep
      case h_1 => cases hstep
      case h_2 p c hholder =>
        obtain rfl := Option.some.inj hstep
        exact h.operate hholder (hund.1 rfl (p, c) hholder)
  | readNumSess =>
      simp only at hstep
      split at hstep
      case h_2 => cases hstep
      case h_1 size hmain =>
        obtain rfl := Option.some.inj hstep
        refine h.read hmain ?_
        cases size with
        | none => exact h.held.numSess_eq (hund.2.1 (.inl rfl) hmain)
        | some size =>
            have hcurrent := h.current
            rw [hmain] at hcurrent
            exact hcurrent
  | readSize =>
      simp only at hstep
      split at hstep
      case h_2 => cases hstep
      case h_1 numSess hmain =>
        obtain rfl := Option.some.inj hstep
        refine h.read hmain ?_
        cases numSess with
        | none => exact h.held.numSess_eq (hund.2.1 (.inr rfl) hmain)
        | some numSess =>
            have hcurrent := h.current
            rw [hmain] at hcurrent
            exact hcurrent
  | main => exact h.mainStep hund hstep

theorem inv {debug : Bool} {past : List (ShutdownState × ShutdownAction)} (h : Runs debug past s)
    (hund : ∀ x ∈ past, x.1.Undisturbed x.2) : s.Inv := by
  induction h with
  | start => exact init_inv
  | next _ taken ih =>
      exact (ih fun x hx => hund x (List.mem_cons_of_mem _ hx)).step
        (hund _ List.mem_cons_self) taken

/-- In the runs that do not disturb `delete_all` the shutdown leaves no session behind, its
assertions hold, so that none ends the server, and no thread deletes the session of another one. -/
theorem shutdown_deletes_all {debug : Bool} {past : List (ShutdownState × ShutdownAction)}
    (h : Runs debug past s) (hund : ∀ x ∈ past, x.1.Undisturbed x.2) :
    (s.main = .finished → s.srv.sessionManager.sessionPool.isEmpty) ∧
      ∀ x ∈ past, x.1.ErasesOwn x.2 ∧ x.1.AssertionHolds x.2 := by
  constructor
  · intro hmain
    refine Std.TreeMap.isEmpty_iff_forall_not_mem.mpr fun id hid => ?_
    rcases (inv h hund).covers id hid with hcovers | ⟨ids, heq⟩
    · rw [hmain] at hcovers
      exact hcovers
    · rw [hmain] at heq
      cases heq
  · induction h with
    | start => exact fun x hx => nomatch hx
    | next run taken ih =>
        have hbefore := fun x hx => hund x (List.mem_cons_of_mem _ hx)
        exact List.forall_mem_cons.mpr
          ⟨(inv run hbefore).keeps (hund _ List.mem_cons_self), ih hbefore⟩

def opening (t commFd : Nat) : List ShutdownAction :=
  [.accept .tcp commFd, .spawn .tcp t, .createSession t, .proceed, .proceed, .proceed]

def checking : List ShutdownAction := [.main, .readNumSess, .readSize, .main]

def joining : List ShutdownAction :=
  [.closeListener .tcp, .closeListener .websock, .closeListener .unix, .main]

/-- A session that `delete_all` deletes, whose thread calls `delete_session` behind the shutdown. -/
theorem shutdown_deletes_all_one :
    ∃ past s, Runs true past s ∧ (s.main = .finished ∧ s.workers 0 = .ended) ∧
      s.srv.sessionManager.sessionPool.isEmpty ∧
      ∀ x ∈ past, x.1.ErasesOwn x.2 ∧ x.1.AssertionHolds x.2 := by
  obtain ⟨past, s, hrun, ⟨hmain, hworker⟩, hund⟩ := Run.exists_of_follow (step true) init
    (opening 0 7 ++ checking ++ List.replicate 6 .main ++ List.replicate 8 .proceed ++
      [.main, .main, .main] ++ joining ++ [.deleteSession 0, .proceed])
    (P := fun past s => (s.main = .finished ∧ s.workers 0 = .ended) ∧ ∀ x ∈ past, x.1.Undisturbed x.2)
    (by decide +kernel)
  have hkept := shutdown_deletes_all hrun hund
  exact ⟨past, s, hrun, ⟨hmain, hworker⟩, hkept.1 hmain, hkept.2⟩

/-- Connections behind the assertion at the end of `delete_all`, in front of it, and between the
deletion of a session and the `delete_session` of its thread. -/
theorem shutdown_strays :
    (∃ past s, Runs true past s ∧ s.main = .finished ∧ ¬s.srv.sessionManager.sessionPool.isEmpty) ∧
      (∃ past s, Runs true past s ∧ ∃ x ∈ past, x.1.main = .asserting ∧ ¬x.1.AssertionHolds x.2) ∧
      ∃ past s, Runs true past s ∧ ∃ x ∈ past, ¬x.1.ErasesOwn x.2 := by
  refine ⟨?_, ?_, ?_⟩
  · have hrun := Run.of_follow (step true) init
      (checking ++ [.main, .main] ++ opening 0 7 ++ [.main] ++ joining) rfl
    exact ⟨_, _, hrun, rfl, by decide⟩
  · have hrun := Run.of_follow (step true) init (checking ++ [.main] ++ opening 0 7 ++ [.main]) rfl
    refine ⟨_, _, hrun, _, List.mem_cons_self, rfl, fun hasserts => ?_⟩
    exact absurd (hasserts rfl) (by decide)
  · have hrun := Run.of_follow (step true) init
      (opening 0 7 ++ checking ++ List.replicate 6 .main ++ List.replicate 8 .proceed ++
        opening 1 8 ++ .deleteSession 0 :: List.replicate 6 .proceed) rfl
    refine ⟨_, _, hrun, _, List.mem_cons_self, fun herases => ?_⟩
    exact absurd (herases 0 0 rfl rfl) (by decide)

end ShutdownState

end KoheronServer.Server
