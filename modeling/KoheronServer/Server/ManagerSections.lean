import KoheronServer.Server.Subscriptions

/-!
# The critical sections of the session manager

`create_session` and `delete_session` hold the mutex of the manager. Threads that do
not take it, an emit or a listing of the sessions, see the pool and the subscribers
between two operations on these containers. A section that nobody looks into is the
operation of `KServer`.
-/

namespace KoheronServer.Server

open Foundation

theorem accepts_iff (m : SessionManager) (commFd : Nat) :
    m.Accepts commFd ↔ commFd < 2 ^ 31 ∧
      ∀ id ∈ m.sessionPool.keys, m.sessionPool[id]?.map Session.commFd ≠ some commFd := by
  refine and_congr_right fun _ => ⟨fun h id _ heq => ?_, fun h id s hs heq => ?_⟩
  · obtain ⟨s, hs, hfd⟩ := Option.map_eq_some_iff.mp heq
    exact h id s hs hfd
  · have hmem : id ∈ m.sessionPool.keys :=
      Std.TreeMap.mem_keys.mpr (Std.TreeMap.mem_iff_isSome_getElem?.mpr (by rw [hs]; rfl))
    exact h id hmem (by rw [hs, Option.map_some, heq])

instance (m : SessionManager) (commFd : Nat) : Decidable (m.Accepts commFd) :=
  decidable_of_iff _ (accepts_iff m commFd).symm

/-- What the thread that holds the mutex does next: `delete_session` tests the id, takes it out of
the vector of each channel, erases the session, recycles its id and decrements `num_sess`;
`create_session` chooses an id, inserts the session, increments `num_sess` and returns the id. -/
inductive Section where
  | isCurrentId (id : SessID)
  | unsubscribe (id : SessID) (channels : List (Fin channelsCount))
  | erase (id : SessID)
  | recycle (id : SessID)
  | decrement
  | choose (kind : SockType) (commFd : Nat)
  | insert (id : SessID) (kind : SockType) (commFd : Nat)
  | increment (id : SessID)

namespace Section

/-- One operation, and the rest of the section; the last one gives the mutex back. -/
def next (srv : KServer) : Section → Option Section × KServer
  | isCurrentId id =>
      if id ∈ srv.sessionManager.sessionPool then
        (some (unsubscribe id (List.finRange channelsCount)), srv)
      else (none, srv)
  | unsubscribe id [] => (some (erase id), srv)
  | unsubscribe id (c :: channels) =>
      (some (unsubscribe id channels),
        { srv with subscribers := srv.subscribers.set c (swapRemove id (srv.subscribers.get c)) })
  | erase id =>
      (some (recycle id),
        { srv with
          sessionManager :=
            { srv.sessionManager with sessionPool := srv.sessionManager.sessionPool.erase id } })
  | recycle id =>
      (some decrement,
        { srv with
          sessionManager :=
            { srv.sessionManager with reusableIds := srv.sessionManager.reusableIds ++ [id] } })
  | decrement =>
      (none,
        { srv with
          sessionManager := { srv.sessionManager with numSess := srv.sessionManager.numSess - 1 } })
  | choose kind commFd =>
      (some (insert srv.sessionManager.chooseId.1 kind commFd),
        { srv with
          sessionManager :=
            { srv.sessionManager with reusableIds := srv.sessionManager.chooseId.2 } })
  | insert id kind commFd =>
      (some (increment id),
        { srv with
          sessionManager :=
            { srv.sessionManager with
              sessionPool := srv.sessionManager.sessionPool.insertIfNew id ⟨kind, commFd⟩ } })
  | increment _ =>
      (none,
        { srv with
          sessionManager := { srv.sessionManager with numSess := srv.sessionManager.numSess + 1 } })

def proceed : Nat → Option Section × KServer → Option Section × KServer
  | 0, x => x
  | _ + 1, (none, srv) => (none, srv)
  | n + 1, (some c, srv) => proceed n (c.next srv)

/-! ## A section as a whole -/

/-- The loop of `unsubscribe` over some channels leaves the subscribers `subs`. -/
theorem proceed_unsubscribe (srv : KServer) (id : SessID) {channels : List (Fin channelsCount)}
    (hnodup : channels.Nodup) {subs : Subscribers channelsCount}
    (hcleared : ∀ c ∈ channels, subs.get c = swapRemove id (srv.subscribers.get c))
    (hkept : ∀ c, c ∉ channels → subs.get c = srv.subscribers.get c) (n : Nat) :
    proceed (channels.length + 1 + n) (some (unsubscribe id channels), srv) =
      proceed n (some (erase id), ⟨srv.sessionManager, subs⟩) := by
  induction channels generalizing srv with
  | nil =>
      obtain rfl : subs = srv.subscribers := funext fun c => hkept c List.not_mem_nil
      rw [List.length_nil, Nat.zero_add, Nat.add_comm, proceed]
      rfl
  | cons c channels ih =>
      obtain ⟨hnotMem, hnodup⟩ := List.nodup_cons.mp hnodup
      rw [List.length_cons, show channels.length + 1 + 1 + n = channels.length + 1 + n + 1 by omega,
        proceed, next]
      have hget : ∀ c', (srv.subscribers.set c (swapRemove id (srv.subscribers.get c))).get c' =
          if c' = c then swapRemove id (srv.subscribers.get c) else srv.subscribers.get c' :=
        fun c' => rfl
      apply ih _ hnodup
      · intro c' hc'
        have hne : c' ≠ c := fun heq => hnotMem (heq ▸ hc')
        rw [hget, if_neg hne]
        exact hcleared c' (List.mem_cons_of_mem _ hc')
      · intro c' hc'
        rw [hget]
        split
        case isTrue heq =>
          subst heq
          exact hcleared c' List.mem_cons_self
        case isFalse hne => exact hkept c' (by simp [hne, hc'])

/-- `delete_session`, for a session of the pool. -/
theorem proceed_delete {srv : KServer} {id : SessID} (hid : id ∈ srv.sessionManager.sessionPool) :
    proceed 8 (some (isCurrentId id), srv) =
      (none, ⟨srv.sessionManager.eraseSession id, srv.subscribers.unsubscribe id⟩) := by
  have hcleared : ∀ c ∈ List.finRange channelsCount,
      (srv.subscribers.unsubscribe id).get c = swapRemove id (srv.subscribers.get c) :=
    fun c _ => rfl
  have hloop := proceed_unsubscribe srv id (List.nodup_finRange channelsCount) hcleared
    (fun c hc => absurd (List.mem_finRange c) hc) 3
  rw [List.length_finRange] at hloop
  rw [proceed, next, if_pos hid]
  exact hloop

theorem proceed_deleteSession {srv : KServer} (h : srv.Consistent) (id : SessID) :
    ∃ srv', srv.deleteSession id = .ok srv' ∧
      proceed 8 (some (isCurrentId id), srv) = (none, srv') := by
  refine ⟨_, h.valid.deleteSession id, ?_⟩
  by_cases hid : id ∈ srv.sessionManager.sessionPool
  · rw [if_pos hid]
    exact proceed_delete hid
  · rw [if_neg hid]
    simp only [proceed, next, if_neg hid]

theorem proceed_createSession (srv : KServer) (kind : SockType) (commFd : Nat) :
    proceed 3 (some (choose kind commFd), srv) = (none, (srv.createSession kind commFd).2) := rfl

/-! ## Between two operations -/

/-- What holds in a section: how far it has come from a consistent server. -/
def Fits (srv : KServer) : Section → Prop
  | isCurrentId _ => srv.Consistent
  | unsubscribe id channels =>
      srv.Consistent ∧ id ∈ srv.sessionManager.sessionPool ∧
        ∀ c, c ∉ channels → id ∉ srv.subscribers.get c
  | erase id =>
      srv.Consistent ∧ id ∈ srv.sessionManager.sessionPool ∧ ∀ c, id ∉ srv.subscribers.get c
  | recycle id =>
      ∃ m : SessionManager, KServer.Consistent ⟨m, srv.subscribers⟩ ∧ id ∈ m.sessionPool ∧
        (∀ c, id ∉ srv.subscribers.get c) ∧
        srv.sessionManager = { m with sessionPool := m.sessionPool.erase id }
  | decrement =>
      ∃ (m : SessionManager) (id : SessID), KServer.Consistent ⟨m, srv.subscribers⟩ ∧
        id ∈ m.sessionPool ∧ (∀ c, id ∉ srv.subscribers.get c) ∧
        srv.sessionManager = { m.eraseSession id with numSess := m.numSess }
  | choose _ commFd => srv.Consistent ∧ srv.sessionManager.Accepts commFd
  | insert id _ commFd =>
      ∃ m : SessionManager, KServer.Consistent ⟨m, srv.subscribers⟩ ∧ m.Accepts commFd ∧
        id = m.chooseId.1 ∧ srv.sessionManager = { m with reusableIds := m.chooseId.2 }
  | increment _ =>
      ∃ (m : SessionManager) (kind : SockType) (commFd : Nat),
        KServer.Consistent ⟨m, srv.subscribers⟩ ∧ m.Accepts commFd ∧
        srv.sessionManager = { (m.createSession kind commFd).2 with numSess := m.numSess }

/-- The state of the manager, with the section of the thread that holds the mutex. -/
def Held (srv : KServer) : Option Section → Prop
  | none => srv.Consistent
  | some c => c.Fits srv

theorem consistent_erase {m : SessionManager} {subs : Subscribers channelsCount} {id : SessID}
    (h : KServer.Consistent ⟨m, subs⟩) (hid : id ∈ m.sessionPool) (hgone : ∀ c, id ∉ subs.get c) :
    KServer.Consistent ⟨m.eraseSession id, subs⟩ where
  valid := h.valid.eraseSession hid
  nodup := h.nodup
  alive c id' hid' := by
    have hne : id ≠ id' := by
      rintro rfl
      exact hgone c hid'
    rw [SessionManager.eraseSession, Std.TreeMap.mem_erase, ne_eq, compare_eq]
    exact ⟨hne, h.alive c id' hid'⟩

theorem unsubscribe_fits {srv : KServer} {id : SessID} {c : Fin channelsCount}
    {channels : List (Fin channelsCount)} (h : (unsubscribe id (c :: channels)).Fits srv) :
    (unsubscribe id channels).Fits
      { srv with subscribers := srv.subscribers.set c (swapRemove id (srv.subscribers.get c)) } := by
  obtain ⟨hconsistent, hid, hcleared⟩ := h
  have hget : ∀ c', (srv.subscribers.set c (swapRemove id (srv.subscribers.get c))).get c' =
      if c' = c then swapRemove id (srv.subscribers.get c) else srv.subscribers.get c' :=
    fun c' => rfl
  refine ⟨⟨hconsistent.valid, fun c' => ?_, fun c' id' hid' => ?_⟩, hid, fun c' hc' => ?_⟩
  · rw [hget]
    split
    · exact nodup_swapRemove id (hconsistent.nodup c)
    · exact hconsistent.nodup c'
  · simp only [hget] at hid'
    split at hid'
    · exact hconsistent.alive c id' ((mem_swapRemove (hconsistent.nodup c)).mp hid').2
    · exact hconsistent.alive c' id' hid'
  · simp only [hget]
    split
    case isTrue => exact fun hmem => ((mem_swapRemove (hconsistent.nodup c)).mp hmem).1 rfl
    case isFalse hne => exact hcleared c' (by simp [hne, hc'])

/-- An operation of a section takes it on, or gives a consistent server back. -/
theorem next_held {srv : KServer} {c : Section} (h : c.Fits srv) :
    Held (c.next srv).2 (c.next srv).1 := by
  cases c with
  | isCurrentId id =>
      simp only [next]
      split
      case isTrue hid => exact ⟨h, hid, fun c hc => absurd (List.mem_finRange c) hc⟩
      case isFalse => exact h
  | unsubscribe id channels =>
      cases channels with
      | nil => exact ⟨h.1, h.2.1, fun c => h.2.2 c List.not_mem_nil⟩
      | cons c channels => exact unsubscribe_fits h
  | erase id => exact ⟨srv.sessionManager, h.1, h.2.1, h.2.2, rfl⟩
  | recycle id =>
      obtain ⟨m, hconsistent, hid, hgone, hm⟩ := h
      refine ⟨m, id, hconsistent, hid, hgone, ?_⟩
      simp only [next, hm, SessionManager.eraseSession]
  | decrement =>
      obtain ⟨m, id, hconsistent, hid, hgone, hm⟩ := h
      have herased := consistent_erase hconsistent hid hgone
      simp only [next, hm]
      exact herased
  | choose kind commFd => exact ⟨srv.sessionManager, h.1, h.2, rfl, rfl⟩
  | insert id kind commFd =>
      obtain ⟨m, hconsistent, haccepts, rfl, hm⟩ := h
      refine ⟨m, kind, commFd, hconsistent, haccepts, ?_⟩
      simp only [next, hm, SessionManager.createSession]
  | increment id =>
      obtain ⟨m, kind, commFd, hconsistent, haccepts, hm⟩ := h
      have hcreated := hconsistent.createSession kind haccepts
      simp only [next, hm]
      exact hcreated

/-- Only the erasure of a session takes it out of the pool. -/
theorem mem_next {srv : KServer} {c : Section} {id : SessID}
    (hid : id ∈ srv.sessionManager.sessionPool) (hne : c ≠ erase id) :
    id ∈ (c.next srv).2.sessionManager.sessionPool := by
  cases c with
  | isCurrentId id' =>
      simp only [next]
      split
      · exact hid
      · exact hid
  | unsubscribe id' channels =>
      cases channels with
      | nil => exact hid
      | cons c channels => exact hid
  | erase id' =>
      have hother : id' ≠ id := fun heq => hne (congrArg erase heq)
      simp only [next, Std.TreeMap.mem_erase, ne_eq, compare_eq]
      exact ⟨hother, hid⟩
  | insert id' kind commFd =>
      simp only [next, Std.TreeMap.mem_insertIfNew]
      exact .inr hid
  | recycle | decrement | choose | increment => exact hid

/-- In a section, too, every subscriber is in the pool. -/
theorem Held.alive {srv : KServer} {holder : Option Section} (h : Held srv holder)
    {c : Fin channelsCount} {id : SessID} (hid : id ∈ srv.subscribers.get c) :
    id ∈ srv.sessionManager.sessionPool := by
  have herased : ∀ {m : SessionManager} {gone : SessID}, KServer.Consistent ⟨m, srv.subscribers⟩ →
      (∀ c, gone ∉ srv.subscribers.get c) → id ∈ m.sessionPool.erase gone := by
    intro m gone hconsistent hgone
    have hne : gone ≠ id := by
      rintro rfl
      exact hgone c hid
    rw [Std.TreeMap.mem_erase, ne_eq, compare_eq]
    exact ⟨hne, hconsistent.alive c id hid⟩
  cases holder with
  | none => exact KServer.Consistent.alive h c id hid
  | some stage =>
      cases stage with
      | isCurrentId => exact KServer.Consistent.alive h c id hid
      | unsubscribe => exact h.1.alive c id hid
      | erase => exact h.1.alive c id hid
      | choose => exact h.1.alive c id hid
      | recycle gone =>
          obtain ⟨m, hconsistent, -, hgone, hm⟩ := h
          rw [hm]
          exact herased hconsistent hgone
      | decrement =>
          obtain ⟨m, gone, hconsistent, -, hgone, hm⟩ := h
          rw [hm]
          exact herased hconsistent hgone
      | insert =>
          obtain ⟨m, hconsistent, -, -, hm⟩ := h
          rw [hm]
          exact hconsistent.alive c id hid
      | increment =>
          obtain ⟨m, kind, commFd, hconsistent, haccepts, hm⟩ := h
          rw [hm]
          exact (hconsistent.createSession kind haccepts).alive c id hid

theorem Held.disjoint {srv : KServer} {holder : Option Section} (h : Held srv holder) {id : SessID}
    (hid : id ∈ srv.sessionManager.sessionPool) : id ∉ srv.sessionManager.reusableIds := by
  have hvalid : ∀ m : SessionManager, KServer.Consistent ⟨m, srv.subscribers⟩ →
      id ∈ m.sessionPool → id ∉ m.reusableIds :=
    fun m hconsistent hmem hreusable => hconsistent.valid.ids.disjoint id hreusable hmem
  cases holder with
  | none => exact hvalid _ h hid
  | some stage =>
      cases stage with
      | isCurrentId => exact hvalid _ h hid
      | unsubscribe => exact hvalid _ h.1 hid
      | erase => exact hvalid _ h.1 hid
      | choose => exact hvalid _ h.1 hid
      | recycle gone =>
          obtain ⟨m, hconsistent, -, -, hm⟩ := h
          rw [hm] at hid ⊢
          exact hvalid m hconsistent (Std.TreeMap.mem_of_mem_erase hid)
      | decrement =>
          obtain ⟨m, gone, hconsistent, hgone, hcleared, hm⟩ := h
          rw [hm] at hid ⊢
          exact hvalid (m.eraseSession gone) (consistent_erase hconsistent hgone hcleared) hid
      | insert =>
          obtain ⟨m, hconsistent, -, -, hm⟩ := h
          rw [hm] at hid ⊢
          have hnot := hvalid m hconsistent hid
          rcases chooseId_cases m with ⟨-, hchoose⟩ | ⟨ids, last, hids, hchoose⟩
          · simp [hchoose]
          · intro hmem
            rw [hchoose] at hmem
            exact hnot (by rw [hids]; exact List.mem_append_left _ hmem)
      | increment =>
          obtain ⟨m, kind, commFd, hconsistent, haccepts, hm⟩ := h
          rw [hm] at hid ⊢
          exact hvalid (m.createSession kind commFd).2 (hconsistent.createSession kind haccepts) hid

/-- The mutex is free, or its holder has not changed the pool without the counter. -/
def Quiet : Option Section → Prop
  | some (recycle _) | some decrement | some (increment _) => False
  | _ => True

instance : DecidablePred Quiet
  | some (recycle _) | some decrement | some (increment _) => .isFalse id
  | none | some (isCurrentId _) | some (unsubscribe _ _) | some (erase _) | some (choose _ _)
  | some (insert _ _ _) => .isTrue trivial

theorem Held.numSess_eq {srv : KServer} {holder : Option Section} (h : Held srv holder)
    (hquiet : Quiet holder) :
    srv.sessionManager.numSess.toNat = srv.sessionManager.sessionPool.size := by
  cases holder with
  | none => exact h.valid.ids.numSess
  | some stage =>
      cases stage with
      | isCurrentId => exact KServer.Consistent.valid h |>.ids.numSess
      | unsubscribe => exact h.1.valid.ids.numSess
      | erase => exact h.1.valid.ids.numSess
      | choose => exact h.1.valid.ids.numSess
      | insert =>
          obtain ⟨m, hconsistent, -, -, hm⟩ := h
          rw [hm]
          exact hconsistent.valid.ids.numSess
      | recycle | decrement | increment => exact hquiet.elim

/-- The id of a session that is inserted is not in the pool. -/
theorem insert_fresh {srv : KServer} {id : SessID} {kind : SockType} {commFd : Nat}
    (h : (insert id kind commFd).Fits srv) : id ∉ srv.sessionManager.sessionPool := by
  obtain ⟨m, hconsistent, -, rfl, hm⟩ := h
  rw [hm]
  exact chooseId_notMem hconsistent.valid

end Section

end KoheronServer.Server
