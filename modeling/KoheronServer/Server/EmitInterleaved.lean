import KoheronServer.Foundation.IndexWalk
import KoheronServer.Server.Subscriptions

/-!
# An emit among sessions that end

The range-for of `emit` takes the end of the vector when it starts and goes through the
slots up to it. In between the threads of other sessions run `delete_session`, whose
`unsubscribe` puts the last subscriber where the one that leaves has been and pops the
last slot. The loop still comes to that slot, and to what is left there.
-/

namespace KoheronServer.Server

open Foundation

/-- The loop goes on, it has come to its end, or `get_session` has thrown, which ends the server. -/
inductive EmitProgress where
  | looping
  | finished
  | thrown
  deriving DecidableEq

/-- An emit, the slots behind the vector of its channel, and the sessions it has sent the event to.
`stop` is the end that the loop has taken at its start. -/
structure EmitState where
  srv : KServer
  popped : List SessID
  stop : Nat
  cursor : Nat
  sent : List SessID
  progress : EmitProgress

inductive EmitAction where
  | next
  | finish
  | deleteSession (id : SessID)
  | unsubscribe (id : SessID)

namespace EmitState

variable (kept : Bool) (channel : Fin channelsCount)

def start (srv : KServer) : EmitState :=
  ⟨srv, [], (srv.subscribers.get channel).length, 0, [], .looping⟩

/-- The memory of the vector, with the slots that have been popped. -/
def slots (s : EmitState) : List SessID := s.srv.subscribers.get channel ++ s.popped

/-- `session_manager.get_session(sid).send<channel, event>(...)` -/
def send (s : EmitState) (sid : SessID) : EmitState :=
  if sid ∈ s.srv.sessionManager.sessionPool then
    { s with cursor := s.cursor + 1, sent := s.sent ++ [sid] }
  else { s with progress := .thrown }

/-- What `unsubscribe(id)` leaves in the slot that it pops from the vector of the channel. `kept`
says that the compiler drops the write of the swap to that slot, as g++ -O3 does. -/
def leftBehind (s : EmitState) (id : SessID) : List SessID :=
  vacated kept id (s.srv.subscribers.get channel)

def step (s : EmitState) (action : EmitAction) : Option EmitState :=
  if s.progress = .thrown then none
  else
    match action with
    | .next =>
        if s.progress = .looping ∧ s.cursor ≠ s.stop then
          match (s.slots channel)[s.cursor]? with
          | none => none
          | some sid => some (s.send sid)
        else none
    | .finish =>
        if s.progress = .looping ∧ s.cursor = s.stop then some { s with progress := .finished }
        else none
    | .deleteSession id =>
        match s.srv.deleteSession id with
        | .error _ => none
        | .ok srv => some { s with srv := srv, popped := s.leftBehind kept channel id ++ s.popped }
    | .unsubscribe id =>
        some
          { s with
            srv := { s.srv with subscribers := s.srv.subscribers.unsubscribe id }
            popped := s.leftBehind kept channel id ++ s.popped }

abbrev Runs (srv : KServer) (past : List (EmitState × EmitAction)) (s : EmitState) : Prop :=
  Foundation.Run (fun s action s' => step kept channel s action = some s')
    (start channel srv) past s

/-- A session that is subscribed from before the emit until now. -/
def SubscribedThroughout (past : List (EmitState × EmitAction)) (s : EmitState)
    (sid : SessID) : Prop :=
  sid ∈ s.srv.subscribers.get channel ∧ ∀ x ∈ past, sid ∈ x.1.srv.subscribers.get channel

/-! ## As a walk -/

/-- The emit as a loop over the vector of its channel. -/
def walk (s : EmitState) : Walk SessID :=
  ⟨s.srv.subscribers.get channel, s.popped, s.cursor, s.sent⟩

end EmitState

namespace EmitAction

/-- As a step of the walk. The turn that throws visits nothing. -/
def walk (channel : Fin channelsCount) (s : EmitState) : EmitAction → WalkAction SessID
  | next =>
      match (s.slots channel)[s.cursor]? with
      | none => .stay
      | some sid => if sid ∈ s.srv.sessionManager.sessionPool then .visit else .stay
  | finish => .stay
  | deleteSession id => .remove id
  | unsubscribe id => .remove id

variable (kept : Bool) (channel : Fin channelsCount) (s : EmitState)

/-- Another session leaves and moves `sid` past the cursor, or doubles it in front of it. -/
def Displaces (action : EmitAction) (sid : SessID) : Prop :=
  ∃ id, (action = .deleteSession id ∨ action = .unsubscribe id) ∧
    (s.walk channel).Displaces id sid kept

/-- A session is deleted whose id is in a slot that the emit has yet to come to. -/
def Vanishes (action : EmitAction) : Prop :=
  ∃ id, action = .deleteSession id ∧ id ∈ ((s.walk channel).remove kept id).ahead

end EmitAction

namespace EmitState

variable {kept : Bool} {channel : Fin channelsCount} {srv : KServer}
  {past : List (EmitState × EmitAction)} {s s' : EmitState} {action : EmitAction}

inductive Steps (kept : Bool) (channel : Fin channelsCount) (s : EmitState) :
    EmitAction → EmitState → Prop where
  | next {sid : SessID} (hsid : (s.slots channel)[s.cursor]? = some sid)
      (hlooping : s.progress = .looping) (hmem : sid ∈ s.srv.sessionManager.sessionPool) :
      Steps kept channel s .next { s with cursor := s.cursor + 1, sent := s.sent ++ [sid] }
  | throws {sid : SessID} (hsid : (s.slots channel)[s.cursor]? = some sid)
      (hmem : sid ∉ s.srv.sessionManager.sessionPool) :
      Steps kept channel s .next { s with progress := .thrown }
  | finish (hend : s.cursor = s.stop) : Steps kept channel s .finish
    { s with progress := .finished }
  | deleteSession {id : SessID} {srv : KServer} (hdelete : s.srv.deleteSession id = .ok srv) :
      Steps kept channel s (.deleteSession id)
        { s with srv := srv, popped := s.leftBehind kept channel id ++ s.popped }
  | unsubscribe {id : SessID} :
      Steps kept channel s (.unsubscribe id)
        { s with
          srv := { s.srv with subscribers := s.srv.subscribers.unsubscribe id }
          popped := s.leftBehind kept channel id ++ s.popped }

theorem step_steps (hstep : step kept channel s action = some s') :
    s.progress ≠ .thrown ∧ Steps kept channel s action s' := by
  unfold step at hstep
  split at hstep
  case isTrue => cases hstep
  case isFalse hgoes =>
    refine ⟨hgoes, ?_⟩
    cases action with
    | next =>
        simp only at hstep
        split at hstep
        case isFalse => cases hstep
        case isTrue hlooping =>
          split at hstep
          case h_1 => cases hstep
          case h_2 sid hsid =>
            obtain rfl := Option.some.inj hstep
            unfold send
            split
            case isTrue hmem => exact .next hsid hlooping.1 hmem
            case isFalse hmem => exact .throws hsid hmem
    | finish =>
        simp only at hstep
        split at hstep
        case isTrue hend =>
          obtain rfl := Option.some.inj hstep
          exact .finish hend.2
        case isFalse => cases hstep
    | deleteSession id =>
        simp only at hstep
        split at hstep
        case h_1 => cases hstep
        case h_2 hdelete =>
          obtain rfl := Option.some.inj hstep
          exact .deleteSession hdelete
    | unsubscribe id =>
        obtain rfl := Option.some.inj hstep
        exact .unsubscribe

theorem step_consistent (h : s.srv.Consistent) (hstep : step kept channel s action = some s') :
    s'.srv.Consistent := by
  cases (step_steps hstep).2 with
  | next => exact h
  | throws => exact h
  | finish => exact h
  | deleteSession hdelete => exact (h.deleteSession hdelete).1
  | @unsubscribe id => exact h.unsubscribe id

theorem Runs.consistent (hsrv : srv.Consistent) (h : Runs kept channel srv past s) :
    s.srv.Consistent :=
  h.invariant (P := fun s => s.srv.Consistent) hsrv step_consistent

theorem walk_deleteSession {id : SessID} (h : s.srv.Consistent) {srv : KServer}
    (hdelete : s.srv.deleteSession id = .ok srv) :
    walk channel { s with srv := srv, popped := s.leftBehind kept channel id ++ s.popped } =
      (s.walk channel).remove kept id := by
  simp only [walk, (h.deleteSession hdelete).2]
  rfl

/-- A step of the emit or of another thread is one of the walk. -/
theorem step_walk (h : s.srv.Consistent) (hstep : step kept channel s action = some s') :
    (s.walk channel).step kept (action.walk channel s) = some (s'.walk channel) := by
  cases (step_steps hstep).2 with
  | next hsid _ hmem =>
      have hslots : (s.walk channel).slots[(s.walk channel).cursor]? = some _ := hsid
      simp only [EmitAction.walk, hsid, if_pos hmem, Walk.step, hslots]
      rfl
  | throws hsid hmem =>
      simp only [EmitAction.walk, hsid, if_neg hmem, Walk.step]
      rfl
  | finish => rfl
  | deleteSession hdelete =>
      simp only [EmitAction.walk, Walk.step, walk_deleteSession h hdelete]
  | unsubscribe => rfl

theorem Runs.walk (hsrv : srv.Consistent) (h : Runs kept channel srv past s) :
    Foundation.Run (fun w action w' => Walk.step kept w action = some w')
      ⟨srv.subscribers.get channel, [], 0, []⟩
      (past.map fun x => (x.1.walk channel, x.2.walk channel x.1)) (s.walk channel) :=
  h.relabel (I := fun s => s.srv.Consistent) (EmitState.walk channel)
    (fun s action => action.walk channel s) (fun run => Runs.consistent hsrv run) step_walk

/-! ## The end of the loop -/

/-- The slots stay as many as they were when the loop took its end. -/
structure Bounded (channel : Fin channelsCount) (s : EmitState) : Prop where
  length : (s.slots channel).length = s.stop
  cursor : s.cursor ≤ s.stop
  finished : s.progress = .finished → s.cursor = s.stop

theorem Runs.bounded (hsrv : srv.Consistent) (h : Runs kept channel srv past s) :
    s.Bounded channel := by
  refine h.history_invariant (I := fun s => s.srv.Consistent) (P := fun _ s => s.Bounded channel)
    (fun run => Runs.consistent hsrv run) ⟨by simp [slots, start], Nat.zero_le _, nofun⟩ ?_
  intro past s action s' hconsistent ih hstep
  cases (step_steps hstep).2 with
  | next hsid hlooping _ =>
      obtain ⟨hlt, -⟩ := List.getElem?_eq_some_iff.mp hsid
      refine ⟨ih.length, by rw [← ih.length]; exact hlt, fun hfinished => ?_⟩
      rw [hlooping] at hfinished
      cases hfinished
  | throws => exact ⟨ih.length, ih.cursor, nofun⟩
  | finish hend => exact ⟨ih.length, ih.cursor, fun _ => hend⟩
  | @deleteSession id _ hdelete =>
      refine ⟨?_, ih.cursor, ih.finished⟩
      have hslots : ((s.walk channel).remove kept id).slots.length = s.stop :=
        Walk.length_slots_remove.trans ih.length
      rwa [← walk_deleteSession hconsistent hdelete] at hslots
  | @unsubscribe id =>
      refine ⟨?_, ih.cursor, ih.finished⟩
      have hslots : ((s.walk channel).remove kept id).slots.length = s.stop :=
        Walk.length_slots_remove.trans ih.length
      exact hslots

/-- An emit that is in its loop can take its next turn or end. -/
theorem Runs.goes_on (hsrv : srv.Consistent) (h : Runs kept channel srv past s)
    (hlooping : s.progress = .looping) :
    (∃ s', step kept channel s .next = some s') ∨ ∃ s', step kept channel s .finish = some s' := by
  have hbounded := h.bounded hsrv
  have hgoes : ¬s.progress = .thrown := by
    rw [hlooping]
    nofun
  by_cases hend : s.cursor = s.stop
  · right
    simp only [step, if_neg hgoes, if_pos (And.intro hlooping hend)]
    exact ⟨_, rfl⟩
  · left
    have hlt : s.cursor < (s.slots channel).length := by
      have hle := hbounded.cursor
      rw [hbounded.length]
      omega
    simp only [step, if_neg hgoes, if_pos (And.intro hlooping hend), List.getElem?_eq_getElem hlt]
    exact ⟨_, rfl⟩

theorem ahead_eq_cons {sid : SessID} (hsid : (s.slots channel)[s.cursor]? = some sid) :
    (s.walk channel).ahead = sid :: (s.slots channel).drop (s.cursor + 1) := by
  obtain ⟨hlt, hgetElem⟩ := List.getElem?_eq_some_iff.mp hsid
  have hdrop : (s.walk channel).ahead = (s.slots channel).drop s.cursor := rfl
  rw [hdrop, List.drop_eq_getElem_cons hlt, hgetElem]

theorem Runs.ahead_of_finished (hsrv : srv.Consistent) (h : Runs kept channel srv past s)
    (hfinished : s.progress = .finished) : (s.walk channel).ahead = [] := by
  have hbounded := h.bounded hsrv
  have hcursor := hbounded.finished hfinished
  have hlength := hbounded.length
  exact List.drop_eq_nil_of_le (by
    show (s.slots channel).length ≤ s.cursor
    omega)

/-! ## The exception -/

theorem mem_deleteSession {srv srv' : KServer} (h : srv.Consistent) {id : SessID}
    (hdelete : srv.deleteSession id = .ok srv') (id' : SessID) :
    id' ∈ srv'.sessionManager.sessionPool ↔ id' ≠ id ∧ id' ∈ srv.sessionManager.sessionPool := by
  rw [h.valid.deleteSession] at hdelete
  obtain rfl := Except.ok.inj hdelete
  split
  case isTrue =>
    rw [SessionManager.eraseSession, Std.TreeMap.mem_erase, ne_eq, compare_eq, ne_comm]
  case isFalse hid =>
    constructor
    · intro hmem
      refine ⟨?_, hmem⟩
      rintro rfl
      exact hid hmem
    · exact And.right

/-- What is ahead after a removal is in the pool, if what was ahead before is. -/
theorem mem_of_mem_ahead_remove (h : s.srv.Consistent) {id id' : SessID}
    (hahead : ∀ id ∈ (s.walk channel).ahead, id ∈ s.srv.sessionManager.sessionPool)
    (hid' : id' ∈ ((s.walk channel).remove kept id).ahead) :
    id' ∈ s.srv.sessionManager.sessionPool := by
  rcases Walk.mem_ahead_remove hid' with hmem | hmem
  · exact hahead id' hmem
  · exact h.alive channel id' hmem

/-- While no session has vanished every turn finds its session. -/
theorem Runs.alive_of_not_vanishes (hsrv : srv.Consistent) (h : Runs kept channel srv past s)
    (hstays : ∀ x ∈ past, ¬x.2.Vanishes kept channel x.1) :
    s.progress ≠ .thrown ∧
      ∀ id ∈ (s.walk channel).ahead, id ∈ s.srv.sessionManager.sessionPool := by
  refine h.history_invariant (I := fun s => s.srv.Consistent)
    (P := fun past s => (∀ x ∈ past, ¬x.2.Vanishes kept channel x.1) → s.progress ≠ .thrown ∧
      ∀ id ∈ (s.walk channel).ahead, id ∈ s.srv.sessionManager.sessionPool)
    (fun run => Runs.consistent hsrv run) ?_ ?_ hstays
  · intro _
    constructor
    · intro hthrown
      cases hthrown
    · intro id hid
      apply hsrv.alive channel id
      simpa [EmitState.walk, Walk.ahead, Walk.slots, start] using hid
  · intro past s action s' hconsistent ih hstep hstays
    obtain ⟨hnot, hpast⟩ := List.forall_mem_cons.mp hstays
    obtain ⟨hgoes, hahead⟩ := ih hpast
    cases (step_steps hstep).2 with
    | next hsid _ _ =>
        refine ⟨hgoes, fun id hid => hahead id ?_⟩
        rw [ahead_eq_cons hsid]
        exact List.mem_cons_of_mem _ hid
    | throws hsid hmem =>
        refine absurd (hahead _ ?_) hmem
        rw [ahead_eq_cons hsid]
        exact List.mem_cons_self
    | finish =>
        constructor
        · intro hthrown
          cases hthrown
        · exact hahead
    | @deleteSession id _ hdelete =>
        refine ⟨hgoes, fun id' hid' => (mem_deleteSession hconsistent hdelete id').mpr ⟨?_, ?_⟩⟩
        · rintro rfl
          rw [walk_deleteSession hconsistent hdelete] at hid'
          exact hnot ⟨id', rfl, hid'⟩
        · rw [walk_deleteSession hconsistent hdelete] at hid'
          exact mem_of_mem_ahead_remove hconsistent hahead hid'
    | @unsubscribe id =>
        refine ⟨hgoes, fun id' hid' => ?_⟩
        have hremoved : id' ∈ ((s.walk channel).remove kept id).ahead := hid'
        exact mem_of_mem_ahead_remove hconsistent hahead hremoved

/-- A session that has vanished is never got over: its slot stays ahead until the emit throws. -/
theorem Runs.throws_of_vanishes (hsrv : srv.Consistent) (h : Runs kept channel srv past s)
    (hvanishes : ∃ x ∈ past, x.2.Vanishes kept channel x.1) :
    s.progress = .thrown ∨
      ∃ id ∈ (s.walk channel).ahead, id ∉ s.srv.sessionManager.sessionPool := by
  refine h.history_invariant (I := fun s => s.srv.Consistent)
    (P := fun past s => (∃ x ∈ past, x.2.Vanishes kept channel x.1) → s.progress = .thrown ∨
      ∃ id ∈ (s.walk channel).ahead, id ∉ s.srv.sessionManager.sessionPool)
    (fun run => Runs.consistent hsrv run) ?_ ?_ hvanishes
  · rintro ⟨x, hx, -⟩
    cases hx
  · intro past s action s' hconsistent ih hstep hvanishes
    obtain ⟨hgoes, hsteps⟩ := step_steps hstep
    have hremove : ∀ id, (∃ id' ∈ (s.walk channel).ahead, id' ∉ s.srv.sessionManager.sessionPool) →
        ∃ id' ∈ ((s.walk channel).remove kept id).ahead,
          id' ∉ s.srv.sessionManager.sessionPool := by
      rintro id ⟨id', hid', hgone⟩
      have hnot : id' ∉ (s.walk channel).items :=
        fun hmem => hgone (hconsistent.alive channel id' hmem)
      refine ⟨id', ?_, hgone⟩
      rw [← List.count_pos_iff] at hid' ⊢
      rwa [Walk.count_ahead_remove_of_notMem kept hnot]
    have hbefore : ∀ x ∈ past, x.2.Vanishes kept channel x.1 →
        ∃ id ∈ (s.walk channel).ahead, id ∉ s.srv.sessionManager.sessionPool :=
      fun x hx hv => (ih ⟨x, hx, hv⟩).resolve_left hgoes
    obtain ⟨x, hx, hv⟩ := hvanishes
    rcases List.mem_cons.mp hx with rfl | hx
    · obtain ⟨id, haction, hid⟩ := hv
      cases haction
      cases hsteps with
      | deleteSession hdelete =>
          right
          refine ⟨id, ?_, ?_⟩
          · rwa [walk_deleteSession hconsistent hdelete]
          · rw [mem_deleteSession hconsistent hdelete]
            simp
    · have hahead := hbefore x hx hv
      cases hsteps with
      | @next sid hsid _ hmem =>
          obtain ⟨id, hid, hgone⟩ := hahead
          right
          refine ⟨id, ?_, hgone⟩
          rw [ahead_eq_cons hsid] at hid
          rcases List.mem_cons.mp hid with rfl | hid
          · exact absurd hmem hgone
          · exact hid
      | throws => exact .inl rfl
      | finish => exact .inr hahead
      | @deleteSession id _ hdelete =>
          right
          obtain ⟨id', hid', hgone⟩ := hremove id hahead
          refine ⟨id', ?_, ?_⟩
          · rwa [walk_deleteSession hconsistent hdelete]
          · rw [mem_deleteSession hconsistent hdelete]
            exact fun hand => hgone hand.2
      | @unsubscribe id => exact .inr (hremove id hahead)

/-- The emits that end without an exception. -/
theorem Runs.finished_iff (hsrv : srv.Consistent) (h : Runs kept channel srv past s)
    (hended : s.progress ≠ .looping) :
    s.progress = .finished ↔ ∀ x ∈ past, ¬x.2.Vanishes kept channel x.1 := by
  constructor
  · intro hfinished x hx hvanishes
    rcases h.throws_of_vanishes hsrv ⟨x, hx, hvanishes⟩ with hthrown | ⟨id, hid, -⟩
    · rw [hfinished] at hthrown
      cases hthrown
    · rw [h.ahead_of_finished hsrv hfinished] at hid
      cases hid
  · intro hstays
    have hgoes := (h.alive_of_not_vanishes hsrv hstays).1
    cases hprogress : s.progress with
    | looping => exact absurd hprogress hended
    | finished => rfl
    | thrown => exact absurd hprogress hgoes

/-! ## Once each -/

theorem displaced_walk (past : List (EmitState × EmitAction)) (sid : SessID) :
    Walk.Displaced kept (past.map fun x => (x.1.walk channel, x.2.walk channel x.1)) sid ↔
      ∃ x ∈ past, x.2.Displaces kept channel x.1 sid := by
  constructor
  · rintro ⟨w, id, hmem, hdisplaces⟩
    obtain ⟨x, hx, heq⟩ := List.mem_map.mp hmem
    obtain ⟨rfl, haction⟩ := Prod.mk.inj heq
    refine ⟨x, hx, id, ?_, hdisplaces⟩
    cases hx2 : x.2 with
    | next =>
        simp only [hx2, EmitAction.walk] at haction
        split at haction
        · cases haction
        · split at haction <;> cases haction
    | finish =>
        simp only [hx2, EmitAction.walk] at haction
        cases haction
    | deleteSession id' =>
        simp only [hx2, EmitAction.walk, WalkAction.remove.injEq] at haction
        exact .inl (congrArg _ haction)
    | unsubscribe id' =>
        simp only [hx2, EmitAction.walk, WalkAction.remove.injEq] at haction
        exact .inr (congrArg _ haction)
  · rintro ⟨x, hx, id, haction, hdisplaces⟩
    refine ⟨_, id, List.mem_map.mpr ⟨x, hx, Prod.ext rfl ?_⟩, hdisplaces⟩
    rcases haction with haction | haction
    · rw [haction]
      rfl
    · rw [haction]
      rfl

/-- A session that has stayed subscribed gets the event once exactly when no session that has left
has displaced it. -/
theorem Runs.count_sent (hsrv : srv.Consistent) (h : Runs kept channel srv past s)
    (hfinished : s.progress = .finished) {sid : SessID}
    (hsid : sid ∈ s.srv.subscribers.get channel) :
    s.sent.count sid = 1 ↔ ∀ x ∈ past, ¬x.2.Displaces kept channel x.1 sid := by
  have hcount : s.sent.count sid = (s.walk channel).due sid :=
    Walk.count_visited_of_ahead (h.ahead_of_finished hsrv hfinished)
  have hstays := Walk.stays (hsrv.nodup channel) (h.walk hsrv) hsid
  rw [hcount, hstays.due_eq_one_iff, displaced_walk]
  simp

/-- What the emit ought to do: every session that is subscribed from before it until after it
gets the event once. -/
def EachOnce (channel : Fin channelsCount) (past : List (EmitState × EmitAction)) (s : EmitState) :
    Prop :=
  ∀ sid, SubscribedThroughout channel past s sid → s.sent.count sid = 1

/-- An emit comes to its end and does so in the runs in which no session vanishes from what is
ahead and no stable one is displaced, and in no other ones. -/
theorem emit_each_once_iff (hsrv : srv.Consistent) (h : Runs kept channel srv past s)
    (hended : s.progress ≠ .looping) :
    (s.progress = .finished ∧ EachOnce channel past s) ↔
      (∀ x ∈ past, ¬x.2.Vanishes kept channel x.1) ∧
        ∀ sid, SubscribedThroughout channel past s sid →
          ∀ x ∈ past, ¬x.2.Displaces kept channel x.1 sid := by
  rw [← h.finished_iff hsrv hended]
  refine and_congr_right fun hfinished => ?_
  constructor
  · intro honce sid hsid
    exact (h.count_sent hsrv hfinished hsid.1).mp (honce sid hsid)
  · intro hdisplaces sid hsid
    exact (h.count_sent hsrv hfinished hsid.1).mpr (hdisplaces sid hsid)

/-! ## Two subscribers -/

/-- In the build that drops the write the slot that is popped still holds session 1. -/
theorem emit_each_once_iff_behind :
    ∃ past s, Runs true serverChannel pairServer past s ∧
      SubscribedThroughout serverChannel past s 1 ∧ s.progress = .finished ∧
      EachOnce serverChannel past s := by
  have hrun := Run.of_follow (step true serverChannel) (start serverChannel pairServer)
    [.next, .deleteSession 0, .next, .finish] rfl
  refine ⟨_, _, hrun, ⟨by decide, by decide⟩,
    (emit_each_once_iff pairServer_consistent hrun nofun).mpr ⟨?_, ?_⟩⟩
  · intro x hx hvanishes
    obtain ⟨id, haction, hid⟩ := hvanishes
    simp only [List.mem_cons, List.not_mem_nil, or_false] at hx
    rcases hx with rfl | rfl | rfl | rfl
    · cases haction
    · cases haction
    · cases haction
      exact absurd hid (by decide)
    · cases haction
  · intro sid _ x hx hdisplaces
    obtain ⟨id, haction, hdisplaces⟩ := hdisplaces
    simp only [List.mem_cons, List.not_mem_nil, or_false] at hx
    rcases hx with rfl | rfl | rfl | rfl
    · rcases haction with haction | haction <;> cases haction
    · rcases haction with haction | haction <;> cases haction
    · rcases haction with haction | haction
      · cases haction
        cases hdisplaces with
        | doubled _ _ hunvisited => exact absurd hunvisited (by decide)
      · cases haction
    · rcases haction with haction | haction <;> cases haction

/-- Session 0 leaves. In one build session 1 is overtaken: the emit comes to what is left of
session 0, and throws when it is deleted. In the other one session 1 gets the event twice. -/
theorem emit_skips :
    (∃ past s, Runs false serverChannel pairServer past s ∧
      SubscribedThroughout serverChannel past s 1 ∧ s.progress = .thrown ∧ s.sent = [0]) ∧
    (∃ past s, Runs false serverChannel pairServer past s ∧
      SubscribedThroughout serverChannel past s 1 ∧ s.progress = .finished ∧ s.sent = [0, 0] ∧
      ¬EachOnce serverChannel past s) ∧
    ∃ past s, Runs true serverChannel pairServer past s ∧
      SubscribedThroughout serverChannel past s 1 ∧ s.progress = .finished ∧ s.sent = [1, 1] ∧
      ¬EachOnce serverChannel past s := by
  have hthrown := Run.of_follow (step false serverChannel) (start serverChannel pairServer)
    [.next, .deleteSession 0, .next] rfl
  have hovertaken := Run.of_follow (step false serverChannel) (start serverChannel pairServer)
    [.next, .unsubscribe 0, .next, .finish] rfl
  have hdoubled := Run.of_follow (step true serverChannel) (start serverChannel pairServer)
    [.deleteSession 0, .next, .next, .finish] rfl
  refine ⟨⟨_, _, hthrown, ⟨by decide, by decide⟩, rfl, rfl⟩,
    ⟨_, _, hovertaken, ⟨by decide, by decide⟩, rfl, rfl, fun honce => ?_⟩,
    ⟨_, _, hdoubled, ⟨by decide, by decide⟩, rfl, rfl, fun honce => ?_⟩⟩
  · exact absurd (honce 1 ⟨by decide, by decide⟩) (by decide)
  · exact absurd (honce 1 ⟨by decide, by decide⟩) (by decide)

end EmitState

end KoheronServer.Server
