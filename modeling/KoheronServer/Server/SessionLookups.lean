import KoheronServer.Server.ManagerSections
import Mathlib.Logic.Function.Basic

/-!
# Looking sessions up

An emit reads the id of a subscriber and then calls `get_session`, a
`GET_RUNNING_SESSIONS` takes all current ids and then calls `get_session` for one
after the other. Neither holds the mutex of the session manager, under which other
threads create and delete sessions. The range-for of an emit keeps the end that the
vector had at its start and comes to slots that `unsubscribe` has popped.
-/

namespace KoheronServer.Server

open Foundation

/-- Where a thread is that looks sessions up: in the loop of `emit`, with the slots it has read, the
end of its range and the `sid` of the turn, or in the loop of `GET_RUNNING_SESSIONS`, with the ids
that are left. -/
inductive Reader where
  | idle
  | emitting (channel : Fin channelsCount) (cursor stop : Nat) (sid : Option SessID)
      (hrange : cursor ≤ stop)
  | listing (ids : List SessID)

namespace Reader

def awaited : Reader → Option SessID
  | idle => none
  | emitting _ _ _ sid _ => sid
  | listing ids => ids.head?

/-- The thread behind a `get_session` that returns. -/
def found : Reader → Reader
  | idle => idle
  | emitting channel cursor stop _ hrange => emitting channel cursor stop none hrange
  | listing ids => listing ids.tail

inductive Pending (slots : Fin channelsCount → List SessID) : Reader → SessID → Prop where
  | read {channel : Fin channelsCount} {cursor stop : Nat} {hrange : cursor ≤ stop} {id : SessID} :
      Pending slots (emitting channel cursor stop (some id) hrange) id
  | slot {channel : Fin channelsCount} {cursor stop : Nat} {sid : Option SessID}
      {hrange : cursor ≤ stop} {id : SessID} (i : Nat) (hunread : cursor ≤ i) (hstop : i < stop)
      (hslot : (slots channel)[i]? = some id) :
      Pending slots (emitting channel cursor stop sid hrange) id
  | listed {ids : List SessID} {id : SessID} (hmem : id ∈ ids) : Pending slots (listing ids) id

variable {slots slots' : Fin channelsCount → List SessID} {r : Reader} {id : SessID}

theorem pending_of_awaited (h : r.awaited = some id) : r.Pending slots id := by
  cases r with
  | idle => cases h
  | emitting channel cursor stop sid hrange =>
      obtain rfl : sid = some id := h
      exact .read
  | listing ids => exact .listed (List.mem_of_mem_head? h)

theorem pending_of_found (h : r.found.Pending slots id) : r.Pending slots id := by
  cases r with
  | idle => cases h
  | emitting channel cursor stop sid hrange =>
      cases h with
      | slot i hunread hstop hslot => exact .slot i hunread hstop hslot
  | listing ids =>
      cases h with
      | listed hmem => exact .listed (List.mem_of_mem_tail hmem)

theorem pending_of_slots {P : SessID → Prop}
    (hslots : ∀ c (i : Nat) id, (slots' c)[i]? = some id → (slots c)[i]? = some id ∨ P id)
    (h : r.Pending slots' id) : r.Pending slots id ∨ P id := by
  cases h with
  | read => exact .inl .read
  | slot i hunread hstop hslot =>
      rcases hslots _ i id hslot with hold | hnew
      · exact .inl (.slot i hunread hstop hold)
      · exact .inr hnew
  | listed hmem => exact .inl (.listed hmem)

end Reader

/-- The server, the slots behind the vectors of the channels, the section of the thread that holds
the mutex of the manager, the other threads, and whether `session_pool.at` has thrown, which ends
the server. -/
structure LookupState where
  srv : KServer
  popped : Fin channelsCount → List SessID
  holder : Option Section
  readers : Nat → Reader
  thrown : Bool

inductive LookupAction where
  | deleteSession (id : SessID)
  | createSession (kind : SockType) (commFd : Nat)
  | proceed
  | emit (t : Nat) (channel : Fin channelsCount)
  | readSubscriber (t : Nat)
  | getCurrentIds (t : Nat)
  | getSession (t : Nat)
  | leave (t : Nat)

/-- The slots that have been popped, behind one operation of a section. `kept` is as in
`EmitState.leftBehind`. -/
def Section.pops (kept : Bool) (srv : KServer) (popped : Fin channelsCount → List SessID) :
    Section → Fin channelsCount → List SessID
  | unsubscribe id (c :: _) =>
      Function.update popped c (vacated kept id (srv.subscribers.get c) ++ popped c)
  | _ => popped

namespace LookupState

variable (kept : Bool)

def start (srv : KServer) : LookupState := ⟨srv, fun _ => [], none, fun _ => .idle, false⟩

def slots (s : LookupState) (c : Fin channelsCount) : List SessID :=
  s.srv.subscribers.get c ++ s.popped c

def setReader (s : LookupState) (t : Nat) (r : Reader) : LookupState :=
  { s with readers := Function.update s.readers t r }

def lock (s : LookupState) (c : Section) : Option LookupState :=
  match s.holder with
  | none => some { s with holder := some c }
  | some _ => none

def advance (s : LookupState) (c : Section) : LookupState :=
  { s with
    srv := (c.next s.srv).2
    popped := c.pops kept s.srv s.popped
    holder := (c.next s.srv).1 }

def step (s : LookupState) (action : LookupAction) : Option LookupState :=
  if s.thrown then none
  else
    match action with
    | .deleteSession id => s.lock (.isCurrentId id)
    | .createSession kind commFd =>
        if s.srv.sessionManager.Accepts commFd then s.lock (.choose kind commFd) else none
    | .proceed =>
        match s.holder with
        | none => none
        | some c => some (s.advance kept c)
    | .emit t channel =>
        match s.readers t with
        | .idle =>
            -- between the swap and the pop of `unsubscribe` it would have the slots that it has
            -- when it starts before both
            some (s.setReader t
              (.emitting channel 0 (s.srv.subscribers.get channel).length none (Nat.zero_le _)))
        | _ => none
    | .readSubscriber t =>
        match s.readers t with
        | .emitting channel cursor stop none hrange =>
            if hend : cursor = stop then none
            else
              match (s.slots channel)[cursor]? with
              | none => none
              | some sid =>
                  some (s.setReader t (.emitting channel (cursor + 1) stop (some sid)
                    (Nat.lt_of_le_of_ne hrange hend)))
        | _ => none
    | .getCurrentIds t =>
        match s.readers t with
        | .idle => some (s.setReader t (.listing s.srv.sessionManager.sessionPool.keys))
        | _ => none
    | .getSession t =>
        match (s.readers t).awaited with
        | none => none
        | some id =>
            if id ∈ s.srv.sessionManager.sessionPool then
              some (s.setReader t (s.readers t).found)
            else some { s with thrown := true }
    | .leave t =>
        match s.readers t with
        | .emitting _ cursor stop none _ =>
            if cursor = stop then some (s.setReader t .idle) else none
        | .listing [] => some (s.setReader t .idle)
        | _ => none

abbrev Runs (srv : KServer) (past : List (LookupState × LookupAction)) (s : LookupState) : Prop :=
  Foundation.Run (fun s action s' => step kept s action = some s') (start srv) past s

def FindsSession (s : LookupState) (action : LookupAction) : Prop :=
  ∀ t id, action = .getSession t → (s.readers t).awaited = some id →
    id ∈ s.srv.sessionManager.sessionPool

def erased (s : LookupState) : LookupAction → Option SessID
  | .proceed =>
      match s.holder with
      | some (.erase id) => some id
      | _ => none
  | _ => none

/-- A step does not erase a session that a thread is going to look up. -/
def Spares (s : LookupState) (action : LookupAction) : Prop :=
  ∀ id, s.erased action = some id → ∀ t, ¬(s.readers t).Pending s.slots id

structure Safe (s : LookupState) : Prop where
  held : Section.Held s.srv s.holder
  pending : ∀ t id, (s.readers t).Pending s.slots id → id ∈ s.srv.sessionManager.sessionPool
  thrown : s.thrown = false

variable {kept : Bool} {s s' : LookupState}

theorem Safe.setReader (h : s.Safe) (t : Nat) {r : Reader}
    (hr : ∀ id, r.Pending s.slots id → id ∈ s.srv.sessionManager.sessionPool) :
    (s.setReader t r).Safe where
  held := h.held
  pending t' id hid := by
    by_cases heq : t' = t
    · subst heq
      simp only [LookupState.setReader, Function.update_self] at hid
      exact hr id hid
    · simp only [LookupState.setReader, Function.update_of_ne heq] at hid
      exact h.pending t' id hid
  thrown := h.thrown

theorem Safe.lock (h : s.Safe) {c : Section} (hc : s.srv.Consistent → c.Fits s.srv)
    (hlock : s.lock c = some s') : s'.Safe := by
  unfold LookupState.lock at hlock
  cases hholder : s.holder with
  | some c' => simp [hholder] at hlock
  | none =>
      simp only [hholder, Option.some.injEq] at hlock
      subst hlock
      have hheld := h.held
      rw [hholder] at hheld
      exact ⟨hc hheld, h.pending, h.thrown⟩

/-- An operation of a section writes only subscribers to the slots. -/
theorem slots_advance (s : LookupState) (section' : Section) (c : Fin channelsCount) (i : Nat)
    (id : SessID) (h : ((s.advance kept section').slots c)[i]? = some id) :
    (s.slots c)[i]? = some id ∨ id ∈ s.srv.subscribers.get c := by
  cases section' with
  | isCurrentId id' =>
      left
      simp only [slots, advance, Section.next, Section.pops] at h
      split at h
      · exact h
      · exact h
  | unsubscribe id' channels =>
      cases channels with
      | nil => exact .inl h
      | cons c' channels =>
          by_cases heq : c = c'
          · subst heq
            have hslots : (s.advance kept (.unsubscribe id' (c :: channels))).slots c =
                swapRemove id' (s.srv.subscribers.get c) ++
                  (vacated kept id' (s.srv.subscribers.get c) ++ s.popped c) := by
              simp only [slots, advance, Section.pops, Function.update_self]
              exact congrArg (· ++ _) (if_pos rfl)
            rw [hslots] at h
            exact getElem?_swapRemove_vacated h
          · left
            have hslots : (s.advance kept (.unsubscribe id' (c' :: channels))).slots c =
              s.slots c := by
              simp only [slots, advance, Section.pops, Function.update_of_ne heq]
              exact congrArg (· ++ _) (if_neg heq)
            rwa [hslots] at h
  | erase | recycle | decrement | choose | insert | increment => exact .inl h

theorem Safe.advance (h : s.Safe) {c : Section} (hholder : s.holder = some c)
    (hspares : ∀ id, c = .erase id → ∀ t, ¬(s.readers t).Pending s.slots id) :
    (s.advance kept c).Safe where
  held := by
    have hheld := h.held
    rw [hholder] at hheld
    exact Section.next_held hheld
  pending t id hid := by
    have hbefore := Reader.pending_of_slots (P := fun id => ∃ c, id ∈ s.srv.subscribers.get c)
      (fun c' i id' hslot => (slots_advance s c c' i id' hslot).imp_right fun hmem => ⟨c', hmem⟩) hid
    have hnot : c ≠ .erase id := by
      rintro rfl
      rcases hbefore with hpending | ⟨c', hmem⟩
      · exact hspares id rfl t hpending
      · have hheld := h.held
        rw [hholder] at hheld
        exact hheld.2.2 c' hmem
    refine Section.mem_next ?_ hnot
    rcases hbefore with hpending | ⟨c', hmem⟩
    · exact h.pending t id hpending
    · exact h.held.alive hmem
  thrown := h.thrown

theorem Safe.emitting (h : s.Safe) {channel : Fin channelsCount} {id : SessID}
    (hid : (Reader.emitting channel 0 (s.srv.subscribers.get channel).length none
      (Nat.zero_le _)).Pending s.slots id) :
    id ∈ s.srv.sessionManager.sessionPool := by
  cases hid with
  | slot i _ hstop hslot =>
      rw [slots, List.getElem?_append_left hstop] at hslot
      exact h.held.alive (List.mem_of_getElem? hslot)

/-- A step that spares what is going to be looked up finds what it looks up, and so do the later
ones. -/
theorem Safe.step (h : s.Safe) {action : LookupAction} (hspares : s.Spares action)
    (hstep : s.step kept action = some s') : s'.Safe ∧ s.FindsSession action := by
  have hfinds : s.FindsSession action := by
    rintro t id - hid
    exact h.pending t id (Reader.pending_of_awaited hid)
  refine ⟨?_, hfinds⟩
  have hgoes : ¬s.thrown = true := by
    rw [h.thrown]
    decide
  unfold LookupState.step at hstep
  rw [if_neg hgoes] at hstep
  cases action with
  | deleteSession id => exact h.lock (c := .isCurrentId id) (fun hconsistent => hconsistent) hstep
  | createSession kind commFd =>
      simp only at hstep
      split at hstep
      case isTrue haccepts =>
        exact h.lock (c := .choose kind commFd) (fun hconsistent => ⟨hconsistent, haccepts⟩) hstep
      case isFalse => cases hstep
  | proceed =>
      simp only at hstep
      split at hstep
      · cases hstep
      case h_2 c hholder =>
        obtain rfl := Option.some.inj hstep
        exact h.advance hholder fun id heq => hspares id (by simp only [erased, hholder, heq])
  | emit t channel =>
      simp only at hstep
      split at hstep
      · obtain rfl := Option.some.inj hstep
        exact h.setReader t fun id hid => h.emitting hid
      · cases hstep
  | readSubscriber t =>
      simp only at hstep
      split at hstep
      case h_1 channel cursor stop hrange hreader =>
        split at hstep
        case isTrue => cases hstep
        case isFalse hend =>
          split at hstep
          case h_1 => cases hstep
          case h_2 sid hsid =>
            obtain rfl := Option.some.inj hstep
            refine h.setReader t ?_
            intro id hid
            apply h.pending t
            rw [hreader]
            cases hid with
            | read => exact .slot cursor (Nat.le_refl _) (Nat.lt_of_le_of_ne hrange hend) hsid
            | slot i hunread hstop hslot => exact .slot i (by omega) hstop hslot
      case h_2 => cases hstep
  | getCurrentIds t =>
      simp only at hstep
      split at hstep
      · obtain rfl := Option.some.inj hstep
        refine h.setReader t fun id hid => ?_
        cases hid with
        | listed hmem => exact Std.TreeMap.mem_keys.mp hmem
      · cases hstep
  | getSession t =>
      simp only at hstep
      split at hstep
      · cases hstep
      case h_2 id hid =>
        rw [if_pos (hfinds t id rfl hid)] at hstep
        obtain rfl := Option.some.inj hstep
        exact h.setReader t fun id' hid' => h.pending t id' (Reader.pending_of_found hid')
  | leave t =>
      simp only at hstep
      split at hstep
      · split at hstep
        · obtain rfl := Option.some.inj hstep
          exact h.setReader t nofun
        · cases hstep
      · obtain rfl := Option.some.inj hstep
        exact h.setReader t nofun
      · cases hstep

theorem start_safe {srv : KServer} (hsrv : srv.Consistent) : (start srv).Safe where
  held := hsrv
  pending _ _ hid := nomatch hid
  thrown := rfl

/-- In the runs that erase no session between the moment its id is collected, or is in the range of
an emit, and its lookup, every lookup finds its session and the server goes on. -/
theorem lookups_find {srv : KServer} (hsrv : srv.Consistent)
    {past : List (LookupState × LookupAction)} (h : Runs kept srv past s)
    (hspares : ∀ x ∈ past, x.1.Spares x.2) :
    (∀ x ∈ past, x.1.FindsSession x.2) ∧ s.Safe := by
  induction h with
  | start => exact ⟨by simp, start_safe hsrv⟩
  | next run taken ih =>
      obtain ⟨hfinds, hsafe⟩ := ih fun x hx => hspares x (List.mem_cons_of_mem _ hx)
      obtain ⟨hsafe', hfinds'⟩ := hsafe.step (hspares _ List.mem_cons_self) taken
      exact ⟨List.forall_mem_cons.mpr ⟨hfinds', hfinds⟩, hsafe'⟩

theorem step_erase (hgoes : s.thrown = false) {id : SessID} (hid : s.erased .proceed = some id)
    (hstep : s.step kept .proceed = some s') :
    s'.thrown = false ∧ s'.readers = s.readers ∧ s'.slots = s.slots ∧
      id ∉ s'.srv.sessionManager.sessionPool := by
  simp only [erased] at hid
  split at hid
  case h_2 => cases hid
  case h_1 id' hholder =>
    obtain rfl := Option.some.inj hid
    simp only [LookupState.step, hgoes, Bool.false_eq_true, if_false, hholder,
      Option.some.injEq] at hstep
    subst hstep
    refine ⟨hgoes, rfl, rfl, ?_⟩
    simp [advance, Section.next]

theorem getSession_throws {id : SessID} {t : Nat} (hgoes : s.thrown = false)
    (ht : (s.readers t).awaited = some id) (hid : id ∉ s.srv.sessionManager.sessionPool) :
    s.step kept (.getSession t) = some { s with thrown := true } := by
  simp only [LookupState.step, hgoes, Bool.false_eq_true, if_false, ht, if_neg hid]

/-- An erasure of the session that a thread looks up next lets its lookup throw. -/
theorem erased_throws (hgoes : s.thrown = false) {id : SessID} (hid : s.erased .proceed = some id)
    {t : Nat} (ht : (s.readers t).awaited = some id) (hstep : s.step kept .proceed = some s') :
    s'.step kept (.getSession t) = some { s' with thrown := true } := by
  obtain ⟨hgoes', hreaders, -, hgone⟩ := step_erase hgoes hid hstep
  rw [← hreaders] at ht
  exact getSession_throws hgoes' ht hgone

theorem erased_slot_throws (hgoes : s.thrown = false) {id : SessID}
    (hid : s.erased .proceed = some id) {t : Nat} {channel : Fin channelsCount} {cursor stop : Nat}
    {hrange : cursor ≤ stop} (ht : s.readers t = .emitting channel cursor stop none hrange)
    (hend : cursor ≠ stop) (hslot : (s.slots channel)[cursor]? = some id)
    (hstep : s.step kept .proceed = some s') :
    ∃ s'', s'.step kept (.readSubscriber t) = some s'' ∧
      s''.step kept (.getSession t) = some { s'' with thrown := true } := by
  obtain ⟨hgoes', hreaders, hslots, hgone⟩ := step_erase hgoes hid hstep
  rw [← hreaders] at ht
  rw [← hslots] at hslot
  have hread : s'.step kept (.readSubscriber t) =
      some (s'.setReader t (.emitting channel (cursor + 1) stop (some id)
        (Nat.lt_of_le_of_ne hrange hend))) := by
    simp only [LookupState.step, hgoes', Bool.false_eq_true, if_false, ht, dif_neg hend, hslot]
  refine ⟨_, hread, getSession_throws hgoes' ?_ hgone⟩
  simp only [LookupState.setReader, Function.update_self, Reader.awaited]

/-- The operations of `delete_session(id)` up to the erasure. -/
def erasing (id : SessID) : List LookupAction :=
  [.deleteSession id, .proceed, .proceed, .proceed, .proceed, .proceed, .proceed]

/-- Session 0 goes behind its turn; the popped slot that the emit comes to still holds session 1. -/
theorem lookups_find_other :
    ∃ past s, Runs true pairServer past s ∧ 0 ∉ s.srv.sessionManager.sessionPool ∧
      ∀ x ∈ past, x.1.FindsSession x.2 := by
  have hrun := Run.of_follow (step true) (start pairServer)
    ([.emit 0 serverChannel, .readSubscriber 0, .getSession 0] ++ erasing 0 ++
      [.readSubscriber 0, .getSession 0, .leave 0]) rfl
  refine ⟨_, _, hrun, by decide, (lookups_find pairServer_consistent hrun ?_).1⟩
  intro x hx id herased t hid
  simp only [List.mem_cons, List.not_mem_nil, or_false] at hx
  rcases hx with
    rfl | rfl | rfl | rfl | rfl | rfl | rfl | rfl | rfl | rfl | rfl | rfl | rfl
  case inr.inr.inr.inl =>
    obtain rfl : 0 = id := Option.some.inj herased
    by_cases ht : t = 0
    · subst ht
      change (Reader.emitting serverChannel 1 2 none (by decide)).Pending _ 0 at hid
      cases hid with
      | slot i hunread hstop hslot =>
          obtain rfl : i = 1 := by omega
          exact absurd hslot (by decide)
    · have hidle : Reader.Pending _ (Function.update (Function.update (Function.update
          (fun _ => Reader.idle) 0 _) 0 _) 0 _ t) 0 := hid
      rw [Function.update_of_ne ht, Function.update_of_ne ht, Function.update_of_ne ht] at hidle
      cases hidle
  all_goals exact nomatch (show (none : Option SessID) = some id from herased)

/-- The session whose id an emit has read is erased, or the one in the slot that it comes to next,
and so is one of a listing. -/
theorem lookups_throw :
    (∃ past s, Runs true pairServer past s ∧ s.thrown = true ∧ ¬∀ x ∈ past, x.1.FindsSession x.2) ∧
    (∃ past s, Runs false pairServer past s ∧ s.thrown = true ∧
      ¬∀ x ∈ past, x.1.FindsSession x.2) ∧
    ∃ past s, Runs true pairServer past s ∧ s.thrown = true ∧
      ¬∀ x ∈ past, x.1.FindsSession x.2 := by
  have hread := Run.of_follow (step true) (start pairServer)
    ([.emit 0 serverChannel, .readSubscriber 0] ++ erasing 0 ++ [.getSession 0]) rfl
  have hslot := Run.of_follow (step false) (start pairServer)
    ([.emit 0 serverChannel, .readSubscriber 0, .getSession 0] ++ erasing 1 ++
      [.proceed, .proceed, .readSubscriber 0, .getSession 0]) rfl
  have hlisting := Run.of_follow (step true) (start pairServer)
    ([.getCurrentIds 0, .getSession 0] ++ erasing 1 ++ [.getSession 0]) rfl
  refine ⟨⟨_, _, hread, rfl, fun hfinds => ?_⟩, ⟨_, _, hslot, rfl, fun hfinds => ?_⟩,
    ⟨_, _, hlisting, rfl, fun hfinds => ?_⟩⟩
  · exact absurd (hfinds _ List.mem_cons_self 0 0 rfl rfl) (by decide)
  · exact absurd (hfinds _ List.mem_cons_self 0 1 rfl rfl) (by decide)
  · exact absurd (hfinds _ List.mem_cons_self 0 1 rfl rfl) (by decide)

end LookupState

end KoheronServer.Server
