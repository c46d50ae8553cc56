import KoheronServer.Server.SessionIds

/-!
# Subscriptions and session lifetimes

A subscription lives as long as the session that has asked for it. The subscribers
of a channel are ids, and ids are used again: the history of a run says which
session a subscription belongs to.
-/

namespace KoheronServer.Server

open Foundation

def Event.Subscribes (c : Fin channelsCount) (id : SessID) (event : Event) : Prop :=
  ∃ channel : BitVec 32, event = .subscribed channel id ∧ (channel.setWidth 16).toNat = c

def Event.Creates (id : SessID) (event : Event) : Prop :=
  ∃ kind commFd, event = .created id kind commFd

/-- A session has subscribed to a channel since an id was last given out. The events are those
of a history, the last one first. -/
def SubscribedSince (c : Fin channelsCount) (id : SessID) (events : List Event) : Prop :=
  ∃ newer event older, events = newer ++ event :: older ∧ event.Subscribes c id ∧
    ∀ event ∈ newer, ¬event.Creates id

theorem subscribedSince_cons {c : Fin channelsCount} {id : SessID} {event : Event}
    {events : List Event} :
    SubscribedSince c id (event :: events) ↔
      event.Subscribes c id ∨ ¬event.Creates id ∧ SubscribedSince c id events := by
  constructor
  · rintro ⟨newer, subscription, older, heq, hsubscribes, hnewer⟩
    cases newer with
    | nil =>
        obtain ⟨rfl, -⟩ := List.cons.inj heq
        exact .inl hsubscribes
    | cons first newer =>
        obtain ⟨rfl, rfl⟩ := List.cons.inj heq
        exact .inr ⟨hnewer event List.mem_cons_self, newer, subscription, older, rfl, hsubscribes,
          fun event hmem => hnewer event (List.mem_cons_of_mem _ hmem)⟩
  · rintro (hsubscribes | ⟨hcreates, newer, subscription, older, rfl, hsubscribes, hnewer⟩)
    · exact ⟨[], event, events, rfl, hsubscribes, by simp⟩
    · exact ⟨event :: newer, subscription, older, rfl, hsubscribes,
        List.forall_mem_cons.mpr ⟨hcreates, hnewer⟩⟩

/-- An event of another kind leaves the subscriptions of a history as they are. -/
theorem subscribedSince_cons_of {c : Fin channelsCount} {id : SessID} {event : Event}
    {events : List Event} (hsubscribes : ¬event.Subscribes c id) (hcreates : ¬event.Creates id) :
    SubscribedSince c id (event :: events) ↔ SubscribedSince c id events := by
  rw [subscribedSince_cons]
  tauto

/-- The subscribers of every channel are the sessions that are alive and of which `since` holds. -/
structure SubscribersValid (since : Fin channelsCount → SessID → Prop) (srv : KServer) : Prop where
  nodup : ∀ c, (srv.subscribers.get c).Nodup
  mem : ∀ c id, id ∈ srv.subscribers.get c ↔ id ∈ srv.sessionManager.sessionPool ∧ since c id

/-- The deletion of a session ends its subscriptions and no other ones. -/
theorem SubscribersValid.eraseSession {since : Fin channelsCount → SessID → Prop} {srv : KServer}
    (h : SubscribersValid since srv) (id : SessID) :
    SubscribersValid since
      ⟨srv.sessionManager.eraseSession id, srv.subscribers.unsubscribe id⟩ := by
  constructor
  · exact Subscribers.nodup_unsubscribe h.nodup id
  · intro c id'
    rw [Subscribers.mem_unsubscribe h.nodup, h.mem, SessionManager.eraseSession,
      Std.TreeMap.mem_erase, and_assoc, ne_eq, ne_eq, compare_eq, eq_comm (a := id)]

/-- A session that is created has no subscription, whoever had its id before. -/
theorem SubscribersValid.createSession {since since' : Fin channelsCount → SessID → Prop}
    {srv : KServer} (h : SubscribersValid since srv) (hvalid : srv.sessionManager.Valid)
    (kind : SockType) (commFd : Nat)
    (hsince : ∀ c id, since' c id ↔ id ≠ (srv.createSession kind commFd).1 ∧ since c id) :
    SubscribersValid since' (srv.createSession kind commFd).2 := by
  constructor
  · exact h.nodup
  · intro c id
    have hmem : id ∈ (srv.createSession kind commFd).2.sessionManager.sessionPool ↔
        (srv.createSession kind commFd).1 = id ∨ id ∈ srv.sessionManager.sessionPool := by
      simp only [KServer.createSession, SessionManager.createSession,
        Std.TreeMap.mem_insertIfNew, compare_eq]
    rw [hmem, hsince, show (srv.createSession kind commFd).2.subscribers = srv.subscribers from rfl,
      h.mem]
    constructor
    · rintro ⟨hpool, hid⟩
      refine ⟨.inr hpool, ?_, hid⟩
      rintro rfl
      exact chooseId_notMem hvalid hpool
    · rintro ⟨heq | hpool, hne, hid⟩
      · exact absurd heq.symm hne
      · exact ⟨hpool, hid⟩

theorem SubscribersValid.subscribe {since since' : Fin channelsCount → SessID → Prop}
    {srv : KServer} (h : SubscribersValid since srv) (channel : BitVec 32) {sid : SessID}
    (hsid : sid ∈ srv.sessionManager.sessionPool)
    (hsince : ∀ c id, since' c id ↔
      (channel.setWidth 16).toNat = c ∧ id = sid ∨ since c id) :
    SubscribersValid since' (srv.subscribe channel sid).2 := by
  constructor
  · exact Subscribers.nodup_subscribe h.nodup _ _
  · intro c id
    rw [hsince, KServer.subscribe, Subscribers.mem_subscribe, h.mem]
    constructor
    · rintro (⟨hpool, hid⟩ | ⟨hchannel, rfl⟩)
      · exact ⟨hpool, .inr hid⟩
      · exact ⟨hsid, .inl ⟨hchannel, rfl⟩⟩
    · rintro ⟨hpool, hnew | hid⟩
      · exact .inr hnew
      · exact .inl ⟨hpool, hid⟩

/-- The subscriptions of a history, after one step more. -/
theorem SubscribersValid.step {events : List Event} {srv srv' : KServer} {event : Event}
    (hvalid : srv.sessionManager.Valid)
    (h : SubscribersValid (fun c id => SubscribedSince c id events) srv)
    (hstep : Step srv event srv') :
    SubscribersValid (fun c id => SubscribedSince c id (event :: events)) srv' := by
  cases event with
  | created id kind commFd =>
      obtain ⟨-, hcreate⟩ := hstep
      obtain rfl : (srv.createSession kind commFd).1 = id := congrArg Prod.fst hcreate
      obtain rfl : (srv.createSession kind commFd).2 = srv' := congrArg Prod.snd hcreate
      refine h.createSession hvalid kind commFd fun c id => ?_
      rw [subscribedSince_cons]
      simp [Event.Subscribes, Event.Creates, eq_comm]
  | deleted id =>
      have hkeeps := (KServer.deleteSession_keeps (fun _ _ h => h.eraseSession _) hvalid h hstep).2
      have hsince : ∀ c id', SubscribedSince c id' (.deleted id :: events) ↔
          SubscribedSince c id' events :=
        fun c id' => subscribedSince_cons_of (by simp [Event.Subscribes]) (by simp [Event.Creates])
      simpa only [hsince] using hkeeps
  | deletedAll =>
      obtain ⟨srv₁, hall, heach⟩ := hvalid.deleteAll
      obtain rfl := Except.ok.inj (hall.symm.trans hstep)
      have hkeeps := (KServer.deleteEach_keeps (fun _ _ h => h.eraseSession _) hvalid h heach).2
      have hsince : ∀ c id, SubscribedSince c id (.deletedAll :: events) ↔
          SubscribedSince c id events :=
        fun c id => subscribedSince_cons_of (by simp [Event.Subscribes]) (by simp [Event.Creates])
      simpa only [hsince] using hkeeps
  | subscribed channel sid =>
      obtain ⟨hsid, rfl⟩ := hstep
      refine h.subscribe channel hsid fun c id => ?_
      rw [subscribedSince_cons]
      simp [Event.Subscribes, Event.Creates, eq_comm, and_comm]

theorem Run.subscribersValid {past : List (KServer × Event)} {srv : KServer}
    (h : Foundation.Run Step KServer.empty past srv) :
    SubscribersValid (fun c id => SubscribedSince c id (past.map Prod.snd)) srv := by
  apply h.history_invariant (I := fun srv => srv.sessionManager.Valid)
    (P := fun past srv => SubscribersValid (fun c id => SubscribedSince c id (past.map Prod.snd)) srv)
  · exact Run.valid
  · constructor
    · intro c
      simp [KServer.empty]
    · intro c id
      simp [KServer.empty, SessionManager.empty]
  · intro past srv event srv' hvalid h hstep
    exact h.step hvalid hstep

/-- In every run the subscribers of a channel are, once each, the sessions that are alive and
have subscribed to it since they were created. -/
theorem subscriptions {past : List (KServer × Event)} {srv : KServer}
    (h : Foundation.Run Step KServer.empty past srv) :
    (∀ c, (srv.subscribers.get c).Nodup) ∧
      (∀ c id, id ∈ srv.subscribers.get c ↔
        id ∈ srv.sessionManager.sessionPool ∧ SubscribedSince c id (past.map Prod.snd)) ∧
      (∀ c, ∀ id ∈ srv.subscribers.get c, id ∉ srv.sessionManager.reusableIds) ∧
      ∀ (c : Fin channelsCount) (kind : SockType) (commFd : Nat),
        (srv.createSession kind commFd).1 ∉ (srv.createSession kind commFd).2.subscribers.get c := by
  have hvalid := Run.valid h
  have hsubs := Run.subscribersValid h
  refine ⟨hsubs.nodup, hsubs.mem, ?_, ?_⟩
  · intro c id hid hreusable
    exact hvalid.ids.disjoint id hreusable ((hsubs.mem c id).mp hid).1
  · intro c kind commFd hid
    exact chooseId_notMem hvalid ((hsubs.mem c _).mp hid).1

/-- A session that takes the id of a subscriber and finds no subscription. -/
theorem subscriptions_reused :
    let srv₁ := (KServer.empty.createSession .tcp 7).2
    let srv₂ := (srv₁.subscribe 2 0).2
    let srv₃ : KServer := ⟨srv₂.sessionManager.eraseSession 0, srv₂.subscribers.unsubscribe 0⟩
    srv₂.subscribers.get devicesChannel = [0] ∧ (srv₃.createSession .unix 7).1 = 0 ∧
      (srv₃.createSession .unix 7).1 ∉
        (srv₃.createSession .unix 7).2.subscribers.get devicesChannel := by
  intro srv₁ srv₂ srv₃
  have hcreate : Step KServer.empty (.created 0 .tcp 7) srv₁ :=
    ⟨⟨by decide, by simp [KServer.empty, SessionManager.empty]⟩, rfl⟩
  have hsubscribe : Step srv₁ (.subscribed 2 0) srv₂ :=
    ⟨by simp [srv₁, KServer.createSession, SessionManager.createSession, SessionManager.chooseId,
      KServer.empty, SessionManager.empty], rfl⟩
  have hdelete : Step srv₂ (.deleted 0) srv₃ := rfl
  have hrun := ((Foundation.Run.start.next hcreate).next hsubscribe).next hdelete
  exact ⟨rfl, rfl, (subscriptions hrun).2.2.2 devicesChannel .unix 7⟩

/-! ## Reachable servers -/

/-- What every reachable server keeps: subscribers are alive, and none is there twice. -/
structure KServer.Consistent (srv : KServer) : Prop where
  valid : srv.sessionManager.Valid
  nodup : ∀ c, (srv.subscribers.get c).Nodup
  alive : ∀ c, ∀ id ∈ srv.subscribers.get c, id ∈ srv.sessionManager.sessionPool

theorem Run.consistent {past : List (KServer × Event)} {srv : KServer}
    (h : Foundation.Run Step KServer.empty past srv) : srv.Consistent where
  valid := Run.valid h
  nodup := (Run.subscribersValid h).nodup
  alive c id hid := (((Run.subscribersValid h).mem c id).mp hid).1

theorem KServer.Consistent.unsubscribe {srv : KServer} (h : srv.Consistent) (id : SessID) :
    KServer.Consistent { srv with subscribers := srv.subscribers.unsubscribe id } where
  valid := h.valid
  nodup := Subscribers.nodup_unsubscribe h.nodup id
  alive c id' hid := h.alive c id' ((Subscribers.mem_unsubscribe h.nodup id id' c).mp hid).2

theorem KServer.Consistent.deleteSession {srv srv' : KServer} (h : srv.Consistent) {id : SessID}
    (hdelete : srv.deleteSession id = .ok srv') :
    srv'.Consistent ∧ srv'.subscribers = srv.subscribers.unsubscribe id := by
  rw [h.valid.deleteSession] at hdelete
  obtain rfl := Except.ok.inj hdelete
  split
  case isTrue hid =>
    refine ⟨⟨h.valid.eraseSession hid, Subscribers.nodup_unsubscribe h.nodup id, ?_⟩, rfl⟩
    intro c id' hid'
    obtain ⟨hne, hmem⟩ := (Subscribers.mem_unsubscribe h.nodup id id' c).mp hid'
    rw [SessionManager.eraseSession, Std.TreeMap.mem_erase, ne_eq, compare_eq]
    exact ⟨fun heq => hne heq.symm, h.alive c id' hmem⟩
  case isFalse hid =>
    refine ⟨h, funext fun c => ?_⟩
    exact (swapRemove_of_notMem fun hmem => hid (h.alive c id hmem)).symm

theorem KServer.Consistent.createSession {srv : KServer} (h : srv.Consistent) (kind : SockType)
    {commFd : Nat} (haccepts : srv.sessionManager.Accepts commFd) :
    (srv.createSession kind commFd).2.Consistent where
  valid := h.valid.createSession kind haccepts
  nodup := h.nodup
  alive c id hid := by
    simp only [KServer.createSession, SessionManager.createSession, Std.TreeMap.mem_insertIfNew]
    exact .inr (h.alive c id hid)

def pairServer : KServer :=
  let srv₁ := (KServer.empty.createSession .tcp 7).2
  let srv₂ := (srv₁.createSession .websock 8).2
  ((srv₂.subscribe 0 0).2.subscribe 0 1).2

theorem pairServer_consistent : pairServer.Consistent := by
  let srv₁ := (KServer.empty.createSession .tcp 7).2
  let srv₂ := (srv₁.createSession .websock 8).2
  have hcreate₁ : Step KServer.empty (.created 0 .tcp 7) srv₁ :=
    ⟨⟨by decide, by simp [KServer.empty, SessionManager.empty]⟩, rfl⟩
  have hcreate₂ : Step srv₁ (.created 1 .websock 8) srv₂ := by
    refine ⟨⟨by decide, ?_⟩, rfl⟩
    intro id s hs
    have hget : srv₁.sessionManager.sessionPool[id]? =
        if (0 : Int) = id then some ⟨.tcp, 7⟩ else none := by
      simp [srv₁, KServer.createSession, SessionManager.createSession, SessionManager.chooseId,
        KServer.empty, SessionManager.empty, Std.TreeMap.getElem?_insertIfNew]
    rw [hget] at hs
    split at hs
    · obtain rfl := Option.some.inj hs
      decide
    · cases hs
  have hsubscribe₁ : Step srv₂ (.subscribed 0 0) (srv₂.subscribe 0 0).2 :=
    ⟨Std.TreeMap.contains_iff_mem.mp rfl, rfl⟩
  have hsubscribe₂ : Step (srv₂.subscribe 0 0).2 (.subscribed 0 1) pairServer :=
    ⟨Std.TreeMap.contains_iff_mem.mp rfl, rfl⟩
  exact Run.consistent
    ((((Foundation.Run.start.next hcreate₁).next hcreate₂).next hsubscribe₁).next hsubscribe₂)

end KoheronServer.Server
