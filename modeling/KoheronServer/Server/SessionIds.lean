import KoheronServer.Server.SessionManager

/-!
# Session ids

The pool, the reusable ids and the counter over runs of the server. The fresh id
that `create_session` takes, the number of sessions, is free because the ids in
use and the reusable ones are those below their number.
-/

namespace KoheronServer.Server

/-- The relation between the pool, the reusable ids and the counter. -/
structure IdsValid (m : SessionManager) : Prop where
  numSess : m.numSess.toNat = m.sessionPool.size
  disjoint : ∀ id ∈ m.reusableIds, id ∉ m.sessionPool
  nodup : m.reusableIds.Nodup
  ids : ∀ id : Int, id ∈ m.sessionPool ∨ id ∈ m.reusableIds ↔
    0 ≤ id ∧ id < m.sessionPool.size + m.reusableIds.length

/-- Sessions that are alive have descriptors of their own. -/
structure FdsDistinct (m : SessionManager) : Prop where
  bounded : ∀ (id : SessID) (s : Session), m.sessionPool[id]? = some s → s.commFd < 2 ^ 31
  distinct : ∀ (id id' : SessID) (s s' : Session), m.sessionPool[id]? = some s →
    m.sessionPool[id']? = some s' → s.commFd = s'.commFd → id = id'

structure SessionManager.Valid (m : SessionManager) : Prop where
  ids : IdsValid m
  fds : FdsDistinct m

theorem FdsDistinct.size_le {m : SessionManager} (h : FdsDistinct m) :
    m.sessionPool.size ≤ 2 ^ 31 := by
  have hsome : ∀ id ∈ m.sessionPool.keys, ∃ s, m.sessionPool[id]? = some s := by
    intro id hid
    have hmem := Std.TreeMap.mem_keys.mp hid
    exact ⟨m.sessionPool[id], Std.TreeMap.getElem?_eq_some_getElem hmem⟩
  have hnodup : (m.sessionPool.keys.map fun id => (m.sessionPool[id]?.map Session.commFd)).Nodup := by
    apply List.Nodup.map_on _ Std.TreeMap.nodup_keys
    intro id hid id' hid' heq
    obtain ⟨s, hs⟩ := hsome id hid
    obtain ⟨s', hs'⟩ := hsome id' hid'
    rw [hs, hs'] at heq
    exact h.distinct id id' s s' hs hs' (Option.some.inj heq)
  have hsub : (m.sessionPool.keys.map fun id => (m.sessionPool[id]?.map Session.commFd)) ⊆
      (List.range (2 ^ 31)).map some := by
    intro fd hfd
    obtain ⟨id, hid, rfl⟩ := List.mem_map.mp hfd
    obtain ⟨s, hs⟩ := hsome id hid
    rw [hs]
    exact List.mem_map.mpr ⟨s.commFd, List.mem_range.mpr (h.bounded id s hs), rfl⟩
  have hle := (List.subperm_of_subset hnodup hsub).length_le
  rwa [List.length_map, List.length_map, List.length_range, Std.TreeMap.length_keys] at hle

theorem compare_eq (id id' : SessID) : compare id id' = .eq ↔ id = id' := by
  simp

theorem FdsDistinct.insert {m : SessionManager} (h : FdsDistinct m) {id : SessID}
    (hid : id ∉ m.sessionPool) (kind : SockType) {commFd : Nat} (haccepts : m.Accepts commFd)
    (numSess : BitVec 32) (reusableIds : List SessID) :
    FdsDistinct ⟨numSess, m.sessionPool.insertIfNew id ⟨kind, commFd⟩, reusableIds⟩ := by
  have hget : ∀ id' : SessID, (m.sessionPool.insertIfNew id ⟨kind, commFd⟩)[id']? =
      if id = id' then some ⟨kind, commFd⟩ else m.sessionPool[id']? := by
    intro id'
    simp [Std.TreeMap.getElem?_insertIfNew, hid]
  constructor
  · intro id' s hs
    rw [hget] at hs
    split at hs
    · obtain rfl := Option.some.inj hs
      exact haccepts.1
    · exact h.bounded id' s hs
  · intro id₁ id₂ s₁ s₂ h₁ h₂ heq
    rw [hget] at h₁ h₂
    split at h₁ <;> split at h₂
    case isTrue.isTrue hid₁ hid₂ => exact hid₁.symm.trans hid₂
    case isTrue.isFalse =>
      obtain rfl := Option.some.inj h₁
      exact absurd heq.symm (haccepts.2 id₂ s₂ h₂)
    case isFalse.isTrue =>
      obtain rfl := Option.some.inj h₂
      exact absurd heq (haccepts.2 id₁ s₁ h₁)
    case isFalse.isFalse => exact h.distinct id₁ id₂ s₁ s₂ h₁ h₂ heq

theorem FdsDistinct.erase {m : SessionManager} (h : FdsDistinct m) (id : SessID) :
    FdsDistinct (m.eraseSession id) := by
  have hget : ∀ (id' : SessID) (s : Session), (m.eraseSession id).sessionPool[id']? = some s →
      m.sessionPool[id']? = some s := by
    intro id' s hs
    rw [SessionManager.eraseSession, Std.TreeMap.getElem?_erase] at hs
    split at hs
    · cases hs
    · exact hs
  constructor
  · intro id' s hs
    exact h.bounded id' s (hget id' s hs)
  · intro id₁ id₂ s₁ s₂ h₁ h₂
    exact h.distinct id₁ id₂ s₁ s₂ (hget id₁ s₁ h₁) (hget id₂ s₂ h₂)

theorem chooseId_cases (m : SessionManager) :
    (m.reusableIds = [] ∧ m.chooseId = (m.numSess.toInt, [])) ∨
      ∃ ids id, m.reusableIds = ids ++ [id] ∧ m.chooseId = (id, ids) := by
  unfold SessionManager.chooseId
  rcases List.eq_nil_or_concat m.reusableIds with hnil | ⟨ids, id, hids⟩
  · simp [hnil]
  · right
    rw [List.concat_eq_append] at hids
    exact ⟨ids, id, hids, by simp [hids]⟩

section

variable {m : SessionManager} (h : m.Valid)

include h

/-- The id that `create_session` chooses is held by no session. -/
theorem chooseId_notMem : m.chooseId.1 ∉ m.sessionPool := by
  rcases chooseId_cases m with ⟨hnil, hchoose⟩ | ⟨ids, id, hids, hchoose⟩
  · rw [hchoose]
    intro hmem
    have hrange := (h.ids.ids m.numSess.toInt).mp (.inl hmem)
    have hsize := h.ids.numSess
    have hle := h.fds.size_le
    have hbounds : (m.numSess.toInt : Int) < m.sessionPool.size ∧ 0 ≤ m.numSess.toInt := by
      simpa [hnil, and_comm] using hrange
    have hcond := BitVec.toInt_eq_toNat_cond m.numSess
    split at hcond <;> omega
  · rw [hchoose]
    exact h.ids.disjoint id (by simp [hids])

/-- Creating a session keeps the relation: the ids in use grow by one at most. -/
theorem SessionManager.Valid.createSession (kind : SockType) {commFd : Nat}
    (haccepts : m.Accepts commFd) : (m.createSession kind commFd).2.Valid := by
  have hnotMem := chooseId_notMem h
  have hfds' : FdsDistinct (m.createSession kind commFd).2 :=
    h.fds.insert hnotMem kind haccepts _ _
  have hsize : (m.createSession kind commFd).2.sessionPool.size = m.sessionPool.size + 1 := by
    rw [SessionManager.createSession, Std.TreeMap.size_insertIfNew, if_neg hnotMem]
  have hmem : ∀ id, id ∈ (m.createSession kind commFd).2.sessionPool ↔
      m.chooseId.1 = id ∨ id ∈ m.sessionPool := by
    intro id
    rw [SessionManager.createSession, Std.TreeMap.mem_insertIfNew, compare_eq]
  have hreusable : (m.createSession kind commFd).2.reusableIds = m.chooseId.2 := rfl
  have hle := FdsDistinct.size_le hfds'
  rw [hsize] at hle
  have hnum := h.ids.numSess
  have hnum' : (m.createSession kind commFd).2.numSess.toNat = m.sessionPool.size + 1 := by
    simp only [SessionManager.createSession, BitVec.toNat_add, hnum]
    exact Nat.mod_eq_of_lt (by simp; omega)
  rcases chooseId_cases m with ⟨hnil, hchoose⟩ | ⟨ids, id, hids, hchoose⟩
  · -- A fresh id is the number of sessions, since no id is free below it.
    have hfresh : m.numSess.toInt = m.sessionPool.size := by
      rw [BitVec.toInt_eq_toNat_of_lt (by omega), hnum]
    refine ⟨⟨by rw [hnum', hsize], ?_, ?_, ?_⟩, hfds'⟩
    · simp [hreusable, hchoose]
    · simp [hreusable, hchoose]
    · intro id
      have hrange := h.ids.ids id
      simp only [hnil, List.not_mem_nil, or_false, List.length_nil] at hrange
      simp only [hmem, hsize, hreusable, hchoose, hfresh, List.not_mem_nil, or_false,
        List.length_nil, hrange]
      change ((m.sessionPool.size : Int) = id ∨ _) ↔ _
      omega
  · have hnodup := h.ids.nodup
    rw [hids, List.nodup_append] at hnodup
    refine ⟨⟨by rw [hnum', hsize], ?_, ?_, ?_⟩, hfds'⟩
    · intro id' hid'
      rw [hreusable, hchoose] at hid'
      rw [hmem, hchoose]
      rintro (rfl | hpool)
      · exact hnodup.2.2 id hid' id (by simp) rfl
      · exact h.ids.disjoint id' (by simp [hids, hid']) hpool
    · rw [hreusable, hchoose]
      exact hnodup.1
    · intro id'
      have hrange := h.ids.ids id'
      simp only [hids, List.mem_append, List.mem_singleton, List.length_append,
        List.length_singleton] at hrange
      have hpool : ((id = id' ∨ id' ∈ m.sessionPool) ∨ id' ∈ ids) ↔
          (id' ∈ m.sessionPool ∨ id' ∈ ids ∨ id' = id) := by
        tauto
      simp only [hmem, hsize, hreusable, hchoose]
      rw [hpool, hrange]
      omega

/-- Deleting a session makes its id reusable. -/
theorem SessionManager.Valid.eraseSession {id : SessID} (hid : id ∈ m.sessionPool) :
    (m.eraseSession id).Valid := by
  have hpos : 0 < m.sessionPool.size := by
    have hrange := (h.ids.ids id).mp (.inl hid)
    have hlength : 0 < m.sessionPool.keys.length :=
      List.length_pos_of_mem (Std.TreeMap.mem_keys.mpr hid)
    rwa [Std.TreeMap.length_keys] at hlength
  have hsize : (m.eraseSession id).sessionPool.size = m.sessionPool.size - 1 := by
    rw [SessionManager.eraseSession, Std.TreeMap.size_erase,
      if_pos (Std.TreeMap.contains_iff_mem.mpr hid)]
  have hmem : ∀ id', id' ∈ (m.eraseSession id).sessionPool ↔ id ≠ id' ∧ id' ∈ m.sessionPool := by
    intro id'
    rw [SessionManager.eraseSession, Std.TreeMap.mem_erase, ne_eq, compare_eq]
  have hreusable : (m.eraseSession id).reusableIds = m.reusableIds ++ [id] := rfl
  have hnum := h.ids.numSess
  refine ⟨⟨?_, ?_, ?_, ?_⟩, h.fds.erase id⟩
  · rw [hsize]
    simp only [SessionManager.eraseSession, BitVec.toNat_sub]
    have hle := h.fds.size_le
    simp
    omega
  · intro id' hid'
    rw [hmem]
    rintro ⟨hne, hpool⟩
    rw [hreusable, List.mem_append, List.mem_singleton] at hid'
    rcases hid' with hid' | rfl
    · exact h.ids.disjoint id' hid' hpool
    · exact hne rfl
  · rw [hreusable, List.nodup_append]
    refine ⟨h.ids.nodup, List.nodup_singleton id, ?_⟩
    rintro a ha b hb rfl
    rw [List.mem_singleton.mp hb] at ha
    exact h.ids.disjoint id ha hid
  · intro id'
    rw [hmem, hsize, hreusable, List.mem_append, List.mem_singleton, List.length_append,
      List.length_singleton]
    have hrange := h.ids.ids id'
    by_cases heq : id = id'
    · subst heq
      have hin := (h.ids.ids id).mp (.inl hid)
      simp only [ne_eq, not_true_eq_false, false_and, or_true, true_iff]
      omega
    · have hne : id' ≠ id := fun h => heq h.symm
      simp only [ne_eq, heq, not_false_eq_true, true_and, hne, or_false]
      rw [hrange]
      omega

theorem SessionManager.Valid.getCurrentIds : m.getCurrentIds = .ok m.sessionPool.keys := by
  unfold SessionManager.getCurrentIds
  rw [if_neg]
  rw [Bool.not_eq_true, List.any_eq_false]
  intro id hid hreusable
  obtain ⟨reusableId, hmem, heq⟩ := List.any_eq_true.mp hreusable
  obtain rfl := of_decide_eq_true heq
  exact h.ids.disjoint reusableId hmem (Std.TreeMap.mem_keys.mp hid)

theorem SessionManager.Valid.isCurrentId (id : SessID) :
    m.isCurrentId id = .ok (decide (id ∈ m.sessionPool)) := by
  have hany : (m.sessionPool.keys.any fun currId => currId = id) = decide (id ∈ m.sessionPool) := by
    rw [Bool.eq_iff_iff, List.any_eq_true, decide_eq_true_iff]
    constructor
    · rintro ⟨currId, hmem, heq⟩
      obtain rfl := of_decide_eq_true heq
      exact Std.TreeMap.mem_keys.mp hmem
    · intro hmem
      exact ⟨id, Std.TreeMap.mem_keys.mpr hmem, decide_eq_true rfl⟩
  rw [SessionManager.isCurrentId, h.getCurrentIds]
  exact congrArg Except.ok hany

end

/-! ## Deleting sessions -/

def SessionManager.idsCount (m : SessionManager) : Nat := m.numSess.toNat + m.reusableIds.length

theorem SessionManager.Valid.deleteSession {srv : KServer} (h : srv.sessionManager.Valid)
    (id : SessID) :
    srv.deleteSession id = .ok
      (if id ∈ srv.sessionManager.sessionPool then
        ⟨srv.sessionManager.eraseSession id, srv.subscribers.unsubscribe id⟩
      else srv) := by
  unfold KServer.deleteSession
  rw [h.isCurrentId]
  by_cases hid : id ∈ srv.sessionManager.sessionPool
  · simp [hid]
  · simp [hid]

theorem SessionManager.Valid.eraseSession_idsCount {m : SessionManager} (h : m.Valid) {id : SessID}
    (hid : id ∈ m.sessionPool) : (m.eraseSession id).idsCount = m.idsCount := by
  have hnum := (h.eraseSession hid).ids.numSess
  have hsize : (m.eraseSession id).sessionPool.size = m.sessionPool.size - 1 := by
    rw [SessionManager.eraseSession, Std.TreeMap.size_erase,
      if_pos (Std.TreeMap.contains_iff_mem.mpr hid)]
  have hpos : 0 < m.sessionPool.size := by
    rw [← Std.TreeMap.length_keys]
    exact List.length_pos_of_mem (Std.TreeMap.mem_keys.mpr hid)
  have hlength : (m.eraseSession id).reusableIds.length = m.reusableIds.length + 1 := by
    simp [SessionManager.eraseSession]
  have hnum' := h.ids.numSess
  unfold SessionManager.idsCount
  omega

/-- What is kept by the deletion of a session that is alive is kept by `delete_session`. -/
theorem KServer.deleteSession_keeps {P : KServer → Prop}
    (herase : ∀ {srv : KServer} {id : SessID}, srv.sessionManager.Valid →
      id ∈ srv.sessionManager.sessionPool → P srv →
      P ⟨srv.sessionManager.eraseSession id, srv.subscribers.unsubscribe id⟩)
    {srv srv' : KServer} {id : SessID} (h : srv.sessionManager.Valid) (hP : P srv)
    (hdelete : srv.deleteSession id = .ok srv') :
    srv'.sessionManager.Valid ∧ P srv' := by
  rw [h.deleteSession] at hdelete
  obtain rfl := Except.ok.inj hdelete
  split
  case isTrue hid => exact ⟨h.eraseSession hid, herase h hid hP⟩
  case isFalse => exact ⟨h, hP⟩

theorem KServer.deleteEach_keeps {P : KServer → Prop}
    (herase : ∀ {srv : KServer} {id : SessID}, srv.sessionManager.Valid →
      id ∈ srv.sessionManager.sessionPool → P srv →
      P ⟨srv.sessionManager.eraseSession id, srv.subscribers.unsubscribe id⟩)
    {ids : List SessID} {srv srv' : KServer} (h : srv.sessionManager.Valid) (hP : P srv)
    (hdelete : srv.deleteEach ids = .ok srv') :
    srv'.sessionManager.Valid ∧ P srv' := by
  induction ids generalizing srv with
  | nil =>
      obtain rfl := Except.ok.inj hdelete
      exact ⟨h, hP⟩
  | cons id ids ih =>
      obtain ⟨srv₁, hsrv₁⟩ : ∃ srv₁, srv.deleteSession id = .ok srv₁ := ⟨_, h.deleteSession id⟩
      rw [KServer.deleteEach, hsrv₁] at hdelete
      have hkeeps := KServer.deleteSession_keeps herase h hP hsrv₁
      exact ih hkeeps.1 hkeeps.2 hdelete

theorem SessionManager.Valid.deleteEach {srv : KServer} (h : srv.sessionManager.Valid)
    (ids : List SessID) :
    ∃ srv', srv.deleteEach ids = .ok srv' ∧ srv'.sessionManager.Valid ∧
      ∀ id, id ∈ srv'.sessionManager.sessionPool ↔
        id ∉ ids ∧ id ∈ srv.sessionManager.sessionPool := by
  induction ids generalizing srv with
  | nil => exact ⟨srv, rfl, h, by simp⟩
  | cons id ids ih =>
      have hdelete := h.deleteSession id
      by_cases hid : id ∈ srv.sessionManager.sessionPool
      · rw [if_pos hid] at hdelete
        have herased : (KServer.mk (srv.sessionManager.eraseSession id)
            (srv.subscribers.unsubscribe id)).sessionManager.Valid := h.eraseSession hid
        obtain ⟨srv', hsrv', hvalid, hmem⟩ := ih herased
        refine ⟨srv', by rw [KServer.deleteEach, hdelete]; exact hsrv', hvalid, ?_⟩
        intro id'
        rw [hmem, SessionManager.eraseSession, Std.TreeMap.mem_erase, ne_eq, compare_eq,
          List.mem_cons, not_or, eq_comm (a := id)]
        tauto
      · rw [if_neg hid] at hdelete
        obtain ⟨srv', hsrv', hvalid, hmem⟩ := ih h
        refine ⟨srv', by rw [KServer.deleteEach, hdelete]; exact hsrv', hvalid, ?_⟩
        intro id'
        rw [hmem, List.mem_cons, not_or]
        constructor
        · rintro ⟨hids, hpool⟩
          exact ⟨⟨fun heq => hid (heq ▸ hpool), hids⟩, hpool⟩
        · rintro ⟨⟨-, hids⟩, hpool⟩
          exact ⟨hids, hpool⟩

theorem SessionManager.Valid.deleteAll {srv : KServer} (h : srv.sessionManager.Valid) :
    ∃ srv', srv.deleteAll = .ok srv' ∧
      srv.deleteEach srv.sessionManager.sessionPool.keys = .ok srv' := by
  obtain ⟨srv', hdelete, hvalid, hmem⟩ := h.deleteEach srv.sessionManager.sessionPool.keys
  have hempty : srv'.sessionManager.sessionPool.keys = [] := by
    rw [List.eq_nil_iff_forall_not_mem]
    intro id hid
    have hpool := (hmem id).mp (Std.TreeMap.mem_keys.mp hid)
    exact hpool.1 (Std.TreeMap.mem_keys.mpr hpool.2)
  have hnone : srv'.sessionManager.numSess = 0 := by
    apply BitVec.eq_of_toNat_eq
    rw [hvalid.ids.numSess, ← Std.TreeMap.length_keys, hempty]
    rfl
  refine ⟨srv', ?_, hdelete⟩
  rw [KServer.deleteAll, if_neg (not_not.mpr h.ids.numSess), h.getCurrentIds]
  simp only [hdelete, hnone, if_true]

/-! ## Runs -/

/-- A step keeps the relation between the pool, the reusable ids and the counter. -/
theorem Step.valid {srv srv' : KServer} {event : Event} (h : srv.sessionManager.Valid)
    (hstep : Step srv event srv') : srv'.sessionManager.Valid := by
  cases event with
  | created id kind commFd =>
      obtain ⟨haccepts, hcreate⟩ := hstep
      obtain rfl : (srv.createSession kind commFd).2 = srv' := congrArg Prod.snd hcreate
      exact h.createSession kind haccepts
  | deleted id =>
      exact (KServer.deleteSession_keeps (P := fun _ => True) (fun _ _ _ => trivial) h trivial hstep).1
  | deletedAll =>
      obtain ⟨srv₁, hall, heach⟩ := h.deleteAll
      obtain rfl := Except.ok.inj (hall.symm.trans hstep)
      exact (KServer.deleteEach_keeps (P := fun _ => True) (fun _ _ _ => trivial) h trivial heach).1
  | subscribed channel sid =>
      obtain ⟨-, rfl⟩ := hstep
      exact h

theorem SessionManager.empty_valid : SessionManager.empty.Valid := by
  refine ⟨⟨rfl, ?_, List.nodup_nil, ?_⟩, ?_, ?_⟩
  · simp [SessionManager.empty]
  · intro id
    simp [SessionManager.empty]
  · simp [SessionManager.empty]
  · simp [SessionManager.empty]

theorem Run.valid {past : List (KServer × Event)} {srv : KServer}
    (h : Foundation.Run Step KServer.empty past srv) : srv.sessionManager.Valid :=
  h.invariant (P := fun srv => srv.sessionManager.Valid) SessionManager.empty_valid Step.valid

/-- A step that takes a new id is the creation of a session when all ids are in use. -/
theorem Step.idsCount_le {srv srv' : KServer} {event : Event} (h : srv.sessionManager.Valid)
    (hstep : Step srv event srv') :
    srv'.sessionManager.idsCount ≤ srv.sessionManager.idsCount ∨
      srv'.sessionManager.idsCount = srv'.sessionManager.sessionPool.size := by
  have herase : ∀ {srv₁ : KServer} {id : SessID}, srv₁.sessionManager.Valid →
      id ∈ srv₁.sessionManager.sessionPool →
      srv₁.sessionManager.idsCount = srv.sessionManager.idsCount →
      (srv₁.sessionManager.eraseSession id).idsCount = srv.sessionManager.idsCount :=
    fun hvalid hid heq => (hvalid.eraseSession_idsCount hid).trans heq
  cases event with
  | created id kind commFd =>
      have hvalid' := hstep.valid h
      obtain ⟨haccepts, hcreate⟩ := hstep
      obtain rfl := congrArg Prod.snd hcreate
      rcases chooseId_cases srv.sessionManager with ⟨-, hchoose⟩ | ⟨ids, id, hids, hchoose⟩
      · right
        have hnil : (srv.createSession kind commFd).2.sessionManager.reusableIds = [] :=
          congrArg Prod.snd hchoose
        rw [SessionManager.idsCount, hnil, hvalid'.ids.numSess, List.length_nil, Nat.add_zero]
      · left
        have hreusable : (srv.createSession kind commFd).2.sessionManager.reusableIds = ids :=
          congrArg Prod.snd hchoose
        have hsize : (srv.createSession kind commFd).2.sessionManager.sessionPool.size =
            srv.sessionManager.sessionPool.size + 1 := by
          have hnotMem := chooseId_notMem h
          simp only [KServer.createSession, SessionManager.createSession,
            Std.TreeMap.size_insertIfNew, if_neg hnotMem]
        rw [SessionManager.idsCount, SessionManager.idsCount, hreusable, hids, hvalid'.ids.numSess,
          h.ids.numSess, hsize, List.length_append, List.length_singleton]
        omega
  | deleted id =>
      exact .inl (Nat.le_of_eq (KServer.deleteSession_keeps herase h rfl hstep).2)
  | deletedAll =>
      obtain ⟨srv₁, hall, heach⟩ := h.deleteAll
      obtain rfl := Except.ok.inj (hall.symm.trans hstep)
      exact .inl (Nat.le_of_eq (KServer.deleteEach_keeps herase h rfl heach).2)
  | subscribed channel sid =>
      obtain ⟨-, rfl⟩ := hstep
      exact .inl (Nat.le_refl _)

theorem Run.idsCount_le {past : List (KServer × Event)} {srv : KServer}
    (h : Foundation.Run Step KServer.empty past srv) :
    ∃ srv₀ ∈ srv :: past.map Prod.fst,
      srv.sessionManager.idsCount ≤ srv₀.sessionManager.sessionPool.size := by
  apply h.history_invariant (I := fun srv => srv.sessionManager.Valid)
    (P := fun past srv => ∃ srv₀ ∈ srv :: past.map Prod.fst,
      srv.sessionManager.idsCount ≤ srv₀.sessionManager.sessionPool.size)
  · exact Run.valid
  · exact ⟨KServer.empty, by simp, Nat.le_refl _⟩
  · rintro past srv event srv' hvalid ⟨srv₀, hmem, hle⟩ hstep
    rcases hstep.idsCount_le hvalid with hkept | hfresh
    · exact ⟨srv₀, List.mem_cons_of_mem _ hmem, Nat.le_trans hkept hle⟩
    · exact ⟨srv', List.mem_cons_self, Nat.le_of_eq hfresh⟩

/-- The pool and the reusable ids share the ids below `k` in every run: no session takes the id
of another one, `k` has been the number of sessions, and no assertion fails. -/
theorem session_ids {past : List (KServer × Event)} {srv : KServer}
    (h : Foundation.Run Step KServer.empty past srv) :
    (∀ id ∈ srv.sessionManager.reusableIds, id ∉ srv.sessionManager.sessionPool) ∧
      srv.sessionManager.reusableIds.Nodup ∧
      (∀ id : SessID,
        id ∈ srv.sessionManager.sessionPool ∨ id ∈ srv.sessionManager.reusableIds ↔
          0 ≤ id ∧ id < srv.sessionManager.idsCount) ∧
      srv.sessionManager.numSess.toNat = srv.sessionManager.sessionPool.size ∧
      (∀ (kind : SockType) (commFd : Nat),
        (srv.sessionManager.createSession kind commFd).1 ∉ srv.sessionManager.sessionPool) ∧
      (∃ srv₀ ∈ srv :: past.map Prod.fst,
        srv.sessionManager.idsCount ≤ srv₀.sessionManager.sessionPool.size) ∧
      srv.sessionManager.getCurrentIds = .ok srv.sessionManager.sessionPool.keys ∧
      (∀ id, ∃ srv', srv.deleteSession id = .ok srv') ∧
      ∃ srv', srv.deleteAll = .ok srv' := by
  have hvalid := Run.valid h
  refine ⟨hvalid.ids.disjoint, hvalid.ids.nodup, ?_, hvalid.ids.numSess,
    fun _ _ => chooseId_notMem hvalid, Run.idsCount_le h, hvalid.getCurrentIds,
    fun id => ⟨_, hvalid.deleteSession id⟩, ?_⟩
  · intro id
    rw [hvalid.ids.ids id, SessionManager.idsCount, hvalid.ids.numSess]
    rfl
  · obtain ⟨srv', hall, -⟩ := hvalid.deleteAll
    exact ⟨srv', hall⟩

/-- A session that takes the id of a deleted one. -/
theorem session_ids_reused :
    let srv₁ := (KServer.empty.createSession .tcp 7).2
    let srv₂ := (srv₁.createSession .websock 8).2
    let srv₃ : KServer := ⟨srv₂.sessionManager.eraseSession 0, srv₂.subscribers.unsubscribe 0⟩
    srv₃.sessionManager.createSession .unix 7 = (0, (srv₃.sessionManager.createSession .unix 7).2) ∧
      (srv₃.sessionManager.createSession .unix 7).1 ∉ srv₃.sessionManager.sessionPool := by
  intro srv₁ srv₂ srv₃
  have hcreate₁ : Step KServer.empty (.created 0 .tcp 7) srv₁ :=
    ⟨⟨by decide, by simp [KServer.empty, SessionManager.empty]⟩, rfl⟩
  have hcreate₂ : Step srv₁ (.created 1 .websock 8) srv₂ := by
    refine ⟨⟨by decide, ?_⟩, rfl⟩
    intro id s hs
    have hget : srv₁.sessionManager.sessionPool[id]? =
        if (0 : Int) = id then some ⟨.tcp, 7⟩ else none := by
      simp [srv₁, KServer.createSession, SessionManager.createSession, SessionManager.chooseId,
        KServer.empty, SessionManager.empty, Std.TreeMap.getElem?_insertIfNew]
    rw [hget] at hs
    split at hs
    · obtain rfl := Option.some.inj hs
      decide
    · cases hs
  have hdelete : Step srv₂ (.deleted 0) srv₃ := by
    rfl
  have hrun := ((Foundation.Run.start.next hcreate₁).next hcreate₂).next hdelete
  exact ⟨rfl, (session_ids hrun).2.2.2.2.1 .unix 7⟩

end KoheronServer.Server
