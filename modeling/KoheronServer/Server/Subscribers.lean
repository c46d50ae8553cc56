import KoheronServer.Foundation.SwapRemove

/-!
# Subscribers of the channels

`Subscribers<channels_count>`: for every channel the vector of the sessions that
have subscribed to it.
-/

namespace KoheronServer.Server

open Foundation

/-- An `int` that identifies a session. -/
abbrev SessID := Int

/-- `PubSub::channels_count`. -/
def channelsCount : Nat := 3

def serverChannel : Fin channelsCount := ⟨0, by decide⟩

def syslogChannel : Fin channelsCount := ⟨1, by decide⟩

def devicesChannel : Fin channelsCount := ⟨2, by decide⟩

/-- `Subscribers<channels_count>`. -/
def Subscribers (channelsCount : Nat) : Type := Fin channelsCount → List SessID

namespace Subscribers

variable {channelsCount : Nat}

def empty : Subscribers channelsCount := fun _ => []

def get (subs : Subscribers channelsCount) (channel : Fin channelsCount) : List SessID :=
    subs channel

def set (subs : Subscribers channelsCount) (channel : Fin channelsCount) (s : List SessID) :
    Subscribers channelsCount :=
  fun c => if c = channel then s else subs.get c

def subscribe (subs : Subscribers channelsCount) (channel : BitVec 16) (sid : SessID) :
    Int × Subscribers channelsCount :=
  if h : channel.toNat < channelsCount then
    let s := subs.get ⟨channel.toNat, h⟩
    if sid ∈ s then (0, subs) else (0, subs.set ⟨channel.toNat, h⟩ (s ++ [sid]))
  else (-1, subs)

def unsubscribe (subs : Subscribers channelsCount) (sid : SessID) : Subscribers channelsCount :=
  fun channel => swapRemove sid (subs channel)

@[simp] theorem empty_get (channel : Fin channelsCount) : empty.get channel = [] := rfl

theorem get_subscribe (subs : Subscribers channelsCount) (channel : BitVec 16) (sid : SessID)
    (c : Fin channelsCount) :
    (subs.subscribe channel sid).2.get c =
      if channel.toNat = c ∧ sid ∉ subs.get c then subs.get c ++ [sid] else subs.get c := by
  by_cases h : channel.toNat < channelsCount
  · by_cases hc : channel.toNat = c
    · obtain rfl : c = ⟨channel.toNat, h⟩ := Fin.ext hc.symm
      by_cases hsid : sid ∈ subs.get ⟨channel.toNat, h⟩
      · simp [subscribe, h, hsid]
      · simp only [subscribe, h, dif_pos, hsid, not_false_eq_true, and_self, if_true, if_false]
        exact if_pos rfl
    · rw [if_neg fun hand => hc hand.1]
      have hne : c ≠ ⟨channel.toNat, h⟩ := fun heq => hc (congrArg Fin.val heq).symm
      by_cases hsid : sid ∈ subs.get ⟨channel.toNat, h⟩
      · simp [subscribe, h, hsid]
      · simp only [subscribe, h, dif_pos, hsid, if_false]
        exact if_neg hne
  · have hc : channel.toNat ≠ c := fun heq => h (heq ▸ c.isLt)
    simp [subscribe, h, hc]

/-- A vector gains the session that subscribes to its channel, and no other. -/
theorem mem_subscribe (subs : Subscribers channelsCount) (channel : BitVec 16) (sid id : SessID)
    (c : Fin channelsCount) :
    id ∈ (subs.subscribe channel sid).2.get c ↔
      id ∈ subs.get c ∨ channel.toNat = c ∧ id = sid := by
  rw [get_subscribe]
  by_cases hc : channel.toNat = c
  · by_cases hsid : sid ∈ subs.get c
    · simp only [hsid, not_true_eq_false, and_false, if_false]
      constructor
      · exact .inl
      · rintro (hid | ⟨-, rfl⟩)
        · exact hid
        · exact hsid
    · simp [hc, hsid]
  · simp [hc]

theorem nodup_subscribe {subs : Subscribers channelsCount} (hnodup : ∀ c, (subs.get c).Nodup)
    (channel : BitVec 16) (sid : SessID) (c : Fin channelsCount) :
    ((subs.subscribe channel sid).2.get c).Nodup := by
  rw [get_subscribe]
  split
  case isTrue h =>
    rw [List.nodup_append]
    refine ⟨hnodup c, List.nodup_singleton sid, ?_⟩
    rintro a ha b hb rfl
    rw [List.mem_singleton.mp hb] at ha
    exact h.2 ha
  case isFalse => exact hnodup c

theorem mem_unsubscribe {subs : Subscribers channelsCount} (hnodup : ∀ c, (subs.get c).Nodup)
    (sid id : SessID) (c : Fin channelsCount) :
    id ∈ (subs.unsubscribe sid).get c ↔ id ≠ sid ∧ id ∈ subs.get c :=
  mem_swapRemove (hnodup c)

theorem nodup_unsubscribe {subs : Subscribers channelsCount} (hnodup : ∀ c, (subs.get c).Nodup)
    (sid : SessID) (c : Fin channelsCount) : ((subs.unsubscribe sid).get c).Nodup :=
  nodup_swapRemove sid (hnodup c)

end Subscribers

end KoheronServer.Server
