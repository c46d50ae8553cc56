import KoheronServer.Server.SessionManager
import KoheronServer.Session.WebsockReceive

/-!
# The channel of a subscription

The channel of a `SUBSCRIBE_PUBSUB` is sent as a `uint32_t`, passed on as a
`uint16_t` and compared with the number of channels. The comparison sees the lower
half of what the client has sent.
-/

namespace KoheronServer.Server

open Foundation KoheronServer.Session

section

variable {σ : Type} (sess : SessionAbstract σ)

/-- `KServer::execute_op<SUBSCRIBE_PUBSUB>` of the session `sid`: what it returns, the server and
the session behind it. A `deserialize<uint32_t>` returns one `uint32_t`. -/
def executeSubscribePubsub (slots : Nat → Slot) (sid : SessID) (srv : KServer) (s : σ) :
    Except Abort ((Int × KServer) × σ) :=
  match subscribePubsub sess slots s with
  | .error e => .error e
  | .ok (.called [.scalar .uint32 channel], s) => .ok (srv.subscribe channel sid, s)
  | .ok (_, s) => .ok ((-1, srv), s)

/-- The next argument of the session is a channel, and `s'` is the session behind it. -/
def SendsChannel (slot : Slot) (s : σ) (channel : BitVec 32) (s' : σ) : Prop :=
  ∃ ret, ¬ret < 0 ∧
    sess.receive (.scalar [.uint32]) slot s = .ok ⟨ret, [.scalar .uint32 channel], s'⟩

end

/-! ## The transports -/

/-- The four bytes of a channel at the front of a stream. -/
theorem tcp_sendsChannel (slot : Slot) {s : ByteStream} (hs : s.Clean) {channel : BitVec 32}
    {rest : Bytes} (hbytes : s.bytes = Wire.appendUint32 channel ++ rest) :
    ∃ s', SendsChannel Tcp.session slot s channel s' ∧ s'.bytes = rest ∧ s'.Clean := by
  obtain ⟨s', hresult, hrest, hclean⟩ := (Tcp.deserializePack_clean [.uint32] slot hs).ok
  have htake : s.bytes.take (Wire.requiredBufferSize [.uint32]) = Wire.appendUint32 channel := by
    rw [hbytes]
    exact List.take_left' rfl
  have hvalue : Wire.deserialize 0 [.uint32] (slot.raw.store 0 (Wire.appendUint32 channel)) =
      [⟨.uint32, channel⟩] := by
    apply Wire.deserialize_of_load [⟨.uint32, channel⟩]
    exact Memory.load_store_self slot.raw 0 (Wire.appendUint32 channel)
  have hlen : Wire.requiredBufferSize [.uint32] ≤ s.bytes.length := by
    rw [hbytes, List.length_append]
    exact Nat.le_add_right 4 rest.length
  rw [htake, hvalue, Tcp.rcvRet, if_pos hlen] at hresult
  refine ⟨s', ⟨_, by decide, hresult⟩, ?_, hclean⟩
  rw [hrest, hbytes]
  exact List.drop_left' rfl

/-- The four bytes of a channel in the payload of a WebSocket command. -/
theorem websock_sendsChannel (slot : Slot) {payload : Buffer} {channel : BitVec 32} {rest : Bytes}
    (h : Websock.Holds payload (Wire.appendUint32 channel ++ rest)) :
    SendsChannel Websock.session slot payload channel
      { payload with position := payload.position + 4 } := by
  have hlen : 4 ≤ (Wire.appendUint32 channel ++ rest).length := by
    simp [Wire.appendUint32]
  have hvalue : Wire.deserialize 0 [.uint32] payload.begin = [⟨.uint32, channel⟩] := by
    apply Wire.deserialize_of_load [⟨.uint32, channel⟩]
    exact (h.take hlen).trans (List.take_left' rfl)
  refine ⟨0, by decide, ?_⟩
  simp only [Websock.session, Websock.deserializePack, List.length_singleton, Nat.one_ne_zero,
    if_false, Buffer.deserialize, hvalue]
  rw [Websock.reading_ok h (show Wire.requiredBufferSize [.uint32] ≤ _ from hlen)]
  rfl

/-! ## The law of a subscription -/

/-- What a subscription to `channel` ought to do: a channel that there is gains the session and
no other one is touched, and any other number is refused. -/
structure SubscriptionLaw (srv : KServer) (channel : BitVec 32) (sid : SessID)
    (result : Int × KServer) : Prop where
  valid : channel.toNat < channelsCount → result.1 = 0 ∧
    ∀ (c : Fin channelsCount) (id : SessID), id ∈ result.2.subscribers.get c ↔
      id ∈ srv.subscribers.get c ∨ channel.toNat = c ∧ id = sid
  invalid : channelsCount ≤ channel.toNat → result.1 = -1 ∧ result.2 = srv

/-- The channel that `PubSub::subscribe` is called with. -/
theorem setWidth_channel (channel : BitVec 32) :
    (channel.setWidth 16).toNat = channel.toNat % 65536 :=
  BitVec.toNat_setWidth 16 channel

theorem KServer.subscribe_valid (srv : KServer) {channel : BitVec 32} (sid : SessID)
    (h : channel.toNat % 65536 < channelsCount) : (srv.subscribe channel sid).1 = 0 := by
  have hlt : (channel.setWidth 16).toNat < channelsCount := by
    rwa [setWidth_channel]
  simp only [KServer.subscribe, Subscribers.subscribe, dif_pos hlt]
  split
  · rfl
  · rfl

theorem KServer.subscribe_invalid (srv : KServer) {channel : BitVec 32} (sid : SessID)
    (h : channelsCount ≤ channel.toNat % 65536) : srv.subscribe channel sid = (-1, srv) := by
  have hge : ¬(channel.setWidth 16).toNat < channelsCount := by
    rw [setWidth_channel]
    omega
  simp only [KServer.subscribe, Subscribers.subscribe, dif_neg hge]

/-- In every state the law holds of the channels that there are and of the numbers whose lower
half is no channel either. -/
theorem KServer.subscriptionLaw_iff (srv : KServer) (channel : BitVec 32) (sid : SessID) :
    SubscriptionLaw srv channel sid (srv.subscribe channel sid) ↔
      channel.toNat < channelsCount ∨ channelsCount ≤ channel.toNat % 65536 := by
  constructor
  · intro h
    by_contra hwraps
    rw [not_or, Nat.not_lt, Nat.not_le] at hwraps
    have hret := (h.invalid hwraps.1).1
    rw [KServer.subscribe_valid srv sid hwraps.2] at hret
    exact absurd hret (by decide)
  · rintro (hvalid | hinvalid)
    · have hmod : channel.toNat % 65536 = channel.toNat := by
        unfold channelsCount at hvalid
        omega
      refine ⟨fun _ => ⟨KServer.subscribe_valid srv sid (by omega), ?_⟩, fun hge => ?_⟩
      · intro c id
        rw [KServer.subscribe, Subscribers.mem_subscribe, setWidth_channel, hmod]
      · omega
    · have hge : channelsCount ≤ channel.toNat := Nat.le_trans hinvalid (Nat.mod_le _ _)
      refine ⟨fun hlt => ?_, fun _ => ?_⟩
      · omega
      · rw [KServer.subscribe_invalid srv sid hinvalid]
        exact ⟨rfl, rfl⟩

section

variable {σ : Type} (sess : SessionAbstract σ) (slots : Nat → Slot) (sid : SessID) (srv : KServer)

theorem executeSubscribePubsub_eq {s s' : σ} {channel : BitVec 32}
    (h : SendsChannel sess (slots 0) s channel s') :
    executeSubscribePubsub sess slots sid srv s = .ok (srv.subscribe channel sid, s') := by
  obtain ⟨ret, hret, hreceive⟩ := h
  simp only [executeSubscribePubsub, subscribePubsub, hreceive, if_neg hret]

/-- Over any transport the law holds of a request exactly for these channels. -/
theorem executeSubscribePubsub_law {s s' : σ} {channel : BitVec 32}
    (h : SendsChannel sess (slots 0) s channel s') :
    ∃ result, executeSubscribePubsub sess slots sid srv s = .ok (result, s') ∧
      (SubscriptionLaw srv channel sid result ↔
        channel.toNat < channelsCount ∨ channelsCount ≤ channel.toNat % 65536) :=
  ⟨srv.subscribe channel sid, executeSubscribePubsub_eq sess slots sid srv h,
    srv.subscriptionLaw_iff channel sid⟩

end

def oneSession : KServer := (KServer.empty.createSession .tcp 7).2

def channelStream (channel : BitVec 32) : ByteStream := .ofBytes (Wire.appendUint32 channel)

def zeroSlots : Nat → Slot := fun _ => ⟨fun _ => 0, []⟩

theorem channelStream_sendsChannel (channel : BitVec 32) :
    ∃ s', SendsChannel Tcp.session (zeroSlots 0) (channelStream channel) channel s' := by
  obtain ⟨s', hsends, -, -⟩ := tcp_sendsChannel (zeroSlots 0)
    (ByteStream.ofBytes_clean (Wire.appendUint32 channel))
    ((ByteStream.ofBytes_bytes _).trans (List.append_nil _).symm)
  exact ⟨s', hsends⟩

/-- A number above the channels whose lower half is above them, too. -/
theorem executeSubscribePubsub_law_refused :
    ∃ s' result,
      executeSubscribePubsub Tcp.session zeroSlots 0 oneSession (channelStream 0x10003) =
          .ok (result, s') ∧
        SubscriptionLaw oneSession 0x10003 0 result := by
  obtain ⟨s', hsends⟩ := channelStream_sendsChannel 0x10003
  obtain ⟨result, hresult, hlaw⟩ :=
    executeSubscribePubsub_law Tcp.session zeroSlots 0 oneSession hsends
  exact ⟨s', result, hresult, hlaw.mpr (.inr (by decide))⟩

/-- The number 65536 is no channel, and it subscribes to channel 0. -/
theorem executeSubscribePubsub_wraps :
    ∃ s' result,
      executeSubscribePubsub Tcp.session zeroSlots 0 oneSession (channelStream 65536) =
          .ok (result, s') ∧
        result.1 = 0 ∧ result.2.subscribers.get serverChannel = [0] ∧
        ¬SubscriptionLaw oneSession 65536 0 result := by
  obtain ⟨s', hsends⟩ := channelStream_sendsChannel 65536
  refine ⟨s', _, executeSubscribePubsub_eq Tcp.session zeroSlots 0 oneSession hsends, rfl, rfl, ?_⟩
  intro hlaw
  exact absurd (hlaw.invalid (by decide)).1 (by decide)

end KoheronServer.Server
