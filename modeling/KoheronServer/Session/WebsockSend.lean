import KoheronServer.Foundation.Framing
import KoheronServer.Foundation.Runs
import KoheronServer.Session.Send
import KoheronServer.Websocket.SendAccounts
import KoheronServer.Websocket.SendBuffer

/-!
# The outgoing stream of a WebSocket session

`Session<WEBSOCK>::write` is `WebSocket::send`, so every message goes into a frame of its
own, and a connection on which a write has failed is not written to again. The client is
given by a reader of the frames that a server sends.
-/

namespace KoheronServer.Session.Websock

open Foundation Wire Websocket

/-! ## The client -/

def extendedWidth (second : Byte) : Nat :=
  let streamSize := (second &&& 0x7F).toNat
  if streamSize ≤ 125 then 0 else if streamSize = 126 then 2 else 8

/-- The first frame of a stream: final, binary and not masked. -/
def readServerFrame : Bytes → Option (Bytes × Bytes)
  | first :: second :: rest =>
      let extended := rest.take (extendedWidth second)
      let data := rest.drop (extendedWidth second)
      if first = 0x82 ∧ second &&& 0x80 = 0 then
        match statedLength second extended with
        | none => none
        | some n => if n ≤ data.length then some (data.take n, data.drop n) else none
      else none
  | _ => none

theorem extended_length {second : Byte} {extended : Bytes} {n : Nat}
    (h : statedLength second extended = some n) : extended.length = extendedWidth second := by
  unfold statedLength at h
  unfold extendedWidth
  dsimp only at h ⊢
  split_ifs at h ⊢
  · assumption
  · assumption
  · assumption

theorem readServerFrame_cut {second : Byte} {extended data q : Bytes} (hmask : second &&& 0x80 = 0)
    (hstated : statedLength second extended = some data.length) (hq : q <+: extended ++ data)
    (hne : q ≠ extended ++ data) : readServerFrame (0x82 :: second :: q) = none := by
  have hwidth := extended_length hstated
  rw [readServerFrame, if_pos ⟨rfl, hmask⟩]
  by_cases hshort : q.length < extended.length
  · -- The length is cut.
    have htake : q.take (extendedWidth second) = q := List.take_of_length_le (by omega)
    cases hlength : statedLength second (q.take (extendedWidth second)) with
    | none => rfl
    | some n =>
        have hwidth' := extended_length hlength
        rw [htake] at hwidth'
        omega
  · -- The length is there, and the message is cut.
    obtain ⟨d, rfl⟩ := List.prefix_of_prefix_length_le (List.prefix_append extended data) hq
      (by omega)
    have hd : d <+: data := (List.prefix_append_right_inj extended).mp hq
    have hlt : d.length < data.length := by
      refine Nat.lt_of_le_of_ne hd.length_le fun heq => hne ?_
      rw [hd.eq_of_length heq]
    rw [List.take_left' hwidth, List.drop_left' hwidth, hstated]
    exact if_neg (by omega)

/-- A client finds the message in its frame. -/
theorem serverFraming :
    Framing (fun data : Bytes => data.length < 2 ^ 63) sendFrame readServerFrame where
  whole data hdata rest := by
    obtain ⟨second, extended, hheader, hmask, hstated, -⟩ :=
      setSendHeader_stated hdata binaryFormat
    have hwidth := extended_length hstated
    rw [sendFrame, hheader]
    simp only [List.cons_append, readServerFrame, List.append_assoc]
    rw [List.take_left' hwidth, List.drop_left' hwidth, hstated, if_pos ⟨rfl, hmask⟩]
    simp
  cut data hdata p hp hne := by
    obtain ⟨second, extended, hheader, hmask, hstated, -⟩ :=
      setSendHeader_stated hdata binaryFormat
    rw [sendFrame, hheader, List.cons_append, List.cons_append] at hp hne
    rcases p with _ | ⟨first, _ | ⟨second', q⟩⟩
    · rfl
    · rfl
    · obtain ⟨hfirst, hrest⟩ := List.cons_prefix_cons.mp hp
      obtain ⟨hsecond, hq⟩ := List.cons_prefix_cons.mp hrest
      subst hfirst hsecond
      exact readServerFrame_cut hmask hstated hq fun h => hne (by rw [h])
  nonempty data _ := by
    have hpos := sendMaskOffset_pos data.length
    have hlength := sendFrame_length data
    intro hnil
    rw [hnil, List.length_nil] at hlength
    omega

/-! ## The session -/

/-- What a session sends with, with the bytes that the connection has taken behind the handshake
and what `send` has returned for each message. -/
structure SendingState where
  sender : Sender
  connectionClosed : Bool
  stream : Bytes
  sent : List (Bytes × Int)

def SendingState.start (connectionClosed : Bool) : SendingState :=
  ⟨.start, connectionClosed, [], []⟩

/-- `send`, with the calls of `write` for the message. -/
def SendingState.send (s : SendingState) (call : Call) (calls : Calls) :
    Option (Int × SendingState) :=
  match s.sender.send call fun message => (Websocket.send s.connectionClosed message calls).ret with
  | none => none
  | some (ret, sender) =>
      let sent := Websocket.send s.connectionClosed sender.sendBuffer calls
      some (ret,
        { sender := sender
          connectionClosed := sent.connectionClosed
          stream := s.stream ++ sent.taken
          sent := s.sent ++ [(sender.sendBuffer, ret)] })

inductive SendEvent where
  /-- An operation of the session or another thread sends. -/
  | sends (call : Call) (calls : Calls)
  /-- `receive_cmd` finds the connection closed. -/
  | closes

def SendStep (s : SendingState) (event : SendEvent) (s' : SendingState) : Prop :=
  match event with
  | .sends call calls => ∃ ret, s.send call calls = some (ret, s')
  | .closes => s' = { s with connectionClosed := true }

/-- A call of `write` for some bytes does not return 0, and a size is an `unsigned int`. -/
def SendEvent.Regular : SendEvent → Prop
  | .sends call calls => calls.last ≠ .closed ∧ (Session.message call).length < 2 ^ 32
  | .closes => True

/-- The messages for which `send` has returned a positive value, in their order. -/
def SendingState.delivered (s : SendingState) : List Bytes :=
  (s.sent.filter fun x => 0 < x.2).map Prod.fst

/-- The stream is made of the frames of these messages. Behind them there is a part of another one
only when the connection is closed. -/
structure Delivered (s : SendingState) (cut : Bytes) : Prop where
  stream : s.stream = s.delivered.flatMap sendFrame ++ cut
  valid : ∀ data ∈ s.delivered, data.length < 2 ^ 63
  none : readServerFrame cut = none
  opened : s.connectionClosed = false → cut = []

theorem Delivered.start (connectionClosed : Bool) : Delivered (.start connectionClosed) [] where
  stream := rfl
  valid := List.forall_mem_nil _
  none := rfl
  opened _ := rfl

/-- What one call does to the stream: the frame of the message goes into it, a part of it does and
closes the connection, or nothing does. -/
theorem send_outcome (connectionClosed : Bool) {data : Bytes} {calls : Calls}
    (hcalls : calls.last ≠ .closed) (hdata : data.length < 2 ^ 32) :
    (connectionClosed = false ∧ 0 < (Websocket.send connectionClosed data calls).ret ∧
        (Websocket.send connectionClosed data calls).taken = sendFrame data ∧
        (Websocket.send connectionClosed data calls).connectionClosed = false) ∨
      (connectionClosed = false ∧ (Websocket.send connectionClosed data calls).ret ≤ 0 ∧
        (Websocket.send connectionClosed data calls).taken <+: sendFrame data ∧
        (Websocket.send connectionClosed data calls).taken ≠ sendFrame data ∧
        (Websocket.send connectionClosed data calls).connectionClosed = true) ∨
      ((Websocket.send connectionClosed data calls).ret ≤ 0 ∧
        (Websocket.send connectionClosed data calls).taken = [] ∧
        (Websocket.send connectionClosed data calls).connectionClosed = connectionClosed) := by
  have hmod : data.length % 2 ^ 32 = data.length := Nat.mod_eq_of_lt hdata
  have htake : data.take (data.length % 2 ^ 32) = data := by rw [hmod, List.take_length]
  rcases send_cases connectionClosed data calls with
    ⟨rfl, heq⟩ | ⟨rfl, hlarge, heq⟩ | ⟨rfl, hfits, heq⟩
  · rw [heq]
    exact .inr (.inr ⟨Int.le_refl 0, rfl, rfl⟩)
  · rw [heq]
    exact .inr (.inr ⟨by decide, rfl, rfl⟩)
  · obtain ⟨hpos, hmax⟩ := sendFrame_fits data hfits
    have hsent := sendRequest_eq hpos hmax calls
    rw [htake] at heq hsent
    rw [heq]
    cases hlast : calls.last with
    | all =>
        simp only [hlast] at hsent
        exact .inl ⟨rfl, hsent.1, hsent.2.1, hsent.2.2.1⟩
    | closed => exact absurd hlast hcalls
    | failed =>
        simp only [hlast] at hsent
        obtain ⟨hret, hlength, hclosed, -⟩ := hsent
        refine .inr (.inl ⟨rfl, by rw [hret]; decide, ?_, ?_, hclosed⟩)
        · have hordered := requestPieces_ordered (sendFrame data) calls
          rwa [requestPieces_flatten] at hordered
        · intro hwhole
          rw [hwhole] at hlength
          exact Nat.lt_irrefl _ hlength

/-- `send` sends the message of its call. -/
theorem SendingState.send_message {s s' : SendingState} {call : Call} {calls : Calls} {ret : Int}
    (h : s.send call calls = some (ret, s')) :
    ret = (Websocket.send s.connectionClosed (Session.message call) calls).ret ∧
      s'.connectionClosed =
        (Websocket.send s.connectionClosed (Session.message call) calls).connectionClosed ∧
      s'.stream = s.stream ++
        (Websocket.send s.connectionClosed (Session.message call) calls).taken ∧
      s'.sent = s.sent ++ [(Session.message call, ret)] := by
  rw [SendingState.send] at h
  split at h
  case h_1 => cases h
  case h_2 ret' sender hsend =>
    obtain ⟨hret, hs'⟩ := Prod.mk.inj (Option.some.inj h)
    subst hret hs'
    obtain ⟨dynSer, heq⟩ := s.sender.send_eq (Sender.send_fits hsend)
      fun message => (Websocket.send s.connectionClosed message calls).ret
    rw [heq] at hsend
    obtain ⟨hret, hsender⟩ := Prod.mk.inj (Option.some.inj hsend)
    subst hret hsender
    exact ⟨rfl, rfl, rfl, rfl⟩

theorem SendingState.delivered_append {s s' : SendingState} {data : Bytes} {ret : Int}
    (h : s'.sent = s.sent ++ [(data, ret)]) :
    s'.delivered = s.delivered ++ if 0 < ret then [data] else [] := by
  rw [delivered, delivered, h, List.filter_append, List.map_append]
  split_ifs with hret
  · simp [hret]
  · simp [hret]

theorem SendStep.delivered {s s' : SendingState} {event : SendEvent} (h : SendStep s event s')
    (hregular : event.Regular) (hs : ∃ cut, Delivered s cut) : ∃ cut, Delivered s' cut := by
  obtain ⟨cut, hs⟩ := hs
  cases event with
  | closes =>
      obtain rfl := h
      exact ⟨cut, hs.stream, hs.valid, hs.none, fun hopen => by cases hopen⟩
  | sends call calls =>
      obtain ⟨ret, hsend⟩ := h
      obtain ⟨hret, hclosed, hstream, hsent⟩ := SendingState.send_message hsend
      obtain ⟨hcalls, hlength⟩ := hregular
      have hdelivered := SendingState.delivered_append hsent
      rcases send_outcome s.connectionClosed hcalls hlength with
        ⟨hopen, hpos, htaken, hopen'⟩ | ⟨hopen, hnonpos, hpart, hne, hclosed'⟩ |
          ⟨hnonpos, htaken, hsame⟩
      · -- The frame is in the stream, which ended with a whole one.
        rw [← hret] at hpos
        obtain rfl := hs.opened hopen
        refine ⟨[], ?_, ?_, rfl, fun _ => rfl⟩
        · rw [hstream, htaken, hs.stream, hdelivered, if_pos hpos, List.flatMap_append]
          simp
        · rw [hdelivered, if_pos hpos]
          intro data hdata
          rcases List.mem_append.mp hdata with hold | hnew
          · exact hs.valid data hold
          · obtain rfl := List.mem_singleton.mp hnew
            omega
      · -- A part of it is.
        rw [← hret] at hnonpos
        obtain rfl := hs.opened hopen
        refine ⟨_, ?_, ?_, serverFraming.cut _ (show _ < _ by omega) _ hpart hne, ?_⟩
        · rw [hstream, hs.stream, hdelivered, if_neg (by omega), List.append_nil, List.append_nil]
        · rw [hdelivered, if_neg (by omega), List.append_nil]
          exact hs.valid
        · intro hopen'
          rw [hclosed, hclosed'] at hopen'
          cases hopen'
      · rw [← hret] at hnonpos
        refine ⟨cut, ?_, ?_, hs.none, ?_⟩
        · rw [hstream, htaken, List.append_nil, hs.stream, hdelivered, if_neg (by omega),
            List.append_nil]
        · rw [hdelivered, if_neg (by omega), List.append_nil]
          exact hs.valid
        · rw [hclosed, hsame]
          exact hs.opened

/-- Nothing is written on a closed connection, and it stays closed. -/
theorem SendStep.closed {s s' : SendingState} {event : SendEvent} (h : SendStep s event s')
    (hclosed : s.connectionClosed = true) : s'.stream = s.stream ∧ s'.connectionClosed = true := by
  cases event with
  | closes =>
      obtain rfl := h
      exact ⟨rfl, rfl⟩
  | sends call calls =>
      obtain ⟨ret, hsend⟩ := h
      obtain ⟨-, hconnection, hstream, -⟩ := SendingState.send_message hsend
      rcases send_cases s.connectionClosed (Session.message call) calls with
        ⟨-, heq⟩ | ⟨hopen, -⟩ | ⟨hopen, -⟩
      · rw [heq] at hconnection hstream
        exact ⟨hstream.trans (List.append_nil _), hconnection⟩
      · rw [hclosed] at hopen
        cases hopen
      · rw [hclosed] at hopen
        cases hopen

/-- Where the scalars fit in the pack, a call has a step. -/
theorem SendingState.send_step (s : SendingState) {call : Call}
    (hfit : RunsFit scalarPackLen call.args) (calls : Calls) :
    ∃ s', SendStep s (.sends call calls) s' ∧
      s'.sent = s.sent ++
        [(Session.message call,
          (Websocket.send s.connectionClosed (Session.message call) calls).ret)] ∧
      s'.connectionClosed =
        (Websocket.send s.connectionClosed (Session.message call) calls).connectionClosed := by
  obtain ⟨dynSer, heq⟩ := s.sender.send_eq hfit
    fun message => (Websocket.send s.connectionClosed message calls).ret
  have hstep : SendStep s (.sends call calls) _ := ⟨_, by rw [SendingState.send, heq]⟩
  exact ⟨_, hstep, rfl, rfl⟩

/-- In every state of a run, the client reads the messages for which `send` has returned a positive
value, each once and in their order. Behind them there is nothing, or a part of a frame on a closed
connection, which is not written to any more. -/
theorem stream_delivers {connectionClosed : Bool} {past : List (SendingState × SendEvent)}
    {s : SendingState}
    (h : Foundation.Run (fun s event s' => SendStep s event s' ∧ event.Regular)
      (.start connectionClosed) past s) :
    (∃ cut, readStream readServerFrame s.stream = (s.delivered, cut) ∧
        (s.connectionClosed = false → cut = [])) ∧
      (s.connectionClosed = true → ∀ event s', SendStep s event s' →
        s'.stream = s.stream ∧ s'.connectionClosed = true) := by
  have hdelivered : ∃ cut, Delivered s cut := by
    apply h.invariant (P := fun s => ∃ cut, Delivered s cut)
    · exact ⟨[], Delivered.start connectionClosed⟩
    · intro s event s' hs hstep
      exact hstep.1.delivered hstep.2 hs
  obtain ⟨cut, hs⟩ := hdelivered
  constructor
  · exact ⟨cut, by rw [hs.stream, serverFraming.readStream_eq hs.valid hs.none], hs.opened⟩
  · intro hclosed event s' hstep
    exact hstep.closed hclosed

/-- A version that is written in two parts, and one of which only a part is. -/
theorem stream_delivers_versions :
    ∃ past s cut,
      Foundation.Run (fun s event s' => SendStep s event s' ∧ event.Regular) (.start false)
        past s ∧
      readStream readServerFrame s.stream = (s.delivered, cut) ∧
      s.delivered = [Session.message ⟨1, 0, [.string [97, 98]]⟩] ∧
      s.connectionClosed = true ∧
      ∀ event s', SendStep s event s' → s'.stream = s.stream ∧ s'.connectionClosed = true := by
  obtain ⟨s₁, hfirst, hsent, hopen⟩ := @SendingState.send_step (.start false)
    ⟨1, 0, [.string [97, 98]]⟩ (runsFit_string [97, 98]) ⟨[5], .all⟩
  have hopen' : s₁.connectionClosed = false := hopen.trans (by decide)
  obtain ⟨s₂, hsecond, hsent', hclosed⟩ := @SendingState.send_step s₁
    ⟨1, 0, [.string [99]]⟩ (runsFit_string [99]) ⟨[5], .failed⟩
  rw [hopen'] at hsent' hclosed
  have hrun : Foundation.Run (fun s event s' => SendStep s event s' ∧ event.Regular)
      (.start false) _ s₁ :=
    Run.start.next ⟨hfirst, by decide, by decide⟩
  have hrun' := hrun.next ⟨hsecond, by decide, by decide⟩
  have hclosed' := hclosed.trans (b := _) (c := true) (by decide)
  obtain ⟨⟨cut, hread, -⟩, hquiet⟩ := stream_delivers hrun'
  refine ⟨_, _, cut, hrun', hread, ?_, hclosed', hquiet hclosed'⟩
  rw [SendingState.delivered, hsent', hsent]
  decide

end KoheronServer.Session.Websock
