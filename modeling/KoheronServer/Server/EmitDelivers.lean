import KoheronServer.Server.EmitReturns

/-!
# What the subscribers of an event receive

A subscriber whose connection accepts writes gets one message of an emit. It has the
arguments of the emit, or what the first message has left of a `std::tuple` that is
moved from; its text is the one that `fmt_buffer` holds when the subscriber's turn
comes, which is an error of a transport once a session before it has failed.
-/

namespace KoheronServer.Server

open Foundation Wire KoheronServer.Session

/-! ## Connections that accept writes -/

def SockType.Accepts (kind : SockType) (calls : Calls) : Prop :=
  match kind with
  | .tcp | .unix => calls.Whole
  | .websock => calls.last = .all

def SockType.Takes (kind : SockType) (size : Nat) : Prop :=
  match kind with
  | .tcp | .unix => size ≤ maxTransfer
  | .websock => size + 10 ≤ Websocket.websockSendBufLen

/-- The connection of a session accepts writes; `closed` tells the WebSockets that were closed
before. -/
def Env.Accepts (env : Env) (closed : SessID → Bool) (sid : SessID) : Prop :=
  (env.kind sid = .websock → closed sid = false) ∧
    ∀ n, (env.kind sid).Accepts (env.calls n sid)

namespace SockType.Accepts

variable {kind : SockType} {calls : Calls} (h : kind.Accepts calls)

include h

theorem connectionClosed (closed : Bool) (data : Bytes) :
    (kind.write closed data calls).connectionClosed = closed := by
  cases kind with
  | tcp => rfl
  | unix => rfl
  | websock =>
      have hlast : calls.last = .all := h
      have herror : (Websocket.send closed data calls).error = none := by
        rw [(Websocket.send_error closed data calls).1, hlast]
        simp
      rw [SockType.write, (Websocket.send_error closed data calls).2, herror]
      simp

/-- Such a connection takes the whole of every message that is not too large. -/
theorem taken_iff {closed : Bool} (hopen : kind = .websock → closed = false) {data : Bytes}
    (hsize : 1 < data.length) :
    (kind.write closed data calls).taken = kind.wire data ↔ kind.Takes data.length := by
  have htcp : calls.Whole → (data.take (calls.write (Tcp.writeCount data.length)).1.bytes = data ↔
      data.length ≤ maxTransfer) := fun hwhole =>
    (Tcp.taken_iff hsize calls).trans (and_iff_left hwhole)
  cases kind with
  | tcp => exact htcp h
  | unix => exact htcp h
  | websock =>
      have hlast : calls.last = .all := h
      refine (Websocket.send_taken_iff closed data calls).trans ?_
      simp [hopen rfl, hlast, SockType.Takes]

end SockType.Accepts

theorem SockType.wire_injective (kind : SockType) : Function.Injective kind.wire := by
  cases kind with
  | tcp => exact Function.injective_id
  | unix => exact Function.injective_id
  | websock => exact Websocket.sendFrame_injective

/-- A connection takes no more than the message. -/
theorem SockType.write_taken_length_le (kind : SockType) (closed : Bool) (data : Bytes)
    (calls : Calls) : (kind.write closed data calls).taken.length ≤ (kind.wire data).length := by
  cases kind with
  | tcp => exact List.length_take_le' _ _
  | unix => exact List.length_take_le' _ _
  | websock => exact Websocket.send_taken_length_le closed data calls

theorem SockType.wire_length_lt (kind : SockType) {data data' : Bytes}
    (h : data.length < data'.length) : (kind.wire data).length < (kind.wire data').length := by
  cases kind with
  | tcp => exact h
  | unix => exact h
  | websock =>
      have hmono := Websocket.sendMaskOffset_mono (Nat.le_of_lt h)
      simp only [SockType.wire, Websocket.sendFrame_length]
      omega

theorem SockType.taken_ne (kind : SockType) (closed : Bool) {data data' : Bytes} (calls : Calls)
    (h : data.length < data'.length) : (kind.write closed data calls).taken ≠ kind.wire data' := by
  intro heq
  have hle := kind.write_taken_length_le closed data calls
  have hlt := kind.wire_length_lt h
  rw [heq] at hle
  omega

/-! ## What a move takes away -/

/-- The bytes that an element of a tuple loses with a move. -/
def heldBytes : Passed → Bytes
  | .vector _ bytes _ | .string bytes => bytes
  | .scalar .. | .cString _ | .array .. => []

/-- The encoding of the arguments is the same behind the first `send`. -/
def Forwarded.Survives : Forwarded → Prop
  | .rvalues (.tuple tupArgs) => ∀ arg ∈ tupArgs, (heldBytes arg).length % 2 ^ 32 = 0
  | .rvalues (.separate _) | .lvalues _ => True

theorem wire_length_moved (arg : Passed) :
    arg.arg.wire.length = (movedFrom arg).arg.wire.length + (heldBytes arg).length % 2 ^ 32 := by
  cases arg <;> simp [movedFrom, Passed.arg, Arg.wire, heldBytes]

theorem wire_moved {arg : Passed} (h : (heldBytes arg).length % 2 ^ 32 = 0) :
    (movedFrom arg).arg.wire = arg.arg.wire := by
  have hempty : ∀ bytes : Bytes, bytes.length % 2 ^ 32 = 0 →
      Arg.containerWire [] = Arg.containerWire bytes := by
    intro bytes hbytes
    have hcount : BitVec.ofNat 32 bytes.length = 0 := by
      apply BitVec.eq_of_toNat_eq
      rw [BitVec.toNat_ofNat, hbytes]
      rfl
    rw [Arg.containerWire, Arg.containerWire, hbytes, hcount, List.take_zero]
    rfl
  cases arg with
  | vector t bytes whole => exact hempty bytes h
  | string bytes => exact hempty bytes h
  | scalar | cString | array => rfl

/-- The elements of a tuple take at most as many bytes as before the move, and fewer if one of them
has lost some. -/
theorem argsWire_moved (tupArgs : List Passed) :
    let before := argsWire (tupArgs.map Passed.arg)
    let behind := argsWire ((tupArgs.map movedFrom).map Passed.arg)
    ((∀ arg ∈ tupArgs, (heldBytes arg).length % 2 ^ 32 = 0) ∧ behind = before) ∨
      ((∃ arg ∈ tupArgs, (heldBytes arg).length % 2 ^ 32 ≠ 0) ∧ behind.length < before.length) := by
  induction tupArgs with
  | nil => exact .inl ⟨List.forall_mem_nil _, rfl⟩
  | cons arg tupArgs ih =>
      have hlength := wire_length_moved arg
      simp only [List.map_cons, argsWire_cons, List.length_append]
      rcases ih with ⟨hall, heq⟩ | ⟨⟨lost, hmem, hne⟩, hlt⟩
      · by_cases hzero : (heldBytes arg).length % 2 ^ 32 = 0
        · exact .inl ⟨List.forall_mem_cons.mpr ⟨hzero, hall⟩, by rw [wire_moved hzero, heq]⟩
        · refine .inr ⟨⟨arg, List.mem_cons_self, hzero⟩, ?_⟩
          rw [heq]
          omega
      · exact .inr ⟨⟨lost, List.mem_cons_of_mem _ hmem, hne⟩, by omega⟩

/-- The arguments behind the first `send` are encoded as before, or in fewer bytes. -/
theorem Forwarded.left_cases (args : Forwarded) :
    (args.Survives ∧ argsWire args.left.args = argsWire args.args) ∨
      (¬args.Survives ∧ (argsWire args.left.args).length < (argsWire args.args).length) := by
  cases args with
  | lvalues parameters => exact .inl ⟨trivial, rfl⟩
  | rvalues parameters =>
      cases parameters with
      | separate args => exact .inl ⟨trivial, rfl⟩
      | tuple tupArgs =>
          rcases argsWire_moved tupArgs with h | ⟨⟨lost, hmem, hne⟩, hlt⟩
          · exact .inl h
          · exact .inr ⟨fun hall => hne (hall lost hmem), hlt⟩

/-! ## One message -/

/-- What a session that is sent to becomes. -/
theorem Endpoint.send_some {endpoint endpoint' : Endpoint} {kind : SockType} {call : Call}
    {calls : Calls} {sent : Websocket.Sent}
    (h : endpoint.send kind call calls = some (sent, endpoint')) :
    sent = kind.write endpoint.connectionClosed (message call) calls ∧
      endpoint'.connectionClosed = sent.connectionClosed := by
  obtain ⟨sender, heq⟩ := endpoint.send_eq kind (Endpoint.send_fits h) calls
  rw [h] at heq
  obtain ⟨rfl, rfl⟩ := Prod.mk.inj (Option.some.inj heq)
  exact ⟨rfl, rfl⟩

def State.messages (st : State) (sid : SessID) : List Bytes :=
  (st.deliveries.filter fun d => d.frame = 0 ∧ d.sid = sid).map Delivery.taken

theorem State.messages_sent (st : State) (n : Nat) (id : SessID) (taken : Bytes)
    (endpoint : Endpoint) (sid : SessID) :
    (st.sent n id taken endpoint).messages sid =
      if n = 0 ∧ id = sid then st.messages sid ++ [taken] else st.messages sid := by
  simp only [State.messages, State.sent, List.filter_append, List.map_append]
  split
  case isTrue h => simp [h]
  case isFalse h => simp [h]

/-- What a part of an emit keeps of a session that accepts writes. -/
structure Kept (sid : SessID) (st st' : State) : Prop where
  frames : st.frames ≤ st'.frames
  messages : st'.messages sid = st.messages sid
  connectionClosed :
    (st'.endpoints sid).connectionClosed = (st.endpoints sid).connectionClosed

namespace Kept

variable {sid : SessID} {st st₁ st' : State}

theorem refl (sid : SessID) (st : State) : Kept sid st st := ⟨Nat.le_refl _, rfl, rfl⟩

theorem trans (h : Kept sid st st₁) (h' : Kept sid st₁ st') : Kept sid st st' :=
  ⟨Nat.le_trans h.frames h'.frames, h'.messages.trans h.messages,
    h'.connectionClosed.trans h.connectionClosed⟩

end Kept

section

variable {env : Env} {log : String → State → Option State} {channel : Fin channelsCount}
  {event : BitVec 16} {content : Content} {n : Nat} {sid : SessID} {sids : List SessID}
  {err : Int} {st : State} {p : Int × State}

theorem sent_connectionClosed {call : Call} {calls : Calls} {sent : Websocket.Sent}
    {endpoint : Endpoint} (haccepts : (env.kind sid).Accepts calls)
    (hsend : (st.endpoints sid).send (env.kind sid) call calls = some (sent, endpoint)) :
    ((st.sent n sid sent.taken endpoint).endpoints sid).connectionClosed =
      (st.endpoints sid).connectionClosed := by
  obtain ⟨hsent, hendpoint⟩ := Endpoint.send_some hsend
  have hself : (st.sent n sid sent.taken endpoint).endpoints sid = endpoint := if_pos rfl
  rw [hself, hendpoint, hsent]
  exact haccepts.connectionClosed _ _

/-- A message of another start, or to another session. -/
theorem kept_sent {id : SessID} {call : Call} {sent : Websocket.Sent} {endpoint : Endpoint}
    (haccepts : ∀ n, (env.kind sid).Accepts (env.calls n sid))
    (hsend : (st.endpoints id).send (env.kind id) call (env.calls n id) = some (sent, endpoint))
    (hother : n ≠ 0 ∨ id ≠ sid) : Kept sid st (st.sent n id sent.taken endpoint) := by
  refine ⟨Nat.le_refl _, ?_, ?_⟩
  · rw [State.messages_sent, if_neg]
    rintro ⟨hn, hid⟩
    exact hother.elim (fun h => h hn) fun h => h hid
  · by_cases hid : id = sid
    · subst hid
      exact sent_connectionClosed (haccepts n) hsend
    · have hkeep : (st.sent n id sent.taken endpoint).endpoints sid = st.endpoints sid :=
        if_neg fun h => hid h.symm
      rw [hkeep]

/-! ## The loop -/

theorem emitTo_cons
    (h : emitTo env log channel event n content err (sid :: sids) st = some p) :
    ∃ sent endpoint st', (st.endpoints sid).send (env.kind sid)
        (eventCall channel event (content.arguments st.fmtBuffer)) (env.calls n sid) =
          some (sent, endpoint) ∧
      (sent.error = none ∧ st' = st.sent n sid sent.taken endpoint ∨
        ∃ line, sent.error = some line ∧ line ∈ transportErrors ∧
          log line (st.sent n sid sent.taken endpoint) = some st') ∧
      emitTo env log channel event n content.left
      (if sent.ret < 0 then sent.ret else err) sids st' =
        some p := by
  cases hsend : (st.endpoints sid).send (env.kind sid)
      (eventCall channel event (content.arguments st.fmtBuffer)) (env.calls n sid) with
  | none => simp [emitTo, hsend] at h
  | some result =>
      obtain ⟨sent, endpoint⟩ := result
      cases herror : sent.error with
      | none =>
          rw [emitTo_sent hsend herror] at h
          exact ⟨sent, endpoint, _, rfl, .inl ⟨herror, rfl⟩, h⟩
      | some line =>
          rw [emitTo_failed hsend herror] at h
          obtain ⟨st', hlog, hrest⟩ := Option.bind_eq_some_iff.mp h
          have hmem : line ∈ transportErrors := by
            rw [(Endpoint.send_some hsend).1] at herror
            exact SockType.write_error_mem _ _ _ _ herror
          exact ⟨sent, endpoint, st', rfl, .inr ⟨line, herror, hmem, hlog⟩, hrest⟩

def Content.behind (content : Content) : List SessID → Content
  | [] => content
  | _ :: _ => content.left

theorem Content.left_behind (content : Content) (pre : List SessID) :
    content.left.behind pre = content.left := by
  cases pre with
  | nil => rfl
  | cons sid pre =>
      cases content with
      | args forwarded => exact congrArg Content.args forwarded.left_left
      | fmtBuffer => rfl

theorem emitTo_append (pre post : List SessID) :
    emitTo env log channel event n content err (pre ++ post) st =
      (emitTo env log channel event n content err pre st).bind fun p =>
        emitTo env log channel event n (content.behind pre) p.1 post p.2 := by
  induction pre generalizing content err st with
  | nil => rfl
  | cons sid pre ih =>
      have hbehind : content.behind (sid :: pre) = content.left.behind pre :=
        (content.left_behind pre).symm
      cases hsend : (st.endpoints sid).send (env.kind sid)
          (eventCall channel event (content.arguments st.fmtBuffer)) (env.calls n sid) with
      | none => simp [emitTo, hsend]
      | some result =>
          obtain ⟨sent, endpoint⟩ := result
          rw [hbehind]
          cases herror : sent.error with
          | none =>
              rw [List.cons_append, emitTo_sent hsend herror, emitTo_sent hsend herror]
              exact ih
          | some line =>
              rw [List.cons_append, emitTo_failed hsend herror, emitTo_failed hsend herror,
                Option.bind_assoc]
              exact Option.bind_congr fun st' _ => ih

/-- The messages to other sessions, and those of the starts behind the first one, leave a session
that accepts writes alone. -/
theorem emitTo_kept (haccepts : ∀ n, (env.kind sid).Accepts (env.calls n sid))
    (hlog : ∀ {line st st'}, 0 < st.frames → log line st = some st' → Kept sid st st')
    (hother : n ≠ 0 ∨ sid ∉ sids) (hframes : 0 < st.frames)
    (h : emitTo env log channel event n content err sids st = some p) : Kept sid st p.2 := by
  induction sids generalizing content err st with
  | nil =>
      obtain rfl := Option.some.inj h
      exact .refl sid st
  | cons id sids ih =>
      obtain ⟨sent, endpoint, st', hsend, hnext, hrest⟩ := emitTo_cons h
      have hid : n ≠ 0 ∨ id ≠ sid :=
        hother.imp_right fun hnot heq => hnot (heq ▸ List.mem_cons_self)
      have hothers : n ≠ 0 ∨ sid ∉ sids :=
        hother.imp_right fun hnot hmem => hnot (List.mem_cons_of_mem _ hmem)
      have hsent := kept_sent haccepts hsend hid
      rcases hnext with ⟨-, rfl⟩ | ⟨line, -, -, hlogged⟩
      · exact hsent.trans (ih hothers hframes hrest)
      · have hkept := hlog (Nat.lt_of_lt_of_le hframes hsent.frames) hlogged
        have hframes' := Nat.lt_of_lt_of_le hframes (hsent.trans hkept).frames
        exact hsent.trans (hkept.trans (ih hothers hframes' hrest))

theorem emitText_kept (haccepts : ∀ n, (env.kind sid).Accepts (env.calls n sid)) {depth : Nat}
    {text : Option Bytes} (hframes : 0 < st.frames)
    (h : emitText env depth channel event text st = some p) : Kept sid st p.2 := by
  induction depth generalizing channel event text st p with
  | zero => cases h
  | succ depth ih =>
      by_cases hint : env.interrupted = true
      · rw [emitText_interrupted env hint] at h
        obtain rfl := Option.some.inj h
        exact .refl sid st
      · have hrunning : env.interrupted = false := Bool.eq_false_iff.mpr hint
        by_cases hfits : TextFits text
        · obtain ⟨t, rfl, hlen⟩ := hfits
          rw [emitText_fits env hrunning depth channel event hlen] at h
          have hlog : ∀ {line st st'}, 0 < st.frames → log env depth line st = some st' →
              Kept sid st st' := by
            intro line st st' hframes hlogged
            obtain ⟨q, hemit, rfl⟩ := Option.map_eq_some_iff.mp hlogged
            exact ih hframes hemit
          have hkept := emitTo_kept haccepts hlog (.inl (Nat.ne_of_gt hframes))
            (Nat.succ_pos st.frames) h
          exact ⟨Nat.le_trans (Nat.le_succ _) hkept.frames, hkept.messages, hkept.connectionClosed⟩
        · obtain ⟨buffer, heq⟩ := emitText_unfit env hrunning depth channel event
            (not_textFits hfits) st
          rw [heq] at h
          obtain rfl := Option.some.inj h
          exact ⟨Nat.le_refl _, rfl, rfl⟩

theorem log_kept (haccepts : ∀ n, (env.kind sid).Accepts (env.calls n sid)) {depth : Nat}
    {line : String} {st' : State} (hframes : 0 < st.frames)
    (h : Server.log env depth line st = some st') : Kept sid st st' := by
  obtain ⟨p, hemit, rfl⟩ := Option.map_eq_some_iff.mp h
  exact emitText_kept haccepts hframes hemit

/-- The message of the first start to a session that accepts writes has what `fmt_buffer` holds
behind the sessions before it. -/
theorem emitTo_messages (haccepts : ∀ n, (env.kind sid).Accepts (env.calls n sid))
    (hlog : ∀ {line st st'}, 0 < st.frames → log line st = some st' → Kept sid st st')
    {pre post : List SessID} (hnodup : (pre ++ sid :: post).Nodup) (hframes : 0 < st.frames)
    (h : emitTo env log channel event 0 content err (pre ++ sid :: post) st = some p) :
    ∃ err₁ st₁, emitTo env log channel event 0 content err pre st = some (err₁, st₁) ∧
      p.2.messages sid = st.messages sid ++
        [((env.kind sid).write (st.endpoints sid).connectionClosed
          (message (eventCall channel event ((content.behind pre).arguments st₁.fmtBuffer)))
          (env.calls 0 sid)).taken] := by
  obtain ⟨-, hcons, hpre⟩ := List.nodup_append.mp hnodup
  have hpre : sid ∉ pre := fun hmem => hpre sid hmem sid List.mem_cons_self rfl
  have hpost : sid ∉ post := (List.nodup_cons.mp hcons).1
  rw [emitTo_append] at h
  obtain ⟨⟨err₁, st₁⟩, hbefore, h⟩ := Option.bind_eq_some_iff.mp h
  have hkept : Kept sid st st₁ := emitTo_kept haccepts hlog (.inr hpre) hframes hbefore
  obtain ⟨sent, endpoint, st₂, hsend, hnext, hrest⟩ := emitTo_cons h
  have hframes₁ : 0 < (st₁.sent 0 sid sent.taken endpoint).frames :=
    Nat.lt_of_lt_of_le hframes hkept.frames
  have hlogged : Kept sid (st₁.sent 0 sid sent.taken endpoint) st₂ := by
    rcases hnext with ⟨-, rfl⟩ | ⟨line, -, -, hline⟩
    · exact .refl _ _
    · exact hlog hframes₁ hline
  have hafter : Kept sid st₂ p.2 := emitTo_kept haccepts hlog (.inr hpost)
    (Nat.lt_of_lt_of_le hframes₁ hlogged.frames) hrest
  refine ⟨err₁, st₁, hbefore, ?_⟩
  rw [hafter.messages, hlogged.messages, State.messages_sent, if_pos ⟨rfl, rfl⟩, hkept.messages,
    (Endpoint.send_some hsend).1, hkept.connectionClosed]

/-! ## The text in `fmt_buffer` -/

theorem FmtBuffer.format_text {text : Bytes} (h : text.length < fmtBuffLen) :
    (FmtBuffer.format text).text = text := by
  apply List.take_of_length_le
  omega

def FmtBuffer.HoldsError (buffer : FmtBuffer) : Prop :=
  ∃ line ∈ transportErrors, buffer.text = textBytes line

theorem emitTo_holdsError
    (hlog : ∀ {line st st'}, line ∈ transportErrors → log line st = some st' →
      st'.fmtBuffer.HoldsError) (hst : st.fmtBuffer.HoldsError)
    (h : emitTo env log channel event n content err sids st = some p) :
    p.2.fmtBuffer.HoldsError := by
  induction sids generalizing content err st with
  | nil =>
      obtain rfl := Option.some.inj h
      exact hst
  | cons id sids ih =>
      obtain ⟨sent, endpoint, st', -, hnext, hrest⟩ := emitTo_cons h
      rcases hnext with ⟨-, rfl⟩ | ⟨line, -, hmem, hlogged⟩
      · have hsent : (st.sent n id sent.taken endpoint).fmtBuffer.HoldsError := hst
        exact ih hsent hrest
      · exact ih (hlog hmem hlogged) hrest

theorem log_holdsError (hrunning : env.interrupted = false) {depth : Nat} {line : String}
    (hline : line ∈ transportErrors) {st' : State}
    (h : Server.log env depth line st = some st') : st'.fmtBuffer.HoldsError := by
  induction depth generalizing line st st' with
  | zero => cases h
  | succ depth ih =>
      obtain ⟨p, hemit, rfl⟩ := Option.map_eq_some_iff.mp h
      rw [emitText_fits env hrunning depth _ _ (transportErrors_fit hline)] at hemit
      have hformat : (st.format (textBytes line)).enter.fmtBuffer.HoldsError :=
        ⟨line, hline, FmtBuffer.format_text (transportErrors_fit hline)⟩
      exact emitTo_holdsError (fun hmem hlogged => ih hmem hlogged) hformat hemit

theorem textError {closed : SessID → Bool} {sent : Websocket.Sent} {endpoint : Endpoint}
    (hclosed : (st.endpoints sid).connectionClosed = closed sid)
    (hsend : (st.endpoints sid).send (env.kind sid)
      (eventCall channel event (Content.fmtBuffer.arguments st.fmtBuffer)) (env.calls 0 sid) =
        some (sent, endpoint)) :
    sent.error.isSome = env.fails closed env.textFails 0 sid := by
  have hlength := message_length
    (eventCall channel event (Content.fmtBuffer.arguments st.fmtBuffer))
  have hsmall : (message (eventCall channel event
      (Content.fmtBuffer.arguments st.fmtBuffer))).length ≤ 2048 :=
    text_length_le channel event st.fmtBuffer
  rw [(Endpoint.send_some hsend).1, SockType.write_error, SockType.logs_eq _ (by omega) hsmall,
    hclosed, Env.fails, if_pos rfl, Env.textFails]

/-- `fmt_buffer` keeps its text until a session fails, and holds an error from then on. -/
theorem emitTo_fmtBuffer {closed : SessID → Bool}
    (hlog : ∀ {line st st'}, line ∈ transportErrors → log line st = some st' →
      st'.fmtBuffer.HoldsError)
    (hclosed : ∀ id ∈ sids, (st.endpoints id).connectionClosed = closed id) (hnodup : sids.Nodup)
    (h : emitTo env log channel event 0 .fmtBuffer err sids st = some p) :
    ((∀ id ∈ sids, env.fails closed env.textFails 0 id = false) → p.2.fmtBuffer = st.fmtBuffer) ∧
      ((∃ id ∈ sids, env.fails closed env.textFails 0 id = true) → p.2.fmtBuffer.HoldsError) := by
  induction sids generalizing err st with
  | nil =>
      obtain rfl := Option.some.inj h
      exact ⟨fun _ => rfl, fun ⟨id, hid, _⟩ => absurd hid List.not_mem_nil⟩
  | cons id sids ih =>
      obtain ⟨hid, hnodup'⟩ := List.nodup_cons.mp hnodup
      obtain ⟨hclosedId, hclosed'⟩ := List.forall_mem_cons.mp hclosed
      obtain ⟨sent, endpoint, st', hsend, hnext, hrest⟩ := emitTo_cons h
      have hfails := textError hclosedId hsend
      rw [List.forall_mem_cons, List.exists_mem_cons_iff]
      rcases hnext with ⟨herror, rfl⟩ | ⟨line, herror, hmem, hlogged⟩
      · -- The other sessions are as they were.
        have hpass : env.fails closed env.textFails 0 id = false := by
          rw [← hfails, herror]
          rfl
        have hothers : ∀ id' ∈ sids,
            ((st.sent 0 id sent.taken endpoint).endpoints id').connectionClosed = closed id' := by
          intro id' hid'
          have hne : id' ≠ id := fun heq => hid (heq ▸ hid')
          have hkeep : (st.sent 0 id sent.taken endpoint).endpoints id' = st.endpoints id' :=
            if_neg hne
          rw [hkeep]
          exact hclosed' id' hid'
        obtain ⟨hclean, hfailed⟩ := ih hothers hnodup' hrest
        refine ⟨fun hall => hclean hall.2, fun hsome => hfailed ?_⟩
        exact hsome.resolve_left fun hfail => by rw [hpass] at hfail; cases hfail
      · have hfail : env.fails closed env.textFails 0 id = true := by
          rw [← hfails, herror]
          rfl
        refine ⟨fun hall => ?_, fun _ => emitTo_holdsError hlog (hlog hmem hlogged) hrest⟩
        rw [hfail] at hall
        cases hall.1

end

/-! ## What is delivered -/

/-- The sessions that an emit on `channel` sends to in front of `sid`. -/
def Env.before (env : Env) (channel : Fin channelsCount) (sid : SessID) : List SessID :=
  (env.subscribers.get channel).takeWhile (· ≠ sid)

/-- A text is emitted and no session in front of `sid` fails. -/
def Env.TextReaches (env : Env) (closed : SessID → Bool) (channel : Fin channelsCount)
    (text : Bytes)
    (sid : SessID) : Prop :=
  env.interrupted = false ∧ text.length < fmtBuffLen ∧
    ∀ id ∈ env.before channel sid, env.fails closed env.textFails 0 id = false

/-- Every subscriber whose connection accepts writes has got one message of the emit, that of
`call`. -/
def Env.Delivered (env : Env) (closed : SessID → Bool) (channel : Fin channelsCount) (call : Call)
    (st : State) : Prop :=
  ∀ sid ∈ env.subscribers.get channel, env.Accepts closed sid →
    st.messages sid = [(env.kind sid).wire (message call)]

theorem before_eq {env : Env} {channel : Fin channelsCount} {sid : SessID} {pre post : List SessID}
    (h : env.subscribers.get channel = pre ++ sid :: post) : env.before channel sid = pre := by
  have hnodup := env.nodup channel
  rw [h] at hnodup
  have hpre : ∀ id ∈ pre, decide (id ≠ sid) = true := by
    intro id hid
    have hne := (List.nodup_append.mp hnodup).2.2 id hid sid List.mem_cons_self
    exact decide_eq_true hne
  rw [Env.before, h, List.takeWhile_append_of_pos hpre, List.takeWhile_cons_of_neg (by simp),
    List.append_nil]

theorem transportErrors_cString {line : String} (h : line ∈ transportErrors) :
    cString (textBytes line) = textBytes line := by
  have hall : ∀ line ∈ transportErrors, cString (textBytes line) = textBytes line := by decide
  exact hall line h

theorem cString_length_le (s : Bytes) : (cString s).length ≤ s.length :=
  (List.takeWhile_sublist _).length_le

theorem emitText_silent {env : Env} {depth : Nat} {channel : Fin channelsCount} {event : BitVec 16}
    {text : Bytes} {st : State} {p : Int × State}
    (hsilent : ¬(env.interrupted = false ∧ text.length < fmtBuffLen))
    (h : emitText env depth channel event (some text) st = some p) {sid : SessID} :
    p.2.messages sid = st.messages sid := by
  cases depth with
  | zero => cases h
  | succ depth =>
      by_cases hint : env.interrupted = true
      · rw [emitText_interrupted env hint] at h
        obtain rfl := Option.some.inj h
        rfl
      · have hrunning : env.interrupted = false := Bool.eq_false_iff.mpr hint
        have hunfit : ¬TextFits (some text) := by
          rintro ⟨t, ht, hlen⟩
          obtain rfl := Option.some.inj ht
          exact hsilent ⟨hrunning, hlen⟩
        obtain ⟨buffer, heq⟩ := emitText_unfit env hrunning depth channel event
          (not_textFits hunfit) st
        rw [heq] at h
        obtain rfl := Option.some.inj h
        rfl

section

variable (env : Env) (fmtBuffer : FmtBuffer) (endpoints : SessID → Endpoint)
  {channel : Fin channelsCount} {event : BitVec 16} {sid : SessID} {depth : Nat} {p : Int × State}
  (hsid : sid ∈ env.subscribers.get channel)
  (haccepts : env.Accepts (fun sid => (endpoints sid).connectionClosed) sid)

include hsid haccepts

/-- The arguments reach a session that accepts writes when they are emitted, not too large, and not
moved from for a session before it. -/
theorem emitArgs_messages {args : Forwarded}
    (h : emitArgs env depth channel event args (.start fmtBuffer endpoints) = some p) :
    p.2.messages sid = [(env.kind sid).wire (message (eventCall channel event args.args))] ↔
      env.interrupted = false ∧
        (env.kind sid).Takes (message (eventCall channel event args.args)).length ∧
        ((env.subscribers.get channel).head? = some sid ∨ args.Survives) := by
  by_cases hint : env.interrupted = true
  · rw [emitArgs, if_pos hint] at h
    obtain rfl := Option.some.inj h
    simp [State.messages, State.start, hint]
  · obtain ⟨pre, post, hsplit⟩ := List.append_of_mem hsid
    have hnodup := env.nodup channel
    rw [emitArgs, if_neg hint, hsplit] at h
    rw [hsplit] at hnodup
    obtain ⟨err₁, st₁, -, hmessages⟩ :=
      emitTo_messages haccepts.2 (log_kept haccepts.2) hnodup (Nat.succ_pos _) h
    have hlength := message_length (eventCall channel event args.args)
    have htaken := (haccepts.2 0).taken_iff haccepts.1
      (show 1 < (message (eventCall channel event args.args)).length by omega)
    have hstart : ((State.start fmtBuffer endpoints).enter).messages sid = [] := rfl
    have hargs : ∀ forwarded : Forwarded,
        (Content.args forwarded).arguments st₁.fmtBuffer = forwarded.args := fun _ => rfl
    rw [hmessages, hstart, List.nil_append, List.singleton_inj, ← htaken,
      and_iff_right (Bool.eq_false_iff.mpr hint), hsplit]
    cases pre with
    | nil =>
        rw [Content.behind, hargs, List.nil_append, List.head?_cons,
          or_iff_left_of_imp fun _ => rfl, and_iff_left rfl]
        rfl
    | cons first pre =>
        have hne : first ≠ sid := by
          rintro rfl
          exact (List.nodup_cons.mp hnodup).1 (by simp)
        rw [Content.behind, Content.left, hargs, List.cons_append, List.head?_cons,
          Option.some.injEq, or_iff_right hne]
        rcases args.left_cases with ⟨hsurvives, hwire⟩ | ⟨hlost, hshorter⟩
        · rw [and_iff_left hsurvives]
          simp only [message, messageWire, eventCall, hwire]
          rfl
        · refine iff_of_false ?_ fun h => hlost h.2
          apply SockType.taken_ne
          simp only [message_length, eventCall]
          omega

/-- A tuple with a string of two characters that is moved: the second subscriber gets none. -/
example :
    let env : Env :=
      { kind := fun _ => .tcp
        interrupted := false
        subscribers := Subscribers.empty.set serverChannel [1, 2]
        nodup := by decide
        calls := fun _ _ => ⟨[], .all⟩ }
    (emitArgs env 0 serverChannel 1 (.rvalues (.tuple [.string [97, 98]]))
      (.start ⟨[], by decide⟩ fun _ => ⟨.start, false⟩)).map
        (fun p => p.2.deliveries.map fun d => (d.sid, d.taken.length)) =
          some [(1, 14), (2, 12)] := by
  decide

/-- A session that accepts writes gets one message of a text that is emitted: the text, or an
error of a transport when a session before it has failed. -/
theorem emitText_message (hrunning : env.interrupted = false) {text : Bytes}
    (hfits : text.length < fmtBuffLen)
    (h : emitText env depth channel event (some text) (.start fmtBuffer endpoints) = some p) :
    ∃ buffer : FmtBuffer,
      p.2.messages sid = [(env.kind sid).wire
        (message (eventCall channel event [.string (cString buffer.text)]))] ∧
      (env.TextReaches (fun sid => (endpoints sid).connectionClosed) channel text sid →
        buffer.text = text) ∧
      (¬env.TextReaches (fun sid => (endpoints sid).connectionClosed) channel text sid →
        buffer.HoldsError) := by
  cases depth with
  | zero => cases h
  | succ depth =>
      obtain ⟨pre, post, hsplit⟩ := List.append_of_mem hsid
      have hnodup := env.nodup channel
      rw [emitText_fits env hrunning depth channel event hfits, hsplit] at h
      rw [hsplit] at hnodup
      obtain ⟨err₁, st₁, hbefore, hmessages⟩ :=
        emitTo_messages haccepts.2 (log_kept haccepts.2) hnodup (Nat.succ_pos _) h
      have hsame : Content.fmtBuffer.behind pre = .fmtBuffer := by cases pre <;> rfl
      rw [hsame] at hmessages
      have hclosed : ∀ id ∈ pre,
          (((State.start fmtBuffer endpoints).format text).enter.endpoints id).connectionClosed =
            (fun sid => (endpoints sid).connectionClosed) id := fun _ _ => rfl
      obtain ⟨hclean, hfailed⟩ := emitTo_fmtBuffer
        (fun hmem hlogged => log_holdsError hrunning hmem hlogged) hclosed
        (List.nodup_append.mp hnodup).1 hbefore
      refine ⟨st₁.fmtBuffer, ?_, fun hreaches => ?_, fun hnot => hfailed ?_⟩
      · -- A text is never too large for a connection.
        have hlength := message_length
          (eventCall channel event (Content.fmtBuffer.arguments st₁.fmtBuffer))
        have hsmall := text_length_le channel event st₁.fmtBuffer
        have htakes : (env.kind sid).Takes (message
            (eventCall channel event [.string (cString st₁.fmtBuffer.text)])).length := by
          cases env.kind sid <;>
            simp only [SockType.Takes, maxTransfer, Websocket.websockSendBufLen] <;> omega
        rw [hmessages]
        exact congrArg (fun taken => [taken])
          (((haccepts.2 0).taken_iff haccepts.1 (by omega)).mpr htakes)
      · obtain ⟨-, -, hpass⟩ := hreaches
        rw [before_eq hsplit] at hpass
        have hbuffer : st₁.fmtBuffer = .format text := hclean hpass
        rw [hbuffer, FmtBuffer.format_text hfits]
      · by_contra hnone
        refine hnot ⟨hrunning, hfits, ?_⟩
        rw [before_eq hsplit]
        intro id hid
        by_contra hfails
        exact hnone ⟨id, hid, Bool.eq_true_of_not_eq_false hfails⟩

/-- The message is that of the text when no session before has failed, and only then, unless the
text is an error itself. -/
theorem emitText_messages {text : Bytes}
    (h : emitText env depth channel event (some text) (.start fmtBuffer endpoints) = some p) :
    (env.TextReaches (fun sid => (endpoints sid).connectionClosed) channel text sid →
        p.2.messages sid =
          [(env.kind sid).wire (message (eventCall channel event [.string (cString text)]))]) ∧
      (p.2.messages sid =
          [(env.kind sid).wire (message (eventCall channel event [.string (cString text)]))] →
        env.TextReaches (fun sid => (endpoints sid).connectionClosed) channel text sid ∨
          ∃ line ∈ transportErrors, cString text = textBytes line) := by
  have hstart : (State.start fmtBuffer endpoints).messages sid = [] := rfl
  by_cases hemitted : env.interrupted = false ∧ text.length < fmtBuffLen
  · obtain ⟨hrunning, hfits⟩ := hemitted
    obtain ⟨buffer, hmessages, hclean, hfailed⟩ :=
      emitText_message env fmtBuffer endpoints hsid haccepts hrunning hfits h
    rw [hmessages]
    refine ⟨fun hreaches => by rw [hclean hreaches], fun heq => ?_⟩
    by_cases hreaches :
        env.TextReaches (fun sid => (endpoints sid).connectionClosed) channel text sid
    · exact .inl hreaches
    · obtain ⟨line, hmem, hline⟩ := hfailed hreaches
      have hlt := buffer.fits
      have hle := cString_length_le buffer.text
      have hle' := cString_length_le text
      simp only [fmtBuffLen] at hlt hfits
      have hsame := message_string_inj (by omega) (by omega)
        ((env.kind sid).wire_injective (List.singleton_inj.mp heq))
      refine .inr ⟨line, hmem, ?_⟩
      rw [← hsame, hline, transportErrors_cString hmem]
  · have hnone : p.2.messages sid = [] := (emitText_silent hemitted h).trans hstart
    rw [hnone]
    refine ⟨fun hreaches => absurd ⟨hreaches.1, hreaches.2.1⟩ hemitted, fun heq => by cases heq⟩

end

section

variable (env : Env) (closed : SessID → Bool) (channel : Fin channelsCount)

/-- An emit of arguments returns, and every subscriber whose connection accepts writes can be
sent them: they are not too large, and it is the first one if a move takes something away. -/
def Env.ArgsDelivered (event : BitVec 16) (args : Forwarded) : Prop :=
  (env.interrupted = true ∨ env.subscribers.get channel = [] ∨
      RunsFit scalarPackLen args.args ∧
        ∃ K, (env.failures closed channel (env.argsFails channel event args) K).card ≤ K) ∧
    ∀ sid ∈ env.subscribers.get channel, env.Accepts closed sid →
      env.interrupted = false ∧
        (env.kind sid).Takes (message (eventCall channel event args.args)).length ∧
        ((env.subscribers.get channel).head? = some sid ∨ args.Survives)

/-- An emit of a text returns, and no session fails in front of a subscriber whose connection
accepts writes. -/
def Env.TextDelivered (text : Bytes) : Prop :=
  (env.interrupted = true ∨ ¬TextFits (some text) ∨
      ∃ K, (env.failures closed channel env.textFails K).card ≤ K) ∧
    ∀ sid ∈ env.subscribers.get channel, env.Accepts closed sid →
      env.TextReaches closed channel text sid

end

/-- When every subscriber whose connection accepts writes gets the message of an event, once: for
arguments exactly when the emit returns, none is too large and none is lost by a move; for a text
when it returns and no session before has failed, and only then unless the text is an error that a
transport logs. -/
theorem emit_delivers_iff (env : Env) (fmtBuffer : FmtBuffer) (endpoints : SessID → Endpoint)
    (channel : Fin channelsCount) (event : BitVec 16) :
    let closed := fun sid => (endpoints sid).connectionClosed
    let argsEmitted := fun args => ∃ depth p,
      emitArgs env depth channel event args (.start fmtBuffer endpoints) = some p ∧
        env.Delivered closed channel (eventCall channel event args.args) p.2
    let textEmitted := fun text => ∃ depth p,
      emitText env depth channel event (some text) (.start fmtBuffer endpoints) = some p ∧
        env.Delivered closed channel (eventCall channel event [.string (cString text)]) p.2
    (∀ args, argsEmitted args ↔ env.ArgsDelivered closed channel event args) ∧
      ∀ text, (env.TextDelivered closed channel text → textEmitted text) ∧
        (textEmitted text → env.TextDelivered closed channel text ∨
          ∃ line ∈ transportErrors, cString text = textBytes line) := by
  intro closed argsEmitted textEmitted
  refine ⟨fun args => ?_, fun text => ⟨?_, ?_⟩⟩
  · have hreturns := emitArgs_returns_iff env fmtBuffer endpoints channel event args
    constructor
    · rintro ⟨depth, p, heq, hdelivered⟩
      exact ⟨hreturns.mp ⟨depth, p, heq⟩, fun sid hsid haccepts =>
        (emitArgs_messages env fmtBuffer endpoints hsid haccepts heq).mp
          (hdelivered sid hsid haccepts)⟩
    · rintro ⟨hreturn, hall⟩
      obtain ⟨depth, p, heq⟩ := hreturns.mpr hreturn
      exact ⟨depth, p, heq, fun sid hsid haccepts =>
        (emitArgs_messages env fmtBuffer endpoints hsid haccepts heq).mpr (hall sid hsid haccepts)⟩
  · rintro ⟨hreturn, hall⟩
    obtain ⟨depth, p, heq⟩ :=
      (emitText_returns_iff env fmtBuffer endpoints channel event (some text)).mpr hreturn
    exact ⟨depth, p, heq, fun sid hsid haccepts =>
      (emitText_messages env fmtBuffer endpoints hsid haccepts heq).1 (hall sid hsid haccepts)⟩
  · rintro ⟨depth, p, heq, hdelivered⟩
    have hreturn :=
      (emitText_returns_iff env fmtBuffer endpoints channel event (some text)).mp ⟨depth, p, heq⟩
    by_cases herror : ∃ line ∈ transportErrors, cString text = textBytes line
    · exact .inr herror
    · exact .inl ⟨hreturn, fun sid hsid haccepts =>
        ((emitText_messages env fmtBuffer endpoints hsid haccepts heq).2
          (hdelivered sid hsid haccepts)).resolve_right herror⟩

def pingText : BitVec 16 := 1

def pingEnv : Env where
  kind _ := .tcp
  interrupted := false
  subscribers := Subscribers.empty.set serverChannel [1, 2]
  nodup := by decide
  calls _ sid := ⟨[], if sid = 1 then .failed else .all⟩

/-- Session 2 gets the error of session 1 for the ping. -/
theorem ping_text_lost :
    ∃ fmtBuffer endpoints depth p,
      emitText pingEnv depth serverChannel pingText (some (textBytes "Ping from server\n"))
        (.start fmtBuffer endpoints) = some p ∧
      2 ∈ pingEnv.subscribers.get serverChannel ∧
      pingEnv.Accepts (fun sid => (endpoints sid).connectionClosed) 2 ∧
      ∃ line ∈ transportErrors,
        p.2.messages 2 = [message (eventCall serverChannel pingText [.string (textBytes line)])] ∧
        p.2.messages 2 ≠ [message (eventCall serverChannel pingText
          [.string (cString (textBytes "Ping from server\n"))])] := by
  let fmtBuffer : FmtBuffer := ⟨[], by decide⟩
  let endpoints : SessID → Endpoint := fun _ => ⟨.start, false⟩
  have hmem : 2 ∈ pingEnv.subscribers.get serverChannel := by decide
  have haccepts : pingEnv.Accepts (fun sid => (endpoints sid).connectionClosed) 2 :=
    ⟨fun _ => rfl, fun _ => show (Calls.mk [] .all).Whole by decide⟩
  have hfits : (textBytes "Ping from server\n").length < fmtBuffLen := by decide
  obtain ⟨depth, p, heq⟩ := (emitText_returns_iff pingEnv fmtBuffer endpoints serverChannel pingText
    (some (textBytes "Ping from server\n"))).mpr (.inr (.inr ⟨1, by decide⟩))
  -- Session 1 fails in front of session 2.
  have hnot : ¬pingEnv.TextReaches (fun sid => (endpoints sid).connectionClosed) serverChannel
      (textBytes "Ping from server\n") 2 := fun hreaches =>
    absurd (hreaches.2.2 1 (by decide)) (by decide)
  obtain ⟨buffer, hmessages, -, herror⟩ :=
    emitText_message pingEnv fmtBuffer endpoints hmem haccepts rfl hfits heq
  obtain ⟨line, hline, htext⟩ := herror hnot
  rw [htext, transportErrors_cString hline] at hmessages
  refine ⟨fmtBuffer, endpoints, depth, p, heq, hmem, haccepts, line, hline, hmessages, ?_⟩
  intro hsame
  have hother : ∀ line ∈ transportErrors,
      cString (textBytes "Ping from server\n") ≠ textBytes line := by decide
  rcases (emitText_messages pingEnv fmtBuffer endpoints hmem haccepts heq).2 hsame with
    hreaches | ⟨line, hline, htext⟩
  · exact hnot hreaches
  · exact hother line hline htext

end KoheronServer.Server
