import KoheronServer.Foundation.Reentry
import KoheronServer.Server.Emit

/-!
# When emitting and logging return

The emits that a failing write starts inside each other are loops that start
themselves: their sites are the subscribers, and a session that is a WebSocket
has one failure to give, since it is marked closed before the failure is logged.
-/

namespace KoheronServer.Server

open Foundation Wire KoheronServer.Session

/-! ## One message -/

/-- The errors that a transport logs. -/
def transportErrors : List String :=
  [Tcp.closedByClient, Tcp.cannotWrite, Tcp.bytesNotSent, Websocket.cannotSendRequest]

/-- A message of `size` bytes on an open connection is logged as a failure. -/
def SockType.logs (kind : SockType) (size : Nat) (calls : Calls) : Bool :=
  match kind with
  | .tcp | .unix => (Tcp.write size (calls.write (Tcp.writeCount size)).1).error.isSome
  | .websock =>
      decide (size % 2 ^ 32 + 10 ≤ Websocket.websockSendBufLen) && decide (calls.last = .failed)

def SockType.fails (kind : SockType) (calls : Calls) : Bool :=
  match kind with
  | .tcp | .unix => !decide calls.Whole
  | .websock => decide (calls.last = .failed)

theorem SockType.logs_eq (kind : SockType) {size : Nat} (hsize : 1 < size) (hsmall : size ≤ 2048)
    (calls : Calls) : kind.logs size calls = kind.fails calls := by
  have hmax : size ≤ maxTransfer := by
    simp only [maxTransfer]
    omega
  cases kind with
  | tcp => exact Tcp.write_error_isSome hsize hmax calls
  | unix => exact Tcp.write_error_isSome hsize hmax calls
  | websock =>
      have hfits : size % 2 ^ 32 + 10 ≤ Websocket.websockSendBufLen := by
        rw [Nat.mod_eq_of_lt (by omega)]
        simp only [Websocket.websockSendBufLen]
        omega
      simp only [SockType.logs, SockType.fails, decide_eq_true hfits, Bool.true_and]

section

variable (kind : SockType) (connectionClosed : Bool) (data : Bytes) (calls : Calls)

theorem SockType.write_error :
    (kind.write connectionClosed data calls).error.isSome =
      (!(decide (kind = .websock) && connectionClosed) && kind.logs data.length calls) := by
  cases kind with
  | tcp => rfl
  | unix => rfl
  | websock =>
      simp only [SockType.write, (Websocket.send_error connectionClosed data calls).1]
      cases connectionClosed with
      | true => simp
      | false =>
          simp only [true_and, decide_true, Bool.and_false, Bool.not_false, Bool.true_and,
            SockType.logs]
          split <;> simp_all

theorem SockType.write_connectionClosed :
    (kind.write connectionClosed data calls).connectionClosed =
      (connectionClosed ||
        (decide (kind = .websock) && (kind.write connectionClosed data calls).error.isSome)) := by
  cases kind with
  | tcp => simp [SockType.write]
  | unix => simp [SockType.write]
  | websock =>
      simpa [SockType.write] using (Websocket.send_error connectionClosed data calls).2

theorem SockType.write_error_mem {line : String}
    (h : (kind.write connectionClosed data calls).error = some line) : line ∈ transportErrors := by
  have htcp : ∀ {result : WriteResult}, (Tcp.write data.length result).error = some line →
      line ∈ transportErrors := by
    intro result hresult
    have hmem := Tcp.write_error_mem hresult
    simp only [List.mem_cons, List.not_mem_nil, or_false] at hmem
    rcases hmem with rfl | rfl | rfl <;> simp [transportErrors]
  cases kind with
  | tcp => exact htcp h
  | unix => exact htcp h
  | websock =>
      simp only [SockType.write, (Websocket.send_error connectionClosed data calls).1] at h
      split at h
      · obtain rfl := Option.some.inj h
        simp [transportErrors]
      · cases h

end

theorem Endpoint.send_eq (endpoint : Endpoint) (kind : SockType) {call : Call}
    (hfit : RunsFit scalarPackLen call.args) (calls : Calls) :
    ∃ sender, endpoint.send kind call calls = some
      (kind.write endpoint.connectionClosed (message call) calls,
        ⟨sender, (kind.write endpoint.connectionClosed (message call) calls).connectionClosed⟩) := by
  obtain ⟨dynSer, hsend⟩ := endpoint.sender.send_eq hfit fun data =>
    (kind.write endpoint.connectionClosed data calls).ret
  exact ⟨_, by rw [Endpoint.send, hsend]⟩

theorem Endpoint.send_fits {endpoint : Endpoint} {kind : SockType} {call : Call} {calls : Calls}
    {result : Websocket.Sent × Endpoint} (h : endpoint.send kind call calls = some result) :
    RunsFit scalarPackLen call.args := by
  rw [Endpoint.send] at h
  split at h
  case h_1 => cases h
  case h_2 heq => exact Sender.send_fits heq

theorem message_length (call : Call) : (message call).length = 8 + (argsWire call.args).length := by
  rw [message, messageWire, List.length_append, DynamicSerializer.header_eq]
  simp [appendUint16]

theorem text_length_le (channel : Fin channelsCount) (event : BitVec 16) (buffer : FmtBuffer) :
    (message (eventCall channel event [.string (cString buffer.text)])).length ≤ 2048 := by
  have htext : (cString buffer.text).length ≤ buffer.text.length :=
    (List.takeWhile_sublist _).length_le
  have hfits := buffer.fits
  have hmod := Nat.mod_le (cString buffer.text).length (2 ^ 32)
  simp only [fmtBuffLen] at hfits
  rw [message_length, eventCall]
  simp [argsWire, Arg.wire]
  omega

theorem transportErrors_fit {line : String} (h : line ∈ transportErrors) :
    (textBytes line).length < fmtBuffLen := by
  have hall : ∀ line ∈ transportErrors, (textBytes line).length < fmtBuffLen := by decide
  exact hall line h

/-! ## The emits as loops that start themselves -/

section

variable (env : Env)

/-- The sessions that start `n` of an emit on `channel` sends to: those behind the first one are
starts of log lines. -/
def Env.sites (channel : Fin channelsCount) (n : Nat) : List SessID :=
  env.subscribers.get (if n = 0 then channel else syslogChannel)

/-- A session that was open at first logs a failure in start `n`; `first` says so of the first
start. -/
def Env.fails (closed : SessID → Bool) (first : SessID → Bool) (n : Nat) (sid : SessID) : Bool :=
  !(decide (env.kind sid = .websock) && closed sid) &&
    if n = 0 then first sid else (env.kind sid).fails (env.calls n sid)

/-- A failure: of a start and a session, or once for all of a WebSocket. -/
def Env.token (n : Nat) (sid : SessID) : Option Nat × SessID :=
  (if env.kind sid = .websock then none else some n, sid)

def Env.failures (closed : SessID → Bool) (channel : Fin channelsCount) (first : SessID → Bool)
    (K : Nat) : Finset (Option Nat × SessID) :=
  Reentry.failures (env.sites channel) (env.fails closed first) env.token K

end

/-- The emits with their texts, and the loops without them. -/
structure Agrees (env : Env) (closed : SessID → Bool) (v : Reentry.Visits (Option Nat × SessID))
    (st : State) : Prop where
  frames : st.frames = v.frames
  closed : ∀ sid, env.kind sid = .websock →
    ((st.endpoints sid).connectionClosed = true ↔ closed sid = true ∨ (none, sid) ∈ v.failed)
  old : ∀ n sid, (some n, sid) ∈ v.failed → n < v.frames

section

variable {env : Env} {closed first : SessID → Bool}
  {v : Reentry.Visits (Option Nat × SessID)} {st : State}

theorem Agrees.enter (h : Agrees env closed v st) : Agrees env closed v.enter st.enter :=
  ⟨congrArg (· + 1) h.frames, h.closed, fun n sid hmem => Nat.lt_succ_of_lt (h.old n sid hmem)⟩

theorem Agrees.format (h : Agrees env closed v st) (text : Bytes) :
    Agrees env closed v (st.format text) :=
  ⟨h.frames, h.closed, h.old⟩

theorem fail_frames (v : Reentry.Visits (Option Nat × SessID)) (t : Option Nat × SessID)
    (failed : Bool) : (if failed then v.fail t else v).frames = v.frames := by
  cases failed <;> rfl

/-- A failure that is noted with a frame is one of a frame that has been entered. -/
theorem Agrees.fail_old (h : Agrees env closed v st) {n : Nat} (sid : SessID) (hn : n < v.frames)
    (failed : Bool) (m : Nat) (id : SessID)
    (hmem : (some m, id) ∈ (if failed then v.fail (env.token n sid) else v).failed) :
    m < (if failed then v.fail (env.token n sid) else v).frames := by
  rw [fail_frames]
  cases failed with
  | false => exact h.old m id hmem
  | true =>
      rcases Finset.mem_insert.mp hmem with heq | hmem
      · by_cases hkind : env.kind sid = .websock
        · rw [Env.token, if_pos hkind] at heq
          cases heq
        · rw [Env.token, if_neg hkind] at heq
          cases heq
          exact hn
      · exact h.old m id hmem

/-- A message to a session is a visit of it: the one is logged where the other one fails. -/
theorem Agrees.sent (h : Agrees env closed v st) {n : Nat} {sid : SessID} (hn : n < v.frames)
    (hnew : env.kind sid ≠ .websock → (some n, sid) ∉ v.failed) {data : Bytes}
    (hlogs : (env.kind sid).logs data.length (env.calls n sid) =
      if n = 0 then first sid else (env.kind sid).fails (env.calls n sid)) (sender : Sender) :
    let sent := (env.kind sid).write (st.endpoints sid).connectionClosed data (env.calls n sid)
    (sent.error.isSome = true ↔
        env.fails closed first n sid = true ∧ env.token n sid ∉ v.failed) ∧
      Agrees env closed (if sent.error.isSome then v.fail (env.token n sid) else v)
        (st.sent n sid sent.taken ⟨sender, sent.connectionClosed⟩) := by
  intro sent
  have herror : sent.error.isSome =
      (!(decide (env.kind sid = .websock) && (st.endpoints sid).connectionClosed) &&
        if n = 0 then first sid else (env.kind sid).fails (env.calls n sid)) := by
    rw [← hlogs]
    exact SockType.write_error _ _ _ _
  have hclosed : sent.connectionClosed = ((st.endpoints sid).connectionClosed ||
      (decide (env.kind sid = .websock) && sent.error.isSome)) :=
    SockType.write_connectionClosed _ _ _ _
  have hother : ∀ id ≠ sid, (st.sent n sid sent.taken ⟨sender, sent.connectionClosed⟩).endpoints id =
      st.endpoints id := fun id hne => if_neg hne
  have hsame : (st.sent n sid sent.taken ⟨sender, sent.connectionClosed⟩).endpoints sid =
      ⟨sender, sent.connectionClosed⟩ := if_pos rfl
  have hframes : (st.sent n sid sent.taken ⟨sender, sent.connectionClosed⟩).frames =
      (if sent.error.isSome then v.fail (env.token n sid) else v).frames :=
    h.frames.trans (fail_frames v (env.token n sid) sent.error.isSome).symm
  have hold := h.fail_old sid hn sent.error.isSome
  by_cases hkind : env.kind sid = .websock
  · -- A WebSocket fails when it is open, and it is closed then.
    have hstate := h.closed sid hkind
    have htoken : env.token n sid = (none, sid) := by rw [Env.token, if_pos hkind]
    have hiff : sent.error.isSome = true ↔
        env.fails closed first n sid = true ∧ env.token n sid ∉ v.failed := by
      rw [herror, htoken, Env.fails]
      simp only [hkind, decide_true, Bool.true_and, Bool.and_eq_true, Bool.not_eq_true',
        Bool.eq_false_iff, ne_eq, hstate]
      tauto
    refine ⟨hiff, hframes, ?_, hold⟩
    intro id hid
    by_cases hne : id = sid
    · rw [hne, hsame, hclosed, hkind]
      simp only [decide_true, Bool.true_and, Bool.or_eq_true, hstate, htoken]
      split
      case isTrue hsome => simp [Reentry.Visits.fail, hsome]
      case isFalse hnone => simp [hnone]
    · rw [hother id hne, h.closed id hid]
      split
      case isTrue => simp [Reentry.Visits.fail, htoken, hne]
      case isFalse => rfl
  · -- Another session fails whenever it is visited, which is once in a start.
    have htoken : env.token n sid = (some n, sid) := by rw [Env.token, if_neg hkind]
    have hiff : sent.error.isSome = true ↔
        env.fails closed first n sid = true ∧ env.token n sid ∉ v.failed := by
      rw [herror, htoken, Env.fails]
      simp [hkind, hnew hkind]
    refine ⟨hiff, hframes, ?_, hold⟩
    intro id hid
    have hne : id ≠ sid := by
      rintro rfl
      exact hkind hid
    rw [hother id hne, h.closed id hid]
    split
    case isTrue => simp [Reentry.Visits.fail, htoken]
    case isFalse => rfl

/-- The messages that an emit sends to some sessions, for the failures that `first` speaks of. -/
def ContentAgrees (env : Env) (first : SessID → Bool) (channel : Fin channelsCount)
    (event : BitVec 16) (n : Nat) : Content → List SessID → Prop
  | _, [] => True
  | content, sid :: sids =>
      (∀ buffer, RunsFit scalarPackLen (content.arguments buffer) ∧
        (env.kind sid).logs (message (eventCall channel event (content.arguments buffer))).length
            (env.calls n sid) =
          if n = 0 then first sid else (env.kind sid).fails (env.calls n sid)) ∧
        ContentAgrees env first channel event n content.left sids

theorem rel_bind {α β γ δ : Type} {R : α → β → Prop} {S : γ → δ → Prop} {a : Option α}
    {b : Option β}
    {f : α → Option γ} {g : β → Option δ} (h : Option.Rel R a b)
    (hnext : ∀ x y, a = some x → R x y → Option.Rel S (f x) (g y)) :
    Option.Rel S (a.bind f) (b.bind g) := by
  cases h with
  | none => exact .none
  | some hxy => exact hnext _ _ rfl hxy

theorem emitTo_agrees {channel : Fin channelsCount} {event : BitVec 16} {content : Content}
    {log : String → State → Option State}
    {again : Reentry.Visits (Option Nat × SessID) → Option (Reentry.Visits (Option Nat × SessID))}
    (hagain : ∀ {v st line}, Agrees env closed v st → 0 < v.frames → line ∈ transportErrors →
      Option.Rel (Agrees env closed) (again v) (log line st))
    (hfresh : ∀ {v v'}, again v = some v' → v.frames ≤ v'.frames ∧
      ∀ t ∈ v'.failed, t ∈ v.failed ∨ ∃ m sid, v.frames ≤ m ∧ env.token m sid = t)
    {n : Nat} {sids : List SessID} (hcontent : ContentAgrees env first channel event n content sids)
    (hnodup : sids.Nodup) (err : Int) (h : Agrees env closed v st) (hn : n < v.frames)
    (hnew : ∀ sid ∈ sids, env.kind sid ≠ .websock → (some n, sid) ∉ v.failed) :
    Option.Rel (fun v p => Agrees env closed v p.2)
      (Reentry.visitAll (env.fails closed first) env.token again n sids v)
      (emitTo env log channel event n content err sids st) := by
  induction sids generalizing content err v st with
  | nil => exact .some h
  | cons sid sids ih =>
      obtain ⟨hmessage, hcontent'⟩ := hcontent
      obtain ⟨hfit, hlogs⟩ := hmessage st.fmtBuffer
      obtain ⟨hsid, hnodup'⟩ := List.nodup_cons.mp hnodup
      obtain ⟨hnewSid, hnew'⟩ := List.forall_mem_cons.mp hnew
      obtain ⟨sender, hsend⟩ := (st.endpoints sid).send_eq (env.kind sid)
        (show RunsFit scalarPackLen
          (eventCall channel event (content.arguments st.fmtBuffer)).args from hfit) (env.calls n sid)
      obtain ⟨hiff, hagrees⟩ := h.sent hn hnewSid hlogs sender
      cases herror : ((env.kind sid).write (st.endpoints sid).connectionClosed
          (message (eventCall channel event (content.arguments st.fmtBuffer)))
          (env.calls n sid)).error with
      | none =>
          simp only [herror, Option.isSome_none, Bool.false_eq_true, false_iff, if_false]
            at hiff hagrees
          rw [Reentry.visitAll_pass hiff, emitTo_sent hsend herror]
          exact ih hcontent' hnodup' _ hagrees hn hnew'
      | some line =>
          simp only [herror, Option.isSome_some, true_iff, if_true] at hiff hagrees
          rw [Reentry.visitAll_fail hiff, emitTo_failed hsend herror]
          have hframes : n < (v.fail (env.token n sid)).frames := hn
          have hrel := hagain hagrees (Nat.lt_of_le_of_lt (Nat.zero_le n) hframes)
            (SockType.write_error_mem _ _ _ _ herror)
          refine rel_bind hrel fun v₁ st₁ hvisit hagrees₁ => ?_
          obtain ⟨hle, hold⟩ := hfresh hvisit
          -- The sessions that are still to come have not been visited in this start.
          refine ih hcontent' hnodup' _ hagrees₁ (Nat.lt_of_lt_of_le hframes hle)
            fun id hid hkind hmem => ?_
          rcases hold _ hmem with hmem | ⟨m, id', hm, htoken⟩
          · rcases Finset.mem_insert.mp hmem with heq | hmem
            · obtain rfl : id = sid := congrArg Prod.snd heq
              exact hsid hid
            · exact hnew' id hid hkind hmem
          · obtain rfl : id' = id := congrArg Prod.snd htoken
            rw [Env.token, if_neg hkind] at htoken
            obtain rfl : m = n := Option.some.inj (congrArg Prod.fst htoken)
            exact absurd hm (Nat.not_le.mpr hframes)

theorem rel_map_snd {α β γ : Type} {R : α → γ → Prop} {a : Option α} {b : Option (β × γ)}
    (h : Option.Rel (fun x p => R x p.2) a b) : Option.Rel R a (b.map Prod.snd) := by
  cases h with
  | none => exact .none
  | some hxp => exact .some hxp

theorem isSome_iff_of_rel {α β : Type} {R : α → β → Prop} {a : Option α} {b : Option β}
    (h : Option.Rel R a b) : (∃ p, b = some p) ↔ ∃ v, a = some v := by
  cases h with
  | none => simp
  | some _ => simp

/-- The text in `fmt_buffer` is short enough for every connection. -/
theorem textContent_agrees {n : Nat}
    (hfirst : n = 0 → ∀ sid, first sid = (env.kind sid).fails (env.calls 0 sid))
    (channel : Fin channelsCount) (event : BitVec 16) (sids : List SessID) :
    ContentAgrees env first channel event n .fmtBuffer sids := by
  induction sids with
  | nil => trivial
  | cons sid sids ih =>
      refine ⟨fun buffer => ⟨runsFit_string _, ?_⟩, ih⟩
      have hlength := message_length (eventCall channel event (Content.fmtBuffer.arguments buffer))
      have hsmall : (message
          (eventCall channel event (Content.fmtBuffer.arguments buffer))).length ≤ 2048 :=
        text_length_le channel event buffer
      rw [SockType.logs_eq _ (by omega) hsmall]
      split
      case isTrue hzero => rw [hfirst hzero, hzero]
      case isFalse => rfl

theorem emitText_agrees (hrunning : env.interrupted = false) {channel : Fin channelsCount}
    {depth : Nat} {channel' : Fin channelsCount} {event : BitVec 16} {text : Bytes}
    (hfits : text.length < fmtBuffLen) (h : Agrees env closed v st)
    (hfirst : v.frames = 0 → ∀ sid, first sid = (env.kind sid).fails (env.calls 0 sid))
    (hchannel : channel' = if v.frames = 0 then channel else syslogChannel) :
    Option.Rel (fun v p => Agrees env closed v p.2)
      (Reentry.run (env.sites channel) (env.fails closed first) env.token depth v)
      (emitText env depth channel' event (some text) st) := by
  induction depth generalizing v st channel' event text with
  | zero => exact .none
  | succ depth ih =>
      have hagain : ∀ {v st line}, Agrees env closed v st → 0 < v.frames → line ∈ transportErrors →
          Option.Rel (Agrees env closed)
            (Reentry.run (env.sites channel) (env.fails closed first) env.token depth v)
            (log env depth line st) := fun hagrees hpos hline =>
        rel_map_snd (ih (transportErrors_fit hline) hagrees
          (fun hzero => absurd hzero (Nat.ne_of_gt hpos)) (if_neg (Nat.ne_of_gt hpos)).symm)
      have hnew : ∀ sid ∈ env.subscribers.get channel', env.kind sid ≠ .websock →
          (some v.frames, sid) ∉ v.enter.failed :=
        fun sid _ _ hmem => Nat.lt_irrefl _ (h.old v.frames sid hmem)
      rw [Reentry.run, emitText_fits env hrunning depth channel' event hfits, Env.sites, ← hchannel,
        h.frames]
      exact emitTo_agrees hagain Reentry.run_fresh (textContent_agrees hfirst channel' event _)
        (env.nodup channel') 0 (h.format text).enter (Nat.lt_succ_self _) hnew

/-- A log line is one more of the loops, whatever was emitted first. -/
theorem log_agrees (hrunning : env.interrupted = false) (channel : Fin channelsCount) {depth : Nat}
    {line : String} (h : Agrees env closed v st) (hpos : 0 < v.frames)
    (hline : line ∈ transportErrors) :
    Option.Rel (Agrees env closed)
      (Reentry.run (env.sites channel) (env.fails closed first) env.token depth v)
      (log env depth line st) :=
  rel_map_snd (emitText_agrees hrunning (transportErrors_fit hline) h
    (fun hzero => absurd hzero (Nat.ne_of_gt hpos)) (if_neg (Nat.ne_of_gt hpos)).symm)

end

/-! ## When emitting returns -/

/-- What `snprintf` makes of a format fits `fmt_buffer`. -/
def TextFits (text : Option Bytes) : Prop := ∃ t, text = some t ∧ t.length < fmtBuffLen

theorem not_textFits {text : Option Bytes} (h : ¬TextFits text) :
    ∀ t, text = some t → fmtBuffLen ≤ t.length := by
  intro t ht
  by_contra hshort
  exact h ⟨t, ht, Nat.not_le.mp hshort⟩

/-- The first message of an emit of a text is logged like those of the log lines. -/
def Env.textFails (env : Env) (sid : SessID) : Bool := (env.kind sid).fails (env.calls 0 sid)

/-- The arguments that an emit sends to a subscriber of `channel`: those behind the first one get
what the first `send` has left. -/
def Env.argsTo (env : Env) (channel : Fin channelsCount) (forwarded : Forwarded) (sid : SessID) :
    List Arg :=
  if (env.subscribers.get channel).head? = some sid then forwarded.args else forwarded.left.args

/-- The first message of an emit of arguments may be too large. -/
def Env.argsFails (env : Env) (channel : Fin channelsCount) (event : BitVec 16)
    (forwarded : Forwarded) (sid : SessID) : Bool :=
  (env.kind sid).logs (message (eventCall channel event (env.argsTo channel forwarded sid))).length
    (env.calls 0 sid)

theorem movedFrom_movedFrom (arg : Passed) : movedFrom (movedFrom arg) = movedFrom arg := by
  cases arg <;> rfl

theorem Forwarded.left_left (forwarded : Forwarded) : forwarded.left.left = forwarded.left := by
  cases forwarded with
  | lvalues parameters => rfl
  | rvalues parameters =>
      cases parameters with
      | separate args => rfl
      | tuple tupArgs => simp [left, movedFrom_movedFrom]

theorem runsFit_moved {tupArgs : List Passed} (h : RunsFit scalarPackLen (tupArgs.map Passed.arg)) :
    RunsFit scalarPackLen ((tupArgs.map movedFrom).map Passed.arg) := by
  rintro run ⟨pre, post, heq⟩ hscalar
  rw [List.map_map, eq_comm] at heq
  obtain ⟨before, last, rfl, hbefore, -⟩ := List.map_eq_append_iff.mp heq
  obtain ⟨first, middle, rfl, -, rfl⟩ := List.map_eq_append_iff.mp hbefore
  have hkept : middle.map (Passed.arg ∘ movedFrom) = middle.map Passed.arg := by
    apply List.map_congr_left
    intro arg harg
    obtain ⟨t, ht⟩ := hscalar _ (List.mem_map_of_mem harg)
    cases arg <;> first | rfl | cases ht
  rw [hkept] at hscalar ⊢
  refine h _ ⟨first.map Passed.arg, last.map Passed.arg, ?_⟩ hscalar
  rw [List.map_append, List.map_append]

theorem Forwarded.runsFit_left {forwarded : Forwarded} (h : RunsFit scalarPackLen forwarded.args) :
    RunsFit scalarPackLen forwarded.left.args := by
  cases forwarded with
  | lvalues parameters => exact h
  | rvalues parameters =>
      cases parameters with
      | separate args => exact h
      | tuple tupArgs => exact runsFit_moved h

section

variable {env : Env} {forwarded : Forwarded} {channel : Fin channelsCount} {event : BitVec 16}

theorem leftContent_agrees (hfit : RunsFit scalarPackLen forwarded.left.args) {sids : List SessID}
    (hleft : ∀ sid ∈ sids, env.argsTo channel forwarded sid = forwarded.left.args) :
    ContentAgrees env (env.argsFails channel event forwarded) channel event 0 (.args forwarded.left)
      sids := by
  induction sids with
  | nil => trivial
  | cons sid sids ih =>
      obtain ⟨hsid, hsids⟩ := List.forall_mem_cons.mp hleft
      refine ⟨fun buffer => ⟨hfit, ?_⟩, ?_⟩
      · rw [if_pos rfl, Env.argsFails, hsid]
        rfl
      · rw [Content.left, forwarded.left_left]
        exact ih hsids

/-- The subscribers get the arguments, and then what is left of them. -/
theorem argsContent_agrees (hfit : RunsFit scalarPackLen forwarded.args) :
    ContentAgrees env (env.argsFails channel event forwarded) channel event 0 (.args forwarded)
      (env.subscribers.get channel) := by
  have hnodup := env.nodup channel
  cases hsids : env.subscribers.get channel with
  | nil => trivial
  | cons first sids =>
      rw [hsids] at hnodup
      have hhead : (env.subscribers.get channel).head? = some first := by
        rw [hsids, List.head?_cons]
      refine ⟨fun buffer => ⟨hfit, ?_⟩, leftContent_agrees (Forwarded.runsFit_left hfit) ?_⟩
      · rw [if_pos rfl, Env.argsFails, Env.argsTo, if_pos hhead]
        rfl
      · intro sid hsid
        rw [Env.argsTo, hhead, if_neg]
        intro heq
        rw [Option.some.inj heq] at hnodup
        exact (List.nodup_cons.mp hnodup).1 hsid

end

section

variable (env : Env) (fmtBuffer : FmtBuffer) (endpoints : SessID → Endpoint)

theorem start_agrees :
    Agrees env (fun sid => (endpoints sid).connectionClosed) .start (.start fmtBuffer endpoints) :=
  ⟨rfl, by simp [State.start, Reentry.Visits.start], by simp [Reentry.Visits.start]⟩

/-- An emit of a text returns when some first starts meet fewer failures than there are starts. -/
theorem emitText_returns_iff (channel : Fin channelsCount) (event : BitVec 16)
    (text : Option Bytes) :
    (∃ depth p, emitText env depth channel event text (.start fmtBuffer endpoints) = some p) ↔
      env.interrupted = true ∨ ¬TextFits text ∨
        ∃ K, (env.failures (fun sid => (endpoints sid).connectionClosed) channel env.textFails K).card
          ≤ K := by
  by_cases hint : env.interrupted = true
  · exact ⟨fun _ => .inl hint, fun _ => ⟨0 + 1, _, emitText_interrupted env hint 0 _ _ _ _⟩⟩
  · have hrunning : env.interrupted = false := Bool.eq_false_iff.mpr hint
    by_cases hfits : TextFits text
    · obtain ⟨t, rfl, hlen⟩ := hfits
      have hrel : ∀ depth, Option.Rel
          (fun v p => Agrees env (fun sid => (endpoints sid).connectionClosed) v p.2)
          (Reentry.run (env.sites channel)
            (env.fails (fun sid => (endpoints sid).connectionClosed) env.textFails) env.token depth
            .start)
          (emitText env depth channel event (some t) (.start fmtBuffer endpoints)) := fun depth =>
        emitText_agrees hrunning hlen (start_agrees env fmtBuffer endpoints) (fun _ _ => rfl) rfl
      have hnot : ¬¬TextFits (some t) := not_not.mpr ⟨t, rfl, hlen⟩
      rw [or_iff_right hint, or_iff_right hnot]
      simp only [Env.failures, ← Reentry.run_returns_iff]
      exact exists_congr fun depth => isSome_iff_of_rel (hrel depth)
    · obtain ⟨buffer, heq⟩ := emitText_unfit env hrunning 0 channel event (not_textFits hfits)
        (.start fmtBuffer endpoints)
      exact ⟨fun _ => .inr (.inl hfits), fun _ => ⟨0 + 1, _, heq⟩⟩

theorem emitArgs_agrees (hrunning : env.interrupted = false) {args : Forwarded}
    (hfit : RunsFit scalarPackLen args.args) (channel : Fin channelsCount) (event : BitVec 16)
    (depth : Nat) :
    Option.Rel (fun v p => Agrees env (fun sid => (endpoints sid).connectionClosed) v p.2)
      (Reentry.run (env.sites channel)
        (env.fails (fun sid => (endpoints sid).connectionClosed) (env.argsFails channel event args))
        env.token (depth + 1) .start)
      (emitArgs env depth channel event args (.start fmtBuffer endpoints)) := by
  rw [emitArgs, if_neg (by rw [hrunning]; decide), Reentry.run]
  exact emitTo_agrees (log_agrees hrunning channel) Reentry.run_fresh (argsContent_agrees hfit)
    (env.nodup channel) 0 (start_agrees env fmtBuffer endpoints).enter (Nat.lt_succ_self _)
    fun _ _ _ hmem => by cases hmem

/-- An emit of arguments returns under the same condition, when they can be sent at all. -/
theorem emitArgs_returns_iff (channel : Fin channelsCount) (event : BitVec 16) (args : Forwarded) :
    (∃ depth p, emitArgs env depth channel event args (.start fmtBuffer endpoints) = some p) ↔
      env.interrupted = true ∨ env.subscribers.get channel = [] ∨
        RunsFit scalarPackLen args.args ∧
          ∃ K, (env.failures (fun sid => (endpoints sid).connectionClosed) channel
            (env.argsFails channel event args) K).card ≤ K := by
  by_cases hint : env.interrupted = true
  · exact ⟨fun _ => .inl hint, fun _ => ⟨0, _, by rw [emitArgs, if_pos hint]⟩⟩
  · have hrunning : env.interrupted = false := Bool.eq_false_iff.mpr hint
    rw [or_iff_right hint]
    by_cases hfit : RunsFit scalarPackLen args.args
    · have hreturns : (∃ depth p,
          emitArgs env depth channel event args (.start fmtBuffer endpoints) = some p) ↔
          ∃ K, (env.failures (fun sid => (endpoints sid).connectionClosed) channel
            (env.argsFails channel event args) K).card ≤ K := by
        simp only [Env.failures, ← Reentry.run_returns_iff]
        rw [exists_congr fun depth => isSome_iff_of_rel
          (emitArgs_agrees env fmtBuffer endpoints hrunning hfit channel event depth)]
        constructor
        · rintro ⟨depth, hrun⟩
          exact ⟨depth + 1, hrun⟩
        · rintro ⟨depth, v, hrun⟩
          cases depth with
          | zero => cases hrun
          | succ depth => exact ⟨depth, v, hrun⟩
      rw [hreturns]
      refine ⟨fun hK => .inr ⟨hfit, hK⟩, fun h => ?_⟩
      rcases h with hnil | ⟨-, hK⟩
      · refine ⟨0, ?_⟩
        have hnone : env.failures (fun sid => (endpoints sid).connectionClosed) channel
            (env.argsFails channel event args) 0 = ∅ := by
          simp [Env.failures, Reentry.failures, Env.sites, hnil]
        rw [hnone]
        exact Nat.le_refl 0
      · exact hK
    · -- The first message overflows the scalar pack.
      have hstop : ∀ depth, env.subscribers.get channel ≠ [] →
          emitArgs env depth channel event args (.start fmtBuffer endpoints) = none := by
        intro depth hsome
        obtain ⟨sid, sids, hcons⟩ := List.exists_cons_of_ne_nil hsome
        rw [emitArgs, if_neg hint, hcons, emitTo]
        split
        case h_1 => rfl
        case h_2 hsend => exact absurd (Endpoint.send_fits hsend) hfit
      constructor
      · rintro ⟨depth, p, heq⟩
        by_contra hnone
        rw [hstop depth fun hnil => hnone (.inl hnil)] at heq
        cases heq
      · rintro (hnil | ⟨hfits, -⟩)
        · exact ⟨0, _, by rw [emitArgs, if_neg hint, hnil, emitTo]⟩
        · exact absurd hfits hfit

/-! ## When logging returns -/

theorem print_returns_emitText {severity : Severity} (hdebug : severity ≠ .debug)
    (text : Option Bytes) :
    (∃ depth st, print env depth severity text (.start fmtBuffer endpoints) = some st) ↔
      ∃ depth p, emitText env depth syslogChannel severity.code text (.start fmtBuffer endpoints) =
        some p := by
  simp only [print, if_neg hdebug, Option.map_eq_some_iff]
  constructor
  · rintro ⟨depth, -, p, heq, -⟩
    exact ⟨depth, p, heq⟩
  · rintro ⟨depth, p, heq⟩
    exact ⟨depth, p.2, p, heq, rfl⟩

/-- `print` returns for a severity that is not emitted, when nothing is emitted, or when some
first log lines meet fewer failures than there are lines. -/
theorem print_returns_iff (severity : Severity) (text : Option Bytes) :
    (∃ depth st, print env depth severity text (.start fmtBuffer endpoints) = some st) ↔
      severity = .debug ∨ env.interrupted = true ∨ ¬TextFits text ∨
        ∃ K, (env.failures (fun sid => (endpoints sid).connectionClosed) syslogChannel
          env.textFails K).card ≤ K := by
  by_cases hdebug : severity = .debug
  · exact ⟨fun _ => .inl hdebug, fun _ => ⟨0, _, by rw [print, if_pos hdebug]⟩⟩
  · rw [or_iff_right hdebug, print_returns_emitText env fmtBuffer endpoints hdebug]
    exact emitText_returns_iff env fmtBuffer endpoints syslogChannel severity.code text

/-- Logging returns when every subscriber of the syslog channel is a WebSocket: one that fails is
closed before its failure is logged. -/
theorem print_returns_of_websock
    (hkind : ∀ sid ∈ env.subscribers.get syslogChannel, env.kind sid = .websock)
    (severity : Severity) (text : Option Bytes) :
    ∃ depth st, print env depth severity text (.start fmtBuffer endpoints) = some st := by
  by_cases hdebug : severity = .debug
  · exact ⟨0, _, by rw [print, if_pos hdebug]⟩
  · rw [print_returns_emitText env fmtBuffer endpoints hdebug, emitText_returns_iff]
    refine .inr (.inr ?_)
    simp only [Env.failures, ← Reentry.run_returns_iff]
    apply Reentry.run_returns_of_subset
      ((env.subscribers.get syslogChannel).map fun sid => (none, sid)).toFinset
    intro n sid hsid _
    have hmem : sid ∈ env.subscribers.get syslogChannel := by
      rwa [Env.sites, ite_self] at hsid
    rw [Env.token, if_pos (hkind sid hmem)]
    simpa using hmem

/-- A subscriber of the syslog channel that is no WebSocket and takes no message keeps logging
from returning. -/
theorem print_diverges (hrunning : env.interrupted = false) {sid : SessID}
    (hsid : sid ∈ env.subscribers.get syslogChannel) (hkind : env.kind sid ≠ .websock)
    (hcalls : ∀ n, ¬(env.calls n sid).Whole) {severity : Severity} (hdebug : severity ≠ .debug)
    {text : Bytes} (hfits : text.length < fmtBuffLen) (depth : Nat) :
    print env depth severity (some text) (.start fmtBuffer endpoints) = none := by
  by_contra hsome
  obtain ⟨st, heq⟩ := Option.ne_none_iff_exists'.mp hsome
  have hreturns := (print_returns_emitText env fmtBuffer endpoints hdebug (some text)).mp
    ⟨depth, st, heq⟩
  rcases (emitText_returns_iff env fmtBuffer endpoints _ _ _).mp hreturns with hint | hunfit | ⟨K, hK⟩
  · rw [hrunning] at hint
    cases hint
  · exact hunfit ⟨text, rfl, hfits⟩
  · -- Every log line is one more failure.
    have hsub : (Finset.range (K + 1)).image (fun n => (some n, sid)) ⊆
        env.failures (fun sid => (endpoints sid).connectionClosed) syslogChannel env.textFails K := by
      intro t ht
      obtain ⟨n, hn, rfl⟩ := Finset.mem_image.mp ht
      have hfails : (env.kind sid).fails (env.calls n sid) = true := by
        cases hsock : env.kind sid with
        | tcp => simpa [SockType.fails] using hcalls n
        | unix => simpa [SockType.fails] using hcalls n
        | websock => exact absurd hsock hkind
      refine Reentry.mem_failures.mpr ⟨n, Nat.lt_succ_iff.mp (Finset.mem_range.mp hn),
        sid, ?_, ?_, ?_⟩
      · rwa [Env.sites, ite_self]
      · simp only [Env.fails, hkind, decide_false, Bool.false_and, Bool.not_false, Bool.true_and]
        split
        case isTrue hzero => rwa [hzero] at hfails
        case isFalse => exact hfails
      · rw [Env.token, if_neg hkind]
    have hcard := Finset.card_le_card hsub
    rw [Finset.card_image_of_injective _ (fun n m h => Option.some.inj (Prod.mk.inj h).1),
      Finset.card_range] at hcard
    omega

end

/-- A TCP session that has subscribed to the syslog channel and is gone. -/
theorem print_never_returns :
    ∃ env fmtBuffer endpoints, ∀ depth, print env depth .info (some (textBytes "Hello
"))
      (.start fmtBuffer endpoints) = none := by
  let env : Env :=
    { kind := fun _ => .tcp
      interrupted := false
      subscribers := Subscribers.empty.set syslogChannel [0]
      nodup := by decide
      calls := fun _ _ => ⟨[], .failed⟩ }
  refine ⟨env, ⟨[], by decide⟩, fun _ => ⟨.start, false⟩, ?_⟩
  exact print_diverges env _ _ rfl (show (0 : SessID) ∈ [0] by decide)
    (show SockType.tcp ≠ .websock by decide) (fun n => show ¬(Calls.mk [] .failed).Whole by decide)
    (by decide) (by decide)

end KoheronServer.Server
