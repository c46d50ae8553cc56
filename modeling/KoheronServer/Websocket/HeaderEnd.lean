import KoheronServer.Websocket.Accesses

/-!
# The end of the stream inside a header

`receive_cmd` on a connection that the peer closes before the next header is complete.
`read_stream` goes on with the payload size that was there before: a positive one is
read, which meets the end of the stream again, and any other one is decoded. A size
that no buffer can have is not read to an end: each `read` fails at once.
-/

namespace KoheronServer.Websocket

open Foundation Wire Session

/-- The width of `size_t`, and the largest count that `read` takes for the free part of `read_str`.
A count that reaches out of the address space fails with `EFAULT`, whatever the connection holds. -/
structure AddressSpace where
  sizeBits : Nat
  limit : Nat
  wide : websockReadStrLen < 2 ^ sizeBits
  reaches : websockReadStrLen ≤ limit

namespace AddressSpace

/-- The count that a number of bytes is converted to. -/
def count (a : AddressSpace) (n : Nat) : Nat := n % 2 ^ a.sizeBits

def read (a : AddressSpace) (s : ByteStream) (n : Nat) : ReadResult × ByteStream :=
  if a.limit < a.count n then (.error, s) else s.read (a.count n)

/-- The counts that stay inside the buffer are taken as they are. -/
theorem read_eq (a : AddressSpace) (s : ByteStream) {n : Nat} (hn : n ≤ websockReadStrLen) :
    a.read s n = s.read n := by
  have hwide := a.wide
  have hreaches := a.reaches
  have hcount : a.count n = n := Nat.mod_eq_of_lt (by omega)
  rw [read, hcount, if_neg (by omega)]

/-- Linux on x86_64, with `read_str` at the start of the user space. -/
def amd64 : AddressSpace := ⟨64, 2 ^ 47 - 4096, by decide, by decide⟩

end AddressSpace

namespace Observed

variable {call : ByteStream → Nat → ReadResult × ByteStream}

def Quiet (events : List Event) : Prop := ∀ e ∈ events, ¬e.Reports

theorem quiet_nil : Quiet [] := fun _ he => absurd he List.not_mem_nil

theorem Quiet.append {events events' : List Event} (h : Quiet events) (h' : Quiet events') :
    Quiet (events ++ events') := fun e he => (List.mem_append.mp he).elim (h e) (h' e)

theorem quiet_access (buffer : Buffer) (start len : Nat) :
    (access buffer start len).Ensures fun _ events => Quiet events :=
  Traced.ensures_emit fun _ he => by rw [List.mem_singleton.mp he]; exact id

theorem readWhile_quiet (fuel : Nat) (st : ReadState) :
    (readWhile call fuel st).Ensures fun _ events => Quiet events := by
  induction fuel generalizing st with
  | zero => exact Traced.ensures_pure quiet_nil
  | succ fuel ih =>
      unfold readWhile
      split
      case isFalse => exact Traced.ensures_pure quiet_nil
      case isTrue =>
          refine (quiet_access _ _ _).bind fun _ events _ hevents => ?_
          cases call st.ws.socket st.remaining.toNat with
          | mk result socket =>
              cases result with
              | data bytes => exact (ih _).mono fun _ _ h => hevents.append h
              | closed => exact Traced.ensures_pure (hevents.append quiet_nil)
              | error => exact Traced.ensures_pure (hevents.append quiet_nil)

/-- Behind an error that is printed nothing is asked for. -/
theorem print_error {β : Type} {R : List Event → Prop} (severity : Severity)
    (text : String) (b : β) :
    (print severity text >>= fun _ => pure ((-1 : Int), b)).Ensures fun result events =>
      ¬result.1 < 0 → R events := by
  have hprint : (print severity text).Ensures fun _ _ => True := fun _ _ _ => trivial
  exact hprint.bind fun _ _ _ _ => Traced.ensures_pure fun h =>
    absurd (show (-1 : Int) < 0 by decide) h

theorem print_info (text : String) :
    (print .info text).Ensures fun _ events => Quiet events :=
  Traced.ensures_emit fun _ he => by
    rw [List.mem_singleton.mp he]
    exact fun h => h rfl

/-- What `read_n_bytes` prints without returning an error is an information. -/
theorem readExpected_quiet (fuel : Nat) (st : ReadState) :
    (readExpected call fuel st).Ensures fun result events => ¬result.1 < 0 → Quiet events := by
  induction fuel generalizing st with
  | zero => exact Traced.ensures_never
  | succ fuel ih =>
      unfold readExpected
      split
      case isFalse => exact Traced.ensures_pure fun _ => quiet_nil
      case isTrue =>
          refine (readWhile_quiet _ _).bind fun st' events _ hevents => ?_
          split
          case isTrue =>
              exact (print_info _).bind fun _ _ _ h =>
                Traced.ensures_pure fun _ => hevents.append (h.append quiet_nil)
          case isFalse =>
              split
              case isTrue => exact print_error _ _ _
              case isFalse => exact (ih st').mono fun _ _ h hret => hevents.append (h hret)

theorem checkOpcode_quiet (opcode : Nat) :
    (checkOpcode opcode).Ensures fun result events => ¬result < 0 → Quiet events := by
  have hfailed : ∀ text, (print .critical text >>= fun _ => pure (-1 : Int)).Ensures
      fun result events => ¬result < 0 → Quiet events := by
    intro text
    have hprint : (print .critical text).Ensures fun _ _ => True := fun _ _ _ => trivial
    exact hprint.bind fun _ _ _ _ => Traced.ensures_pure fun h => absurd (by decide) h
  unfold checkOpcode
  split
  case h_4 =>
      exact (print_info _).bind fun _ _ _ h => Traced.ensures_pure fun _ => h.append quiet_nil
  case h_2 => exact Traced.ensures_pure fun _ => quiet_nil
  case h_3 => exact Traced.ensures_pure fun _ => quiet_nil
  all_goals exact hfailed _

theorem checkPayloadSize_quiet (ws : WebSocket) :
    (checkPayloadSize ws).Ensures fun result events => ¬result.1 < 0 → Quiet events := by
  unfold checkPayloadSize
  split
  case isTrue => exact print_error _ _ _
  case isFalse => exact Traced.ensures_pure fun _ => quiet_nil

theorem readLong_quiet (n headerSize maskOffset : Nat) (size : WebSocket → Int) (ws : WebSocket) :
    (readLong call n headerSize maskOffset size ws).Ensures
      fun result events => ¬result.1 < 0 → Quiet events := by
  unfold readLong
  refine (readExpected_quiet _ _).bind fun result events _ hevents => ?_
  split
  case isTrue => exact Traced.ensures_pure fun h => absurd (show (-1 : Int) < 0 by decide) h
  case isFalse herr =>
      split
      case isTrue => exact Traced.ensures_pure fun _ => (hevents herr).append quiet_nil
      case isFalse =>
          refine (quiet_access _ _ _).bind fun _ events' _ hevents' => ?_
          exact (checkPayloadSize_quiet _).mono fun _ _ h hret =>
            (hevents herr).append (hevents'.append (h hret))

theorem readPayloadSize_quiet (streamSize : Nat) (ws : WebSocket) :
    (readPayloadSize call streamSize ws).Ensures fun result events =>
      ¬result.1 < 0 → Quiet events := by
  rcases readPayloadSize_cases call streamSize ws with hsmall | ⟨n, _, _, _, -, hlong⟩ | hnone
  · rw [hsmall]
    exact checkPayloadSize_quiet _
  · rw [hlong]
    exact readLong_quiet _ _ _ _ _
  · rw [hnone]
    exact print_error _ _ _

theorem readHeader_quiet (ws : WebSocket) :
    (readHeader call ws).Ensures fun result events => ¬result.1 < 0 → Quiet events := by
  unfold readHeader
  refine (readExpected_quiet _ _).bind fun result events _ hevents => ?_
  obtain ⟨err, ws'⟩ := result
  dsimp only
  split
  case isTrue => exact Traced.ensures_pure fun h => absurd (show (-1 : Int) < 0 by decide) h
  case isFalse herr =>
      have hread := hevents herr
      split
      case isTrue => exact Traced.ensures_pure fun _ => hread.append quiet_nil
      case isFalse =>
          refine (quiet_access _ _ _).bind fun _ events₁ _ hfirst => ?_
          refine (quiet_access _ _ _).bind fun _ events₂ _ hsecond => ?_
          refine (checkOpcode_quiet _).bind fun opcodeErr events₃ _ hopcode => ?_
          split
          case isTrue => exact Traced.ensures_pure fun h => absurd (show (-1 : Int) < 0 by decide) h
          case isFalse hcode =>
              have hbefore := fun {events₄ : List Event} (h : Quiet events₄) =>
                hread.append (hfirst.append (hsecond.append ((hopcode hcode).append h)))
              split
              case isTrue => exact Traced.ensures_pure fun _ => hbefore quiet_nil
              case isFalse =>
                  exact (readPayloadSize_quiet _ _).mono fun _ _ h hret => hbefore (h hret)

/-! ## Counts that the address space bounds -/

section

variable (a : AddressSpace)

theorem readWhile_within (fuel : Nat) {st : ReadState}
    (hremaining : st.remaining ≤ websockReadStrLen) :
    readWhile a.read fuel st = readWhile ByteStream.read fuel st := by
  induction fuel generalizing st with
  | zero => rfl
  | succ fuel ih =>
      unfold readWhile
      rw [a.read_eq _ (by omega)]
      split
      case isFalse => rfl
      case isTrue =>
          cases ByteStream.read st.ws.socket st.remaining.toNat with
          | mk result socket =>
              cases result with
              | data bytes =>
                  dsimp only
                  rw [ih]
                  show st.remaining - bytes.length ≤ websockReadStrLen
                  omega
              | closed => rfl
              | error => rfl

theorem readWhile_remaining (fuel : Nat) (st : ReadState) :
    (readWhile call fuel st).Ensures fun st' _ => st'.remaining ≤ st.remaining := by
  induction fuel generalizing st with
  | zero => exact Traced.ensures_pure (le_refl _)
  | succ fuel ih =>
      unfold readWhile
      split
      case isFalse => exact Traced.ensures_pure (le_refl _)
      case isTrue =>
          refine (quiet_access _ _ _).bind fun _ _ _ _ => ?_
          cases call st.ws.socket st.remaining.toNat with
          | mk result socket =>
              cases result with
              | data bytes =>
                  refine (ih _).mono fun st' _ h => le_trans h ?_
                  show st.remaining - bytes.length ≤ st.remaining
                  omega
              | closed => exact Traced.ensures_pure (le_refl _)
              | error => exact Traced.ensures_pure (le_refl _)

theorem readExpected_within (fuel : Nat) {st : ReadState}
    (hremaining : st.remaining ≤ websockReadStrLen) :
    readExpected a.read fuel st = readExpected ByteStream.read fuel st := by
  induction fuel generalizing st with
  | zero => rfl
  | succ fuel ih =>
      unfold readExpected
      rw [readWhile_within a _ hremaining]
      split
      case isFalse => rfl
      case isTrue =>
          refine (readWhile_remaining _ _).bind_congr fun st' _ hle => ?_
          rw [ih (le_trans hle hremaining)]

theorem readNBytes_within {n : Int} (hn : n ≤ websockReadStrLen) (ws : WebSocket) :
    readNBytes a.read n n ws = readNBytes ByteStream.read n n ws :=
  readExpected_within a _ hn

theorem readHeader_within (ws : WebSocket) : readHeader a.read ws =
    readHeader ByteStream.read ws := by
  have hsize : ∀ streamSize ws, readPayloadSize a.read streamSize ws =
      readPayloadSize ByteStream.read streamSize ws := by
    intro streamSize ws
    unfold readPayloadSize
    rw [readNBytes_within a (by decide), readNBytes_within a (by decide)]
  unfold readHeader
  rw [readNBytes_within a (by decide)]
  simp only [hsize]

/-- A count that the address space has room for meets the end of the stream. -/
theorem readNBytes_atEnd {n : Int} {ws : WebSocket} (hclean : ws.socket.Clean)
    (hnil : ws.socket.bytes = []) (hpos : 0 < n) (hcount : a.count n.toNat ≤ a.limit) :
    readNBytes a.read n n ws =
      some ((1, { ws with connectionClosed := true }),
        [.access .readStr ws.readStrLen n.toNat,
          .print .info "WebSocket: Connection closed by client\n"]) := by
  have hread : a.read ws.socket n.toNat = (.closed, ws.socket) := by
    rw [AddressSpace.read, if_neg (by omega), ByteStream.read_closed hclean _ hnil]
  obtain ⟨m, hm⟩ : ∃ m, n.toNat = m + 1 := ⟨n.toNat - 1, by omega⟩
  unfold readNBytes readExpected
  rw [if_pos hpos]
  dsimp only
  rw [show readWhile a.read n.toNat ⟨n, n, -1, ws⟩ = _ by rw [hm, readWhile, if_pos hpos]]
  simp only [hread]
  rfl

/-- One that it has no room for is tried for ever. -/
theorem readExpected_unaddressed (fuel : Nat) {st : ReadState} (hremaining : 0 < st.remaining)
    (hexpected : 0 < st.expected) (hcount : a.limit < a.count st.remaining.toNat)
    (hlen : st.ws.readStrLen ≠ kserverReadStrLen) : readExpected a.read fuel st = none := by
  induction fuel generalizing st with
  | zero => rfl
  | succ fuel ih =>
      have hread : a.read st.ws.socket st.remaining.toNat = (.error, st.ws.socket) := if_pos hcount
      obtain ⟨m, hm⟩ : ∃ m, st.remaining.toNat = m + 1 := ⟨st.remaining.toNat - 1, by omega⟩
      have hturn : readWhile a.read st.remaining.toNat st =
          some ({ st with bytesRead := -1 },
            [.access .readStr st.ws.readStrLen st.remaining.toNat]) := by
        rw [hm, readWhile, if_pos hremaining]
        simp only [hread]
        rw [← hm]
        rfl
      unfold readExpected
      rw [if_pos hexpected]
      refine Traced.bind_eq_none hturn ?_
      dsimp only
      rw [if_neg (by decide), if_neg hlen]
      exact ih hremaining hexpected hcount hlen

end

theorem readStream_of_read {ws ws₁ ws₂ : WebSocket} {err : Int} {events events' : List Event}
    (hheader : readHeader call (resetReadBuff ws) = some ((0, ws₁), events))
    (hread : readNBytes call ws₁.header.payloadSize ws₁.header.payloadSize ws₁ =
      some ((err, ws₂), events')) (herr : ¬err < 0) :
    readStream call ws = some ((err, ws₂), events ++ (events' ++ [])) := by
  unfold readStream
  refine Traced.bind_eq_some hheader ?_
  dsimp only
  rw [if_neg (by decide), if_neg (by decide)]
  refine Traced.bind_eq_some hread ?_
  dsimp only
  rw [if_neg herr]
  rfl

/-- Without an end of the payload there is none of the stream. -/
theorem receiveCmd_never {cmd : CommandBuffers} {ws ws₁ : WebSocket} {events : List Event}
    (hopen : ws.connectionClosed = false)
    (hheader : readHeader call (resetReadBuff ws) = some ((0, ws₁), events))
    (hread : readNBytes call ws₁.header.payloadSize ws₁.header.payloadSize ws₁ = none) :
    receiveCmd call cmd ws = none := by
  have hstream : readStream call ws = none := by
    unfold readStream
    refine Traced.bind_eq_none hheader ?_
    dsimp only
    rw [if_neg (by decide), if_neg (by decide), hread]
    rfl
  unfold receiveCmd
  rw [if_neg (by rw [hopen]; decide), hstream]
  rfl

theorem receiveCmd_closed (cmd : CommandBuffers) {ws ws' : WebSocket} {events : List Event}
    (hopen : ws.connectionClosed = false) (hstream : readStream call ws = some ((1, ws'), events)) :
    receiveCmd call cmd ws = some ((0, cmd, ws'), events ++ []) := by
  unfold receiveCmd
  rw [if_neg (by rw [hopen]; decide)]
  exact Traced.bind_eq_some hstream rfl

/-- Behind a stream that `read_stream` has read, `receive_cmd` decodes. -/
theorem receiveCmd_decodes {cmd : CommandBuffers} {ws ws' : WebSocket} {events : List Event}
    (hopen : ws.connectionClosed = false) (hstream : readStream call ws = some ((0, ws'), events)) :
    (receiveCmd call cmd ws).Ensures fun _ events => Event.decode ∈ events := by
  have hdecode : (decodeRawStreamCmd ws' cmd).Ensures fun _ events => Event.decode ∈ events := by
    unfold decodeRawStreamCmd
    have hemit : (Traced.emit [Event.decode]).Ensures fun _ events => Event.decode ∈ events :=
      Traced.ensures_emit (List.mem_singleton_self _)
    exact hemit.bind fun _ _ _ h _ _ _ => List.mem_append_left _ h
  have hread : (readStream call ws).Ensures fun result _ => result = (0, ws') := by
    intro result events' hresult
    rw [hstream] at hresult
    exact (Prod.mk.inj (Option.some.inj hresult)).1.symm
  unfold receiveCmd
  rw [if_neg (by rw [hopen]; decide)]
  refine hread.bind fun result events' _ hresult => ?_
  subst hresult
  dsimp only
  rw [if_neg (by decide), if_neg (by decide)]
  exact hdecode.bind fun _ _ _ h _ _ _ => List.mem_append_right _ (List.mem_append_left _ h)

end Observed

/-- `receive_cmd` returns 0 with the connection closed; nothing is decoded, and no error is
reported. -/
def CleanClose (a : AddressSpace) (cmd : CommandBuffers) (ws : WebSocket) : Prop :=
  ∃ cmd' ws' events, Observed.receiveCmd a.read cmd ws = some ((0, cmd', ws'), events) ∧
    ws'.connectionClosed = true ∧ ∀ e ∈ events, ¬e.Reports

theorem readHeader_cut_within (a : AddressSpace) {ws : WebSocket}
    (hopen : ws.connectionClosed = false)
    (hclean : ws.socket.Clean) (hcut : HeaderCut ws.socket.bytes) :
    ∃ ws' events, Observed.readHeader a.read (resetReadBuff ws) = some ((0, ws'), events) ∧
      Observed.Quiet events ∧ ws'.connectionClosed = true ∧ ws'.socket.Clean ∧
      ws'.socket.bytes = [] ∧ ws'.header.payloadSize = ws.header.payloadSize ∧
      ws'.readStrLen ≤ 14 := by
  have hempty : (resetReadBuff ws).readStrLen = 0 := rfl
  obtain ⟨ws', hheader, hclosed, hclean', hnil, hstale⟩ := readHeader_cut hempty hopen hclean hcut
  rw [← Observed.erase_readHeader] at hheader
  obtain ⟨events, hevents⟩ := Traced.exists_of_erase hheader
  have hquiet := Observed.readHeader_quiet _ _ events hevents (show ¬(0 : Int) < 0 by decide)
  have hlen := (Observed.readHeader_inBounds hempty _ events hevents).2
  rw [← Observed.readHeader_within a] at hevents
  exact ⟨ws', events, hevents, hquiet, hclosed, hclean', hnil, hstale, hlen⟩

/-- A stream that ends inside a header closes cleanly exactly when the payload size that was there
before the header is positive and one that `read` takes. -/
theorem headerCut_cleanClose_iff (a : AddressSpace) (cmd : CommandBuffers) {ws : WebSocket}
    (hopen : ws.connectionClosed = false) (hclean : ws.socket.Clean)
    (hcut : HeaderCut ws.socket.bytes) :
    CleanClose a cmd ws ↔
      0 < ws.header.payloadSize ∧ a.count ws.header.payloadSize.toNat ≤ a.limit := by
  obtain ⟨ws₁, events, hheader, hquiet, hclosed, hclean₁, hnil, hstale, hlen⟩ :=
    readHeader_cut_within a hopen hclean hcut
  rw [← hstale]
  by_cases hpos : 0 < ws₁.header.payloadSize
  · by_cases hcount : a.count ws₁.header.payloadSize.toNat ≤ a.limit
    · -- The payload that is asked for meets the end of the stream once more.
      have hread := Observed.readNBytes_atEnd a hclean₁ hnil hpos hcount
      have hstream := Observed.readStream_of_read hheader hread (show ¬(1 : Int) < 0 by decide)
      have hreceive := Observed.receiveCmd_closed cmd hopen hstream
      refine ⟨fun _ => ⟨hpos, hcount⟩, fun _ => ⟨_, _, _, hreceive, rfl, ?_⟩⟩
      refine Observed.Quiet.append (hquiet.append ?_) Observed.quiet_nil
      intro e he
      simp only [List.append_nil, List.mem_cons, List.not_mem_nil, or_false] at he
      rcases he with rfl | rfl
      · exact id
      · exact fun h => h rfl
    · have hread : Observed.readNBytes a.read ws₁.header.payloadSize ws₁.header.payloadSize ws₁ = none := by
        refine Observed.readExpected_unaddressed a _ hpos hpos (by simpa using hcount) ?_
        have hfull : kserverReadStrLen = 16384 := rfl
        show ws₁.readStrLen ≠ kserverReadStrLen
        omega
      refine ⟨fun h => ?_, fun h => absurd h.2 hcount⟩
      obtain ⟨cmd', ws', events', hreceive, -⟩ := h
      rw [Observed.receiveCmd_never hopen hheader hread] at hreceive
      cases hreceive
  · have hread : Observed.readNBytes a.read ws₁.header.payloadSize ws₁.header.payloadSize ws₁ =
        some ((0, ws₁), []) := by
      unfold Observed.readNBytes Observed.readExpected
      rw [if_neg (by simpa using hpos)]
      rfl
    have hstream := Observed.readStream_of_read hheader hread (show ¬(0 : Int) < 0 by decide)
    refine ⟨fun h => ?_, fun h => absurd h.1 hpos⟩
    obtain ⟨cmd', ws', events', hreceive, -, hevents⟩ := h
    have hdecode := Observed.receiveCmd_decodes hopen hstream _ _ hreceive
    exact absurd trivial (hevents _ hdecode)

/-- The object behind the handshake on a connection that its client then closes, with the fields
of the header all zero: the close is taken for a frame that is not understood. -/
theorem fresh_not_cleanClose :
    HeaderCut (WebSocket.fresh []).socket.bytes ∧
      ¬CleanClose .amd64 ⟨fun _ => 0, fun _ => 0⟩ (.fresh []) ∧
      ∃ cmd' ws' events, Observed.receiveCmd AddressSpace.amd64.read ⟨fun _ => 0, fun _ => 0⟩
        (.fresh []) =
        some ((-1, cmd', ws'), events) := by
  have hstream : Observed.readStream AddressSpace.amd64.read (.fresh []) =
      some ((0, { resetReadBuff (.fresh []) with connectionClosed := true }), _) := rfl
  refine ⟨headerCut_nil, ?_, _, _, _, rfl⟩
  rintro ⟨cmd', ws', events, hreceive, -, hquiet⟩
  have hdecode := Observed.receiveCmd_decodes rfl hstream _ _ hreceive
  exact absurd trivial (hquiet _ hdecode)

/-- The same connection behind a frame of eight bytes. -/
theorem behindFrame_cleanClose :
    CleanClose .amd64 ⟨fun _ => 0, fun _ => 0⟩
      { WebSocket.fresh [] with header := ⟨6, 2, 8, true, true, 2⟩ } := by
  apply (headerCut_cleanClose_iff .amd64 _ _ _ _).mpr
  · constructor
    · decide
    · decide
  · rfl
  · exact ByteStream.ofBytes_clean []
  · exact headerCut_nil

end KoheronServer.Websocket
