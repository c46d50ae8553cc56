import KoheronServer.Websocket.Headers
import KoheronServer.Websocket.Observed

/-!
# The buffers behind a header that arrives

Whatever a header that arrives whole says, receiving its command stays inside the read
buffer and inside the two buffers of the command. The signed payload size has an upper
bound only, so a length with the top bit passes as a negative one; it is not read,
and the decoder finds nothing behind the header.
-/

namespace KoheronServer.Websocket

open Foundation Wire Session

namespace Observed

/-! ## Reading -/

theorem access_inBounds {buffer : Buffer} {start len : Nat} (h : start + len ≤ buffer.capacity) :
    Traced.Only Event.InBounds (fun _ => True) (access buffer start len) :=
  Traced.only_emit fun _ he => by
    rw [List.mem_singleton.mp he]
    exact h

theorem print_inBounds (severity : Severity) (text : String) :
    Traced.Only Event.InBounds (fun _ => True) (print severity text) :=
  Traced.only_emit fun _ he => by
    rw [List.mem_singleton.mp he]
    trivial

theorem readWhile_inBounds {bound : Nat} (hbound : bound ≤ websockReadStrLen) (fuel : Nat)
    {st : ReadState} (hremaining : 0 ≤ st.remaining)
    (hlen : (st.ws.readStrLen : Int) + st.remaining ≤ bound) :
    Traced.Only Event.InBounds
      (fun st' => 0 ≤ st'.remaining ∧ (st'.ws.readStrLen : Int) + st'.remaining ≤ bound)
      (readWhile ByteStream.read fuel st) := by
  induction fuel generalizing st with
  | zero => exact Traced.only_pure ⟨hremaining, hlen⟩
  | succ fuel ih =>
      unfold readWhile
      split
      case isFalse => exact Traced.only_pure ⟨hremaining, hlen⟩
      case isTrue hpos =>
          have hfits : st.ws.readStrLen + st.remaining.toNat ≤ Buffer.readStr.capacity := by
            show st.ws.readStrLen + st.remaining.toNat ≤ websockReadStrLen
            omega
          refine (access_inBounds hfits).bind fun _ _ _ => ?_
          rcases read_cases st.ws.socket (show 0 < st.remaining.toNat by omega) with
            ⟨bs, socket, hread, -, hle, -⟩ | hread | ⟨socket, hread, -⟩
          · rw [hread]
            refine ih (show (0 : Int) ≤ st.remaining - bs.length by omega) ?_
            show ((st.ws.readStrLen + bs.length : Nat) : Int) + (st.remaining - bs.length) ≤ bound
            omega
          · rw [hread]
            exact Traced.only_pure ⟨hremaining, hlen⟩
          · rw [hread]
            exact Traced.only_pure ⟨hremaining, hlen⟩

theorem readExpected_inBounds {bound : Nat} (hbound : bound ≤ websockReadStrLen) (fuel : Nat)
    {st : ReadState} (hremaining : 0 ≤ st.remaining)
    (hlen : (st.ws.readStrLen : Int) + st.remaining ≤ bound) :
    Traced.Only Event.InBounds (fun result => result.2.readStrLen ≤ bound)
    (readExpected ByteStream.read fuel st) := by
  induction fuel generalizing st with
  | zero => exact Traced.ensures_never
  | succ fuel ih =>
      unfold readExpected
      split
      case isFalse => exact Traced.only_pure (by show st.ws.readStrLen ≤ bound; omega)
      case isTrue =>
          refine (readWhile_inBounds hbound _ hremaining hlen).bind fun st' _ hst' => ?_
          obtain ⟨hremaining', hlen'⟩ := hst'
          have hfits : st'.ws.readStrLen ≤ bound := by omega
          split
          case isTrue =>
              exact (print_inBounds _ _).bind fun _ _ _ => Traced.only_pure hfits
          case isFalse =>
              split
              case isTrue => exact (print_inBounds _ _).bind fun _ _ _ => Traced.only_pure hfits
              case isFalse => exact ih hremaining' hlen'

/-- `read_n_bytes` stays in the buffer when the buffer has room for what is asked for. -/
theorem readNBytes_inBounds {n : Int} {ws : WebSocket} (bound : Nat)
    (hbound : bound ≤ websockReadStrLen) (hn : 0 ≤ n) (hlen : (ws.readStrLen : Int) + n ≤ bound) :
    Traced.Only Event.InBounds (fun result => result.2.readStrLen ≤ bound)
    (readNBytes ByteStream.read n n ws) :=
  readExpected_inBounds hbound _ hn hlen

/-! ## The header -/

theorem checkOpcode_inBounds (opcode : Nat) :
    Traced.Only Event.InBounds (fun _ => True) (checkOpcode opcode) := by
  unfold checkOpcode
  split
  case h_2 => exact Traced.only_pure trivial
  case h_3 => exact Traced.only_pure trivial
  all_goals exact (print_inBounds _ _).bind fun _ _ _ => Traced.only_pure trivial

theorem checkPayloadSize_inBounds {ws : WebSocket} {bound : Nat} (h : ws.readStrLen ≤ bound) :
    Traced.Only Event.InBounds (fun result => result.2.readStrLen ≤ bound)
    (checkPayloadSize ws) := by
  unfold checkPayloadSize
  split
  case isTrue => exact (print_inBounds _ _).bind fun _ _ _ => Traced.only_pure h
  case isFalse => exact Traced.only_pure h

theorem readLong_inBounds {n : Nat} (hn : n ≤ 8) (headerSize maskOffset : Nat)
    (size : WebSocket → Int) {ws : WebSocket} (hlen : ws.readStrLen ≤ 6) :
    Traced.Only Event.InBounds (fun result => result.2.readStrLen ≤ 14)
      (readLong ByteStream.read n headerSize maskOffset size ws) := by
  unfold readLong
  refine (readNBytes_inBounds 14 (by decide) (by omega) (by omega)).bind fun result _ hresult => ?_
  split
  case isTrue => exact Traced.only_pure hresult
  case isFalse =>
      split
      case isTrue => exact Traced.only_pure hresult
      case isFalse =>
          have hfits : 2 + n ≤ Buffer.readStr.capacity := by
            show 2 + n ≤ websockReadStrLen
            unfold websockReadStrLen
            omega
          exact (access_inBounds hfits).bind fun _ _ _ => checkPayloadSize_inBounds hresult

/-- A header takes fourteen bytes at most. -/
theorem readPayloadSize_inBounds (streamSize : Nat) {ws : WebSocket} (hlen : ws.readStrLen ≤ 6) :
    Traced.Only Event.InBounds (fun result => result.2.readStrLen ≤ 14)
      (readPayloadSize ByteStream.read streamSize ws) := by
  have hfits : ws.readStrLen ≤ 14 := by omega
  rcases readPayloadSize_cases ByteStream.read streamSize ws with hsmall |
    ⟨n, _, _, _, hn, hlong⟩ | hnone
  · rw [hsmall]
    exact checkPayloadSize_inBounds hfits
  · rw [hlong]
    exact readLong_inBounds hn _ _ _ hlen
  · rw [hnone]
    exact (print_inBounds _ _).bind fun _ _ _ => Traced.only_pure hfits

theorem readHeader_inBounds {ws : WebSocket} (hempty : ws.readStrLen = 0) :
    Traced.Only Event.InBounds (fun result => result.2.readStrLen ≤ 14)
    (readHeader ByteStream.read ws) := by
  have hsix : (ws.readStrLen : Int) + 6 ≤ (6 : Nat) := by omega
  have hfirst : 0 + 1 ≤ Buffer.readStr.capacity := by decide
  have hsecond : 1 + 1 ≤ Buffer.readStr.capacity := by decide
  unfold readHeader
  refine (readNBytes_inBounds 6 (by decide) (by decide) hsix).bind fun result _ hresult => ?_
  obtain ⟨err, ws'⟩ := result
  have hlen : ws'.readStrLen ≤ 6 := hresult
  have hhead : ws'.readStrLen ≤ 14 := by omega
  dsimp only
  split
  case isTrue => exact Traced.only_pure hhead
  case isFalse =>
      split
      case isTrue => exact Traced.only_pure hhead
      case isFalse =>
          refine (access_inBounds hfirst).bind fun _ _ _ => ?_
          refine (access_inBounds hsecond).bind fun _ _ _ => ?_
          refine (checkOpcode_inBounds _).bind fun opcodeErr _ _ => ?_
          split
          case isTrue => exact Traced.only_pure hhead
          case isFalse =>
              split
              case isTrue => exact Traced.only_pure hhead
              case isFalse => exact readPayloadSize_inBounds _ hlen

/-! ## The payload -/

theorem unmaskAccesses_inBounds {ws : WebSocket} (buffer : Buffer) (first n : Nat)
    (hmask : ws.header.maskOffset ≤ 10) (hread : first + n ≤ websockReadStrLen - 56)
    (hwrite : n ≤ buffer.capacity) :
    ∀ e ∈ unmaskAccesses ws buffer first n, e.InBounds := by
  intro e he
  obtain ⟨i, hi, he⟩ := List.mem_flatMap.mp he
  obtain ⟨j, hj, rfl⟩ := List.mem_range'.mp hi
  have hmod : (first + 1 * j) % 4 < 4 := Nat.mod_lt _ (by decide)
  simp only [List.mem_cons, List.not_mem_nil, or_false] at he
  unfold websockReadStrLen at hread
  rcases he with rfl | rfl | rfl
  · show ws.header.maskOffset + 4 + (first + 1 * j) + 1 ≤ websockReadStrLen
    unfold websockReadStrLen
    omega
  · show ws.header.maskOffset + (first + 1 * j) % 4 + 1 ≤ websockReadStrLen
    unfold websockReadStrLen
    omega
  · show first + 1 * j - first + 1 ≤ buffer.capacity
    omega

/-- What the decoder relies on, which it does not test. -/
structure Decodable (ws : WebSocket) : Prop where
  maskOffset : ws.header.headerSize < ws.readStrLen → ws.header.maskOffset ≤ 10
  payloadSize : ws.header.payloadSize ≤ websockReadStrLen - 56

theorem decodeRawStreamCmd_inBounds {ws : WebSocket} (cmd : CommandBuffers) (h : Decodable ws) :
    Traced.Only Event.InBounds (fun _ => True) (decodeRawStreamCmd ws cmd) := by
  have hsize := h.payloadSize
  have hdecode : Traced.Only Event.InBounds (fun _ => True) (Traced.emit [Event.decode]) :=
    Traced.only_emit fun _ he => by
      rw [List.mem_singleton.mp he]
      trivial
  unfold websockReadStrLen at hsize
  unfold decodeRawStreamCmd
  refine hdecode.bind fun _ _ _ => ?_
  split
  case isTrue => exact Traced.only_pure trivial
  case isFalse hlong =>
      have hread : headerSize + (ws.header.payloadSize - headerSize).toNat ≤
        websockReadStrLen - 56 := by
        unfold headerSize websockReadStrLen
        omega
      have hwrite : (ws.header.payloadSize - headerSize).toNat ≤ Buffer.cmdPayload.capacity := by
        show _ ≤ cmdPayloadBufferLen
        unfold headerSize cmdPayloadBufferLen
        omega
      have hheader := unmaskAccesses_inBounds .cmdHeader 0 headerSize
        (h.maskOffset (by omega)) (by decide)
        (Nat.le_refl _)
      have hpayload := unmaskAccesses_inBounds .cmdPayload headerSize _
        (h.maskOffset (by omega)) hread hwrite
      refine (Traced.only_emit hheader).bind fun _ _ _ => ?_
      refine (Traced.only_emit hpayload).bind fun _ _ _ => ?_
      exact Traced.only_pure trivial

end Observed

/-! ## Frames -/

/-- The size of the payload that the next header declares, as an unsigned number. -/
def declaredSize : Bytes → Nat
  | _ :: second :: rest =>
      let streamSize := (second &&& 0x7F).toNat
      if streamSize ≤ 125 then streamSize
      else if streamSize = 126 then beValue (rest.take 2)
      else beValue (rest.take 8)
  | _ => 0

/-- A text or binary frame with a payload that the buffer is too small for; a 64-bit length of
2^63 or more is one of these. -/
structure TooLarge (bytes : Bytes) : Prop where
  opcode : ∀ first rest, bytes = first :: rest → TextOrBinary first
  large : websockReadStrLen - 56 < declaredSize bytes

theorem declaredSize_stated (first : Byte) (key rest : Bytes) {second : Byte} {extended : Bytes}
    {n : Nat} (h : statedLength second extended = some n) :
    declaredSize (first :: second :: (extended ++ key) ++ rest) = n ∧ extended.length ≤ 8 := by
  unfold statedLength at h
  dsimp only at h
  have hform : ∀ k, extended.length = k → (extended ++ key ++ rest).take k = extended := by
    intro k hk
    rw [List.append_assoc, List.take_left' hk]
  simp only [declaredSize, List.cons_append]
  split at h
  case isTrue hsmall =>
      rw [if_pos hsmall]
      split at h
      case isTrue hlen => exact ⟨Option.some.inj h, by omega⟩
      case isFalse => cases h
  case isFalse hsmall =>
      rw [if_neg hsmall]
      split at h
      case isTrue hmedium =>
          rw [if_pos hmedium]
          split at h
          case isTrue hlen => exact ⟨by rw [hform 2 hlen]; exact Option.some.inj h, by omega⟩
          case isFalse => cases h
      case isFalse hmedium =>
          rw [if_neg hmedium]
          split at h
          case isTrue hlen => exact ⟨by rw [hform 8 hlen]; exact Option.some.inj h, by omega⟩
          case isFalse => cases h

section

variable {ws : WebSocket}

theorem HeaderTaken.readStrLen {first second : Byte} {extended key : Bytes} {ws ws' : WebSocket}
    (h : HeaderTaken first second extended key ws ws') :
    ws'.readStrLen = ws'.header.headerSize := by
  have hlen := congrArg List.length h.received
  simp only [WebSocket.received, Memory.load_length, List.length_cons, List.length_append,
    h.key_length] at hlen
  rw [h.headerSize, hlen]
  omega

/-- What the decoder finds behind a header that arrives. -/
theorem readPayload_decodable {ws₁ ws' : WebSocket}
    (hheader : readHeader (resetReadBuff ws) = some (0, ws₁))
    (hopen : ws₁.connectionClosed = false) {err : Int}
    (hread : readNBytes ws₁.header.payloadSize ws₁.header.payloadSize ws₁ = some (err, ws'))
    (hneg : ¬err < 0) (hone : err ≠ 1) : Observed.Decodable ws' := by
  obtain ⟨first, second, extended, key, htaken⟩ :=
    readHeader_taken (show (resetReadBuff ws).readStrLen = 0 from rfl) hheader hopen
  have hbound := htaken.payloadSize
  by_cases hsize : ws₁.header.payloadSize < 0
  · -- Nothing is read.
    rw [readNBytes_nonpos (by omega)] at hread
    cases hread
    have hlen := htaken.readStrLen
    exact ⟨fun h => by omega, hbound⟩
  · obtain ⟨k, hk⟩ : ∃ k : Nat, ws₁.header.payloadSize = k :=
      ⟨ws₁.header.payloadSize.toNat, by omega⟩
    have hmask := htaken.maskOffset
    have hextended := (declaredSize_stated first key [] (htaken.stated (by omega))).2
    rw [hk] at hread
    rcases readNBytes_takes hread with h | ⟨h, -⟩ | ⟨-, -, taken, -, htakes⟩
    · omega
    · exact absurd h hone
    · refine ⟨fun _ => ?_, ?_⟩
      · rw [htakes.header]
        omega
      · rw [htakes.header]
        exact hbound

theorem readPayload_inBounds {ws₁ : WebSocket}
    (hheader : readHeader (resetReadBuff ws) = some (0, ws₁))
    (hopen : ws₁.connectionClosed = false) (hlen : ws₁.readStrLen ≤ 14) :
    Traced.Only Observed.Event.InBounds (fun result => result.2.readStrLen ≤ websockReadStrLen)
      (Observed.readNBytes ByteStream.read ws₁.header.payloadSize ws₁.header.payloadSize ws₁) := by
  obtain ⟨first, second, extended, key, htaken⟩ :=
    readHeader_taken (show (resetReadBuff ws).readStrLen = 0 from rfl) hheader hopen
  have hbound := htaken.payloadSize
  unfold websockReadStrLen at hbound
  by_cases hsize : ws₁.header.payloadSize < 0
  · unfold Observed.readNBytes Observed.readExpected
    rw [if_neg (show ¬ws₁.header.payloadSize > 0 by omega)]
    refine Traced.only_pure ?_
    show ws₁.readStrLen ≤ websockReadStrLen
    unfold websockReadStrLen
    omega
  · refine Observed.readNBytes_inBounds _ (Nat.le_refl _) (by omega) ?_
    unfold websockReadStrLen
    omega

theorem readStream_inBounds (hopen : ws.connectionClosed = false) (hclean : ws.socket.Clean)
    (hheader : HeaderArrives ws.socket.bytes) :
    Traced.Only Observed.Event.InBounds
      (fun result => result.2.readStrLen ≤ websockReadStrLen ∧
        (¬result.1 < 0 → result.1 ≠ 1 → Observed.Decodable result.2))
      (Observed.readStream ByteStream.read ws) := by
  obtain ⟨ret, ws₁, hhead, hstill, -⟩ := readHeader_arrives
    (show (resetReadBuff ws).readStrLen = 0 from rfl) hopen hclean hheader
  have hfailed : ¬(-1 : Int) < 0 → ∀ {P : Prop}, P := fun h => absurd (by decide) h
  unfold Observed.readStream
  refine (Observed.readHeader_inBounds (show (resetReadBuff ws).readStrLen = 0 from rfl)).bind
    fun result hresult hlen => ?_
  rw [Observed.erase_readHeader, hhead] at hresult
  obtain rfl := Option.some.inj hresult
  have hfourteen : ws₁.readStrLen ≤ 14 := hlen
  have hfits : ws₁.readStrLen ≤ websockReadStrLen := Nat.le_trans hlen (by decide)
  dsimp only
  split
  case isTrue =>
      exact (Observed.print_inBounds _ _).bind fun _ _ _ =>
        Traced.only_pure ⟨hfits, fun h => hfailed h⟩
  case isFalse hneg =>
      split
      case isTrue hone => exact Traced.only_pure ⟨hfits, fun _ h => absurd hone h⟩
      case isFalse hone =>
          have hzero : ret = 0 := by
            rcases readHeader_ret hhead with h | h | ⟨h, -⟩ <;> omega
          subst hzero
          have hopen₁ := hstill rfl
          refine (readPayload_inBounds hhead hopen₁ hfourteen).bind fun result hresult hlen' => ?_
          obtain ⟨err, ws'⟩ := result
          rw [Observed.erase_readNBytes] at hresult
          dsimp only
          split
          case isTrue =>
              exact (Observed.print_inBounds _ _).bind fun _ _ _ =>
                Traced.only_pure ⟨hlen', fun h => hfailed h⟩
          case isFalse =>
              exact Traced.only_pure ⟨hlen', readPayload_decodable hhead hopen₁ hresult⟩

/-- A frame that is too large for the buffer is an error. -/
theorem receiveCmd_tooLarge (hopen : ws.connectionClosed = false) (hclean : ws.socket.Clean)
    (hheader : HeaderArrives ws.socket.bytes) (hlarge : TooLarge ws.socket.bytes)
    (cmd : CommandBuffers) : ∃ ws', receiveCmd cmd ws = some (-1, cmd, ws') := by
  obtain ⟨ret, ws₁, hhead, hstill, hone⟩ := readHeader_arrives
    (show (resetReadBuff ws).readStrLen = 0 from rfl) hopen hclean hheader
  rcases readHeader_ret hhead with rfl | rfl | ⟨rfl, -⟩
  · refine ⟨ws₁, ?_⟩
    simp only [receiveCmd, hopen, readStream, hhead]
    rfl
  · -- The size has passed the test, so it is negative.
    obtain ⟨first, second, extended, key, htaken⟩ :=
      readHeader_taken (show (resetReadBuff ws).readStrLen = 0 from rfl) hhead (hstill rfl)
    have hneg : ws₁.header.payloadSize < 0 := by
      by_contra hnonneg
      have hdeclared :=
        (declaredSize_stated first key ws₁.socket.bytes (htaken.stated (by omega))).1
      have hsocket : ws.socket.bytes = first :: second :: (extended ++ key) ++ ws₁.socket.bytes :=
        htaken.socket
      have hbound := htaken.payloadSize
      have hsize := hlarge.large
      rw [hsocket, hdeclared] at hsize
      unfold websockReadStrLen at hbound hsize
      omega
    have hstream : readStream ws = some (0, ws₁) := by
      have hread := readNBytes_nonpos (show ws₁.header.payloadSize ≤ 0 by omega) ws₁
      simp only [readStream, hhead, hread]
      rfl
    have hdecode : decodeRawStreamCmd ws₁ cmd = (-1, cmd) := by
      rw [decodeRawStreamCmd, if_pos (by rw [htaken.readStrLen]; omega)]
    exact ⟨ws₁, by simp [receiveCmd, hopen, hstream, hdecode]⟩
  · obtain ⟨first, second, rest, hbytes, -⟩ := hheader
    exact absurd rfl (hone first _ hbytes (hlarge.opcode first _ hbytes))

/-- Receiving a command from a frame whose header arrives stays inside the three buffers, and a
frame that is too large for them is an error. -/
theorem receiveCmd_inBounds (hopen : ws.connectionClosed = false) (hclean : ws.socket.Clean)
    (hheader : HeaderArrives ws.socket.bytes) (cmd : CommandBuffers) :
    ∃ ret cmd' ws' events, Observed.receiveCmd ByteStream.read cmd ws =
    some ((ret, cmd', ws'), events) ∧
      (∀ e ∈ events, e.InBounds) ∧ (TooLarge ws.socket.bytes → ret = -1) ∧
      ws'.readStrLen ≤ websockReadStrLen := by
  have hbounds : Traced.Only Observed.Event.InBounds
      (fun result => result.2.2.readStrLen ≤ websockReadStrLen)
        (Observed.receiveCmd ByteStream.read cmd ws) := by
    unfold Observed.receiveCmd
    rw [if_neg (by rw [hopen]; decide)]
    refine (readStream_inBounds hopen hclean hheader).bind fun result _ ⟨hlen, hdecodable⟩ => ?_
    obtain ⟨err, ws'⟩ := result
    dsimp only
    split
    case isTrue => exact Traced.only_pure hlen
    case isFalse hneg =>
        split
        case isTrue => exact Traced.only_pure hlen
        case isFalse hone =>
            refine (Observed.decodeRawStreamCmd_inBounds cmd (hdecodable hneg hone)).bind
              fun decoded _ _ => ?_
            split
            case isTrue =>
                exact (Observed.print_inBounds _ _).bind fun _ _ _ => Traced.only_pure hlen
            case isFalse => exact Traced.only_pure hlen
  obtain ⟨result, hreceive⟩ : ∃ result, receiveCmd cmd ws = some result := by
    obtain ⟨err, ws₁, hstream, -⟩ := readStream_clean hclean
    simp only [receiveCmd, hopen, hstream]
    split_ifs <;> exact ⟨_, rfl⟩
  obtain ⟨ret, cmd', ws'⟩ := result
  have herase := hreceive
  rw [← Observed.erase_receiveCmd] at herase
  obtain ⟨events, hevents⟩ := Traced.exists_of_erase herase
  obtain ⟨hin, hlen⟩ := hbounds _ _ hevents
  refine ⟨ret, cmd', ws', events, hevents, hin, fun hlarge => ?_, hlen⟩
  obtain ⟨ws'', htoo⟩ := receiveCmd_tooLarge hopen hclean hheader hlarge cmd
  rw [hreceive] at htoo
  exact (Prod.mk.inj (Option.some.inj htoo)).1

end

def largestHeader : Bytes := 0x82 :: 0xFF :: (List.replicate 8 0xFF ++ [1, 2, 3, 4])

/-- The header on a connection that is closed behind it. -/
theorem receiveCmd_inBounds_largest :
    ∃ ret cmd' ws' events,
      Observed.receiveCmd ByteStream.read ⟨fun _ => 0, fun _ => 0⟩ (.fresh largestHeader) =
        some ((ret, cmd', ws'), events) ∧
      (∀ e ∈ events, e.InBounds) ∧ ret = -1 ∧ ws'.readStrLen ≤ websockReadStrLen := by
  have hbytes : (WebSocket.fresh largestHeader).socket.bytes = largestHeader :=
    ByteStream.ofBytes_bytes _
  have harrives : HeaderArrives (WebSocket.fresh largestHeader).socket.bytes :=
    ⟨0x82, 0xFF, _, hbytes, by rw [hbytes]; decide⟩
  have hlarge : TooLarge (WebSocket.fresh largestHeader).socket.bytes := by
    rw [hbytes]
    refine ⟨fun first rest h => ?_, by decide⟩
    obtain ⟨rfl, -⟩ := List.cons.inj h
    exact .inr (by decide)
  obtain ⟨ret, cmd', ws', events, hreceive, hin, hret, hlen⟩ :=
    receiveCmd_inBounds rfl (ByteStream.ofBytes_clean _) harrives ⟨fun _ => 0, fun _ => 0⟩
  exact ⟨ret, cmd', ws', events, hreceive, hin, hret hlarge, hlen⟩

end KoheronServer.Websocket
