import KoheronServer.Foundation.Writes
import KoheronServer.Session.TcpReceive
import KoheronServer.Websocket.Receive

/-!
# Sending on a WebSocket

`set_send_header`, `send_request` and `send` of `WebSocket`. A frame is written in
as many calls as it takes, so it is written whole unless the last call is not the
one that takes all.
-/

namespace KoheronServer.Websocket

open Foundation Session

def websockSendBufLen : Nat := 16384 * 2 * 4

/-- `(1 << 7) + BINARY_FRAME`. -/
def binaryFormat : Byte := 0x82

/-- `set_send_header`: what it leaves in front of `mask_offset`. -/
def setSendHeader (dataLen : Nat) (format : Byte) : Bytes :=
  let byte (shift : Nat) : Byte := BitVec.ofNat 8 (dataLen / 2 ^ shift)
  if dataLen ≤ 125 then [format, byte 0]
  else if dataLen ≤ 0xFFFF then [format, 126, byte 8, byte 0]
  else
    [format, 127, byte 56, byte 48, byte 40, byte 32, byte 24, byte 16, byte 8, byte 0]

def sendFrame (data : Bytes) : Bytes := setSendHeader data.length binaryFormat ++ data

/-- The value that `set_send_header` returns. -/
def sendMaskOffset (dataLen : Nat) : Nat :=
  if dataLen ≤ 125 then 2 else if dataLen ≤ 0xFFFF then 4 else 10

@[simp] theorem setSendHeader_length (dataLen : Nat) (format : Byte) :
    (setSendHeader dataLen format).length = sendMaskOffset dataLen := by
  unfold setSendHeader sendMaskOffset
  split
  · rfl
  · split <;> rfl

theorem sendMaskOffset_pos (dataLen : Nat) : 0 < sendMaskOffset dataLen := by
  unfold sendMaskOffset
  split
  · omega
  · split <;> omega

theorem sendMaskOffset_le (dataLen : Nat) : sendMaskOffset dataLen ≤ 10 := by
  unfold sendMaskOffset
  split
  · omega
  · split <;> omega

theorem sendMaskOffset_mono {n m : Nat} (h : n ≤ m) : sendMaskOffset n ≤ sendMaskOffset m := by
  unfold sendMaskOffset
  split_ifs <;> omega

@[simp] theorem sendFrame_length (data : Bytes) :
    (sendFrame data).length = sendMaskOffset data.length + data.length := by
  simp [sendFrame]

/-- A frame tells its message: a longer message has a longer frame. -/
theorem sendFrame_injective : Function.Injective sendFrame := by
  intro data data' h
  have hlength := congrArg List.length h
  simp only [sendFrame_length] at hlength
  have hsame : data.length = data'.length := by
    rcases Nat.lt_trichotomy data.length data'.length with hlt | heq | hlt
    · have hmono := sendMaskOffset_mono (Nat.le_of_lt hlt)
      omega
    · exact heq
    · have hmono := sendMaskOffset_mono (Nat.le_of_lt hlt)
      omega
  rw [sendFrame, sendFrame, hsame] at h
  exact List.append_cancel_left h

/-! ## `send_request` -/

structure SendState where
  bytesSend : Int
  offset : Nat
  deriving DecidableEq, Repr

/-- The loop. Every turn that does not end it moves `offset`, so `fuel` is what remains; the
branch for a result of 0 in its body is never taken. -/
def sendWhile (len : Nat) : Nat → Calls → SendState → SendState
  | 0, _, st => st
  | fuel + 1, calls, st =>
      if st.offset < len then
        match calls.write (len - st.offset) with
        | (.failed, _) => { st with bytesSend := -1 }
        | (.accepted n, calls) =>
            if n = 0 then { st with bytesSend := 0 }
            else sendWhile len fuel calls ⟨n, st.offset + n⟩
      else st

/-- What `send` returns, the bytes that the connection has taken, whether it is closed, and
what is logged as an error. -/
structure Sent where
  ret : Int
  taken : Bytes
  connectionClosed : Bool
  error : Option String
  deriving DecidableEq, Repr

def cannotSendRequest : String := "WebSocket: Cannot send request. Error -1\n"

/-- `send_request`. The length becomes an `int`, so nothing remains of one that is not positive
there. -/
def sendRequest (connectionClosed : Bool) (bits : Bytes) (calls : Calls) : Sent :=
  if connectionClosed then ⟨0, [], true, none⟩
  else
    let remaining := (Tcp.toInt bits.length).toNat
    let st := sendWhile remaining remaining calls ⟨0, 0⟩
    if st.bytesSend < 0 then ⟨-1, bits.take st.offset, true, some cannotSendRequest⟩
    else ⟨st.bytesSend, bits.take st.offset, false, none⟩

/-- `send` of a message whose size has become an `unsigned int`. -/
def send (connectionClosed : Bool) (data : Bytes) (calls : Calls) : Sent :=
  let data := data.take (data.length % 2 ^ 32)
  if connectionClosed then ⟨0, [], true, none⟩
  else if data.length + 10 > websockSendBufLen then ⟨-1, [], false, none⟩
  else sendRequest connectionClosed (sendFrame data) calls

/-! ## What becomes of a message -/

theorem sendWhile_done {len : Nat} (fuel : Nat) (calls : Calls) {st : SendState}
    (h : st.offset = len) : sendWhile len fuel calls st = st := by
  cases fuel with
  | zero => rfl
  | succ fuel => rw [sendWhile, if_neg (by omega)]

theorem sendWhile_eq {len : Nat} (fuel : Nat) (calls : Calls) (st : SendState)
    (hoffset : st.offset < len) (hfuel : len - st.offset ≤ fuel) :
    match calls.last with
    | .all => 0 < (sendWhile len fuel calls st).bytesSend ∧
        (sendWhile len fuel calls st).offset = len
    | .closed => (sendWhile len fuel calls st).bytesSend = 0 ∧
        (sendWhile len fuel calls st).offset < len
    | .failed => (sendWhile len fuel calls st).bytesSend = -1 ∧
        (sendWhile len fuel calls st).offset < len := by
  induction fuel generalizing calls st with
  | zero => omega
  | succ fuel ih =>
      rw [sendWhile, if_pos hoffset]
      rcases calls.write_cases (len - st.offset) with ⟨-, heq⟩ | ⟨n, parts, heq, -, hpos, hlt, -⟩
      · rw [heq]
        cases hlast : calls.last with
        | all =>
            have hne : min (len - st.offset) maxTransfer ≠ 0 := by
              unfold maxTransfer
              omega
            simp only [LastCall.result, hne, if_false]
            by_cases hleft : len - st.offset ≤ maxTransfer
            · rw [Nat.min_eq_left hleft,
                sendWhile_done _ _ (show st.offset + (len - st.offset) = len by omega)]
              exact ⟨show 0 < ((len - st.offset : Nat) : Int) by omega,
                show st.offset + (len - st.offset) = len by omega⟩
            · -- More is left than one call takes.
              have hmore := ih calls ⟨(min (len - st.offset) maxTransfer : Nat),
                st.offset + min (len - st.offset) maxTransfer⟩
              rw [hlast] at hmore
              exact hmore (by dsimp only; omega) (by dsimp only; unfold maxTransfer; omega)
        | closed => simpa [LastCall.result] using hoffset
        | failed => simpa [LastCall.result] using hoffset
      · rw [heq]
        simp only [Nat.ne_of_gt hpos, if_false]
        have hoffset' : st.offset + n < len := by omega
        have hfuel' : len - (st.offset + n) ≤ fuel := by omega
        exact ih ⟨parts, calls.last⟩ ⟨n, st.offset + n⟩ hoffset' hfuel'

theorem remaining_eq {n : Nat} (hmax : n ≤ maxTransfer) : (Tcp.toInt n).toNat = n := by
  unfold maxTransfer at hmax
  rw [Tcp.toInt_of_lt (by omega), Int.toNat_natCast]

/-- Bytes that are sent on an open connection: all of them, or the connection has been found
closed or failing. -/
theorem sendRequest_eq {bits : Bytes} (hpos : 0 < bits.length) (hmax : bits.length ≤ maxTransfer)
    (calls : Calls) :
    match calls.last with
    | .all => 0 < (sendRequest false bits calls).ret ∧ (sendRequest false bits calls).taken = bits ∧
        (sendRequest false bits calls).connectionClosed = false ∧
        (sendRequest false bits calls).error = none
    | .closed => (sendRequest false bits calls).ret = 0 ∧
        (sendRequest false bits calls).taken.length < bits.length ∧
        (sendRequest false bits calls).connectionClosed = false ∧
        (sendRequest false bits calls).error = none
    | .failed => (sendRequest false bits calls).ret = -1 ∧
        (sendRequest false bits calls).taken.length < bits.length ∧
        (sendRequest false bits calls).connectionClosed = true ∧
        (sendRequest false bits calls).error = some cannotSendRequest := by
  have hremaining := remaining_eq hmax
  have hwhile := sendWhile_eq bits.length calls ⟨0, 0⟩ hpos (Nat.sub_le _ _)
  cases hlast : calls.last with
  | all =>
      simp only [hlast] at hwhile
      obtain ⟨hsend, hoffset⟩ := hwhile
      have hneg : ¬(sendWhile bits.length bits.length calls ⟨0, 0⟩).bytesSend < 0 := by omega
      simp [sendRequest, hremaining, hneg, hoffset, hsend]
  | closed =>
      simp only [hlast] at hwhile
      obtain ⟨hsend, hoffset⟩ := hwhile
      simp [sendRequest, hremaining, hsend]
      omega
  | failed =>
      simp only [hlast] at hwhile
      obtain ⟨hsend, hoffset⟩ := hwhile
      simp [sendRequest, hremaining, hsend]
      omega

section

variable (connectionClosed : Bool) (data : Bytes) (calls : Calls)

theorem send_cases :
    (connectionClosed = true ∧ send connectionClosed data calls = ⟨0, [], true, none⟩) ∨
      (connectionClosed = false ∧ websockSendBufLen < data.length % 2 ^ 32 + 10 ∧
        send connectionClosed data calls = ⟨-1, [], false, none⟩) ∨
      connectionClosed = false ∧ data.length % 2 ^ 32 + 10 ≤ websockSendBufLen ∧
        send connectionClosed data calls =
          sendRequest false (sendFrame (data.take (data.length % 2 ^ 32))) calls := by
  have hlen : (data.take (data.length % 2 ^ 32)).length = data.length % 2 ^ 32 := by
    rw [List.length_take, Nat.min_eq_left (Nat.mod_le _ _)]
  rw [send, hlen]
  cases connectionClosed with
  | true => exact .inl ⟨rfl, rfl⟩
  | false =>
      by_cases hfits : data.length % 2 ^ 32 + 10 ≤ websockSendBufLen
      · exact .inr (.inr ⟨rfl, hfits, by simp [-Nat.reducePow, Nat.not_lt.mpr hfits]⟩)
      · exact .inr (.inl ⟨rfl, by omega, by simp [-Nat.reducePow, Nat.not_le.mp hfits]⟩)

/-- The frame of a message that `send` takes, as `sendRequest_eq` wants it. -/
theorem sendFrame_fits (hfits : data.length % 2 ^ 32 + 10 ≤ websockSendBufLen) :
    0 < (sendFrame (data.take (data.length % 2 ^ 32))).length ∧
      (sendFrame (data.take (data.length % 2 ^ 32))).length ≤ maxTransfer := by
  have hpos := sendMaskOffset_pos (data.length % 2 ^ 32)
  have hle := sendMaskOffset_le (data.length % 2 ^ 32)
  have hmin : min (data.length % 2 ^ 32) data.length = data.length % 2 ^ 32 :=
    Nat.min_eq_left (Nat.mod_le _ _)
  simp only [websockSendBufLen] at hfits
  simp only [sendFrame_length, List.length_take, hmin, maxTransfer]
  omega

/-- An error is logged for a connection that is found failing, which is closed before. -/
theorem send_error :
    (send connectionClosed data calls).error =
        (if connectionClosed = false ∧ data.length % 2 ^ 32 + 10 ≤ websockSendBufLen ∧
          calls.last = .failed then some cannotSendRequest else none) ∧
      (send connectionClosed data calls).connectionClosed =
        (connectionClosed || (send connectionClosed data calls).error.isSome) := by
  rcases send_cases connectionClosed data calls with
    ⟨rfl, heq⟩ | ⟨rfl, hlarge, heq⟩ | ⟨rfl, hfits, heq⟩
  · rw [heq]
    simp
  · rw [heq]
    simp [-Nat.reducePow, Nat.not_le.mpr hlarge]
  · obtain ⟨hpos, hmax⟩ := sendFrame_fits data hfits
    have hsent := sendRequest_eq hpos hmax calls
    rw [heq]
    cases hlast : calls.last with
    | all =>
        simp only [hlast] at hsent
        simp [-Nat.reducePow, hsent.2.2.1, hsent.2.2.2]
    | closed =>
        simp only [hlast] at hsent
        simp [-Nat.reducePow, hsent.2.2.1, hsent.2.2.2]
    | failed =>
        simp only [hlast] at hsent
        simp [-Nat.reducePow, hsent.2.2.1, hsent.2.2.2, hfits]

theorem send_taken_length_le :
    (send connectionClosed data calls).taken.length ≤ (sendFrame data).length := by
  have hmod := Nat.mod_le data.length (2 ^ 32)
  have hmono := sendMaskOffset_mono hmod
  rcases send_cases connectionClosed data calls with ⟨-, heq⟩ | ⟨-, -, heq⟩ | ⟨-, -, heq⟩
  · rw [heq]
    exact Nat.zero_le _
  · rw [heq]
    exact Nat.zero_le _
  · have hbits : ∀ bits : Bytes, (sendRequest false bits calls).taken.length ≤ bits.length := by
      intro bits
      unfold sendRequest
      simp only [Bool.false_eq_true, if_false]
      split <;> exact List.length_take_le' _ _
    rw [heq]
    refine Nat.le_trans (hbits _) ?_
    simp only [sendFrame_length, List.length_take, Nat.min_eq_left hmod]
    omega

/-- A message reaches the client whole when the connection is open, the message fits the buffer
and its last byte is taken. -/
theorem send_taken_iff :
    (send connectionClosed data calls).taken = sendFrame data ↔
      connectionClosed = false ∧ data.length + 10 ≤ websockSendBufLen ∧ calls.last = .all := by
  have hframe : 0 < (sendFrame data).length := by
    have hpos := sendMaskOffset_pos data.length
    rw [sendFrame_length]
    omega
  have hmod := Nat.mod_le data.length (2 ^ 32)
  rcases send_cases connectionClosed data calls with
    ⟨rfl, heq⟩ | ⟨rfl, hlarge, heq⟩ | ⟨rfl, hfits, heq⟩
  · rw [heq]
    refine ⟨fun h => ?_, fun h => absurd h.1 (by decide)⟩
    rw [← h] at hframe
    exact absurd hframe (Nat.lt_irrefl 0)
  · rw [heq]
    refine ⟨fun h => ?_, fun h => ?_⟩
    · rw [← h] at hframe
      exact absurd hframe (Nat.lt_irrefl 0)
    · omega
  · obtain ⟨hpos, hmax⟩ := sendFrame_fits data hfits
    have hsent := sendRequest_eq hpos hmax calls
    -- The frame is shorter than that of the message when the size has lost bits.
    have hlength : (sendFrame (data.take (data.length % 2 ^ 32))).length ≤
        (sendFrame data).length := by
      have hmono := sendMaskOffset_mono hmod
      simp only [sendFrame_length, List.length_take, Nat.min_eq_left hmod]
      omega
    rw [heq]
    cases hlast : calls.last with
    | all =>
        simp only [hlast] at hsent
        rw [hsent.2.1]
        refine ⟨fun h => ⟨rfl, ?_, rfl⟩, fun h => ?_⟩
        · have hsame : data.length % 2 ^ 32 = data.length := by
            by_contra hne
            have hlt : data.length % 2 ^ 32 < data.length := by omega
            have hmono := sendMaskOffset_mono hmod
            have hlen := congrArg List.length h
            simp only [sendFrame_length, List.length_take, Nat.min_eq_left hmod] at hlen
            omega
          omega
        · have hsame : data.length % 2 ^ 32 = data.length := by
            apply Nat.mod_eq_of_lt
            have hle := h.2.1
            simp only [websockSendBufLen] at hle
            omega
          rw [hsame, List.take_length]
    | closed =>
        simp only [hlast] at hsent
        refine ⟨fun h => ?_, fun h => absurd h.2.2 (by decide)⟩
        have hlt := hsent.2.1
        rw [h] at hlt
        omega
    | failed =>
        simp only [hlast] at hsent
        refine ⟨fun h => ?_, fun h => absurd h.2.2 (by decide)⟩
        have hlt := hsent.2.1
        rw [h] at hlt
        omega

end

end KoheronServer.Websocket
