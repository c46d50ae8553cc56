import KoheronServer.Websocket.Headers
import KoheronServer.Websocket.Send

/-!
# The send buffer

`set_send_header` and `send` on the buffer that they write. What is sent from it is one
frame in the shortest form, whatever the buffer held, and the lengths that
`set_send_header` writes are those that `read_header` reads.
-/

namespace KoheronServer.Websocket

open Foundation Wire Session

/-- `set_send_header`: the value that it returns and the buffer that it leaves. -/
def writeSendHeader (bits : Memory) (dataLen : Nat) (format : Byte) : Nat × Memory :=
  let byte (shift : Nat) : Byte := BitVec.ofNat 8 (dataLen / 2 ^ shift)
  let bits := bits.store 0 (List.replicate (10 + dataLen) 0)
  let bits := bits.store 0 [format]
  if dataLen ≤ 125 then (2, bits.store 1 [byte 0])
  else if dataLen ≤ 0xFFFF then
    (4, ((bits.store 1 [126]).store 2 [byte 8]).store 3 [byte 0])
  else
    (10, ((((((((bits.store 1 [127]).store 2 [byte 56]).store 3 [byte 48]).store 4 [byte 40]).store 5
      [byte 32]).store 6 [byte 24]).store 7 [byte 16]).store 8 [byte 8]).store 9 [byte 0])

/-- `send` up to the call of `send_request`: the bytes that are given to it, if it is called, and
the buffer. -/
def sendBits (connectionClosed : Bool) (sendBuf : Memory) (data : Bytes) : Option Bytes × Memory :=
  let data := data.take (data.length % 2 ^ 32)
  if connectionClosed then (none, sendBuf)
  else if data.length + 10 > websockSendBufLen then (none, sendBuf)
  else
    let (maskOffset, sendBuf) := writeSendHeader sendBuf data.length binaryFormat
    let sendBuf := sendBuf.store maskOffset data
    (some (sendBuf.load 0 (maskOffset + data.length)), sendBuf)

/-! ## What is sent -/

theorem store_byte (m : Memory) (bytes : Bytes) (b : Byte) {p : Nat} (hp : p = bytes.length) :
    (m.store 0 bytes).store p [b] = m.store 0 (bytes ++ [b]) := by
  rw [hp, Memory.store_append, Nat.zero_add]

/-- The buffer begins with the header, and holds zeros behind it. -/
theorem writeSendHeader_eq (bits : Memory) (dataLen : Nat) (format : Byte) :
    writeSendHeader bits dataLen format =
      (sendMaskOffset dataLen,
        (bits.store 0 (List.replicate (10 + dataLen) 0)).store 0 (setSendHeader dataLen format)) := by
  unfold writeSendHeader sendMaskOffset setSendHeader
  dsimp only
  generalize bits.store 0 (List.replicate (10 + dataLen) 0) = cleared
  split
  case isTrue => simp (disch := simp) only [store_byte, List.cons_append, List.nil_append]
  case isFalse =>
      split
      case isTrue => simp (disch := simp) only [store_byte, List.cons_append, List.nil_append]
      case isFalse => simp (disch := simp) only [store_byte, List.cons_append, List.nil_append]

theorem writeSendHeader_load (bits : Memory) (dataLen : Nat) (format : Byte) :
    (writeSendHeader bits dataLen format).2.load 0 (writeSendHeader bits dataLen format).1 =
      setSendHeader dataLen format := by
  have hload := Memory.load_store_self (bits.store 0 (List.replicate (10 + dataLen) 0)) 0
    (setSendHeader dataLen format)
  rw [setSendHeader_length] at hload
  rw [writeSendHeader_eq]
  exact hload

section

variable (connectionClosed : Bool) (sendBuf : Memory) (data : Bytes)

theorem sendBits_eq :
    (sendBits connectionClosed sendBuf data).1 =
      if connectionClosed ∨ websockSendBufLen < data.length % 2 ^ 32 + 10 then none
      else some (sendFrame (data.take (data.length % 2 ^ 32))) := by
  have hlen : (data.take (data.length % 2 ^ 32)).length = data.length % 2 ^ 32 := by
    rw [List.length_take, Nat.min_eq_left (Nat.mod_le _ _)]
  unfold sendBits
  generalize data.take (data.length % 2 ^ 32) = message at hlen ⊢
  rw [← hlen]
  cases connectionClosed with
  | true => rfl
  | false =>
      by_cases hlarge : websockSendBufLen < message.length + 10
      · simp [hlarge]
      · have hheader := setSendHeader_length message.length binaryFormat
        have hload := Memory.load_store_self
          (sendBuf.store 0 (List.replicate (10 + message.length) 0)) 0 (sendFrame message)
        rw [sendFrame, Memory.store_append, Nat.zero_add, hheader, ← sendFrame,
          sendFrame_length] at hload
        dsimp only
        rw [writeSendHeader_eq, if_neg (by decide), if_neg hlarge, if_neg (by simp [hlarge])]
        exact congrArg some hload

/-- What the buffer held before does not change what `send` does. -/
theorem send_eq_sendBits (calls : Calls) :
    send connectionClosed data calls =
      (sendBits connectionClosed sendBuf data).1.elim
        ⟨if connectionClosed then 0 else -1, [], connectionClosed, none⟩
        fun bits => sendRequest false bits calls := by
  rw [sendBits_eq]
  rcases send_cases connectionClosed data calls with
    ⟨rfl, heq⟩ | ⟨rfl, hlarge, heq⟩ | ⟨rfl, hfits, heq⟩
  · rw [heq]
    rfl
  · rw [heq, if_pos (.inr hlarge)]
    rfl
  · rw [heq, if_neg (by rintro (h | h); exacts [absurd h (by decide), by omega])]
    rfl

end

/-! ## The frame -/

/-- A final, unmasked binary frame of `data` without reserved bits, in the shortest form. -/
def IsBinaryFrame (bits data : Bytes) : Prop :=
  ∃ first second extended, bits = first :: second :: extended ++ data ∧
    first &&& 0x80 = 0x80 ∧ first &&& 0x70 = 0 ∧ first &&& 0x0F = 0x2 ∧ second &&& 0x80 = 0 ∧
    statedLength second extended = some data.length ∧
    ∀ second' extended', statedLength second' extended' = some data.length →
      extended.length ≤ extended'.length

/-- The header states the length in its shortest form, without the MASK bit. -/
theorem setSendHeader_stated {n : Nat} (hn : n < 2 ^ 63) (format : Byte) :
    ∃ second extended, setSendHeader n format = format :: second :: extended ∧
      second &&& 0x80 = 0 ∧ statedLength second extended = some n ∧
      sendMaskOffset n = 2 + extended.length := by
  have hsmallBytes : ∀ k < 126, (BitVec.ofNat 8 k &&& 0x80 = 0) ∧
    (BitVec.ofNat 8 k &&& 0x7F).toNat = k := by
    decide
  unfold setSendHeader sendMaskOffset
  dsimp only
  split
  case isTrue hsmall =>
      obtain ⟨hmask, hsize⟩ := hsmallBytes n (by omega)
      refine ⟨_, [], rfl, ?_, ?_, rfl⟩
      · rwa [Nat.pow_zero, Nat.div_one]
      · rw [Nat.pow_zero, Nat.div_one, statedLength]
        simp only [hsize]
        rw [if_pos hsmall]
        rfl
  case isFalse hsmall =>
      split
      case isTrue hmedium =>
          have hdigits : [BitVec.ofNat 8 (n / 2 ^ 8), BitVec.ofNat 8 (n / 2 ^ 0)] =
            beDigits 2 n := by
            simp [beDigits]
          rw [hdigits]
          refine ⟨126, beDigits 2 n, rfl, by decide, ?_, by rw [beDigits_length]⟩
          have hvalue : beValue (beDigits 2 n) = n := by
            rw [beValue_beDigits]
            exact Nat.mod_eq_of_lt (by omega)
          show (if (beDigits 2 n).length = 2 then some (beValue (beDigits 2 n)) else none) = some n
          rw [if_pos (beDigits_length 2 n), hvalue]
      case isFalse =>
          have hdigits : [BitVec.ofNat 8 (n / 2 ^ 56), BitVec.ofNat 8 (n / 2 ^ 48),
              BitVec.ofNat 8 (n / 2 ^ 40), BitVec.ofNat 8 (n / 2 ^ 32), BitVec.ofNat 8 (n / 2 ^ 24),
              BitVec.ofNat 8 (n / 2 ^ 16), BitVec.ofNat 8 (n / 2 ^ 8), BitVec.ofNat 8 (n / 2 ^ 0)] =
                beDigits 8 n := by
            simp [beDigits, Nat.div_div_eq_div_mul]
          rw [hdigits]
          refine ⟨127, beDigits 8 n, rfl, by decide, ?_, by rw [beDigits_length]⟩
          have hvalue : beValue (beDigits 8 n) = n := by
            rw [beValue_beDigits]
            exact Nat.mod_eq_of_lt (by omega)
          show (if (beDigits 8 n).length = 8 then some (beValue (beDigits 8 n)) else none) = some n
          rw [if_pos (beDigits_length 8 n), hvalue]

theorem sendMaskOffset_form (n : Nat) :
    sendMaskOffset n = 2 ∧ n ≤ 125 ∨ sendMaskOffset n = 4 ∧ 125 < n ∧ n < 2 ^ 16 ∨
      sendMaskOffset n = 10 ∧ 2 ^ 16 ≤ n := by
  unfold sendMaskOffset
  split_ifs <;> omega

/-- What is sent of a message is its frame. -/
theorem sendFrame_isBinaryFrame {data : Bytes} (hlen : data.length < 2 ^ 63) :
    IsBinaryFrame (sendFrame data) data := by
  obtain ⟨second, extended, hheader, hmask, hstated, hoffset⟩ :=
    setSendHeader_stated hlen binaryFormat
  refine ⟨binaryFormat, second, extended, by rw [sendFrame, hheader], by decide, by decide,
    by decide, hmask, hstated, ?_⟩
  intro second' extended' hother
  have hform := statedLength_form hother
  rcases sendMaskOffset_form data.length with ⟨h, hle⟩ | ⟨h, hlow, hhigh⟩ | ⟨h, hle⟩ <;> omega

/-- What `send` gives to `send_request` is one frame of the message, and the length that
`set_send_header` writes is the one that `read_header` reads, with the same offset. -/
theorem send_frame :
    (∀ (sendBuf : Memory) (data : Bytes), data.length + 10 ≤ websockSendBufLen →
      ∃ bits, (sendBits false sendBuf data).1 = some bits ∧ IsBinaryFrame bits data) ∧
    ∀ (sendBuf : Memory) (n : Nat), n < 2 ^ 63 → ∀ (ws : WebSocket) (four rest : Bytes),
      ws.readStrLen = 0 → ws.connectionClosed = false → four.length = 4 →
      ws.socket.Delivers
        ((writeSendHeader sendBuf n binaryFormat).2.load 0 (writeSendHeader sendBuf n binaryFormat).1 ++
          (four ++ rest)) →
      ∃ ws', readHeader ws = some (if websockReadStrLen - 56 < n then -1 else 0, ws') ∧
        ws'.header.payloadSize = n ∧
        ws'.header.maskOffset = (writeSendHeader sendBuf n binaryFormat).1 := by
  refine ⟨?_, ?_⟩
  · intro sendBuf data hfits
    have hlen : data.length < 2 ^ 32 := by
      unfold websockSendBufLen at hfits
      omega
    have hsame : data.take (data.length % 2 ^ 32) = data := by
      rw [Nat.mod_eq_of_lt hlen, List.take_length]
    refine ⟨sendFrame data, ?_, sendFrame_isBinaryFrame (by omega)⟩
    rw [sendBits_eq, hsame, if_neg]
    rintro (h | h)
    · exact absurd h (by decide)
    · have hmod := Nat.mod_le data.length (2 ^ 32)
      omega
  · intro sendBuf n hn ws four rest hempty hopen hfour hdelivers
    obtain ⟨second, extended, hheader, -, hstated, hoffset⟩ := setSendHeader_stated hn binaryFormat
    rw [writeSendHeader_load, hheader] at hdelivers
    obtain ⟨ws', hread, htaken⟩ := readHeader_stated hempty hopen
      (show TextOrBinary binaryFormat from .inr (by decide)) hfour hstated hn
        (by simpa using hdelivers)
    refine ⟨ws', hread, htaken.payloadSize, ?_⟩
    rw [htaken.maskOffset, writeSendHeader_eq, hoffset]

/-- A message of three bytes in a buffer that is full of other bytes, and a length of 300. -/
theorem send_frame_small :
    (∃ bits, (sendBits false (fun _ => 0xAA) [1, 2, 3]).1 = some bits ∧ IsBinaryFrame bits [1, 2, 3]) ∧
    ∃ ws', readHeader (.fresh [0x82, 126, 1, 44, 9, 8, 7, 6]) =
        some (if websockReadStrLen - 56 < 300 then -1 else 0, ws') ∧
      ws'.header.payloadSize = (300 : Nat) ∧
      ws'.header.maskOffset = (writeSendHeader (fun _ => 0xAA) 300 binaryFormat).1 :=
  ⟨send_frame.1 (fun _ => 0xAA) [1, 2, 3] (by decide),
    send_frame.2 (fun _ => 0xAA) 300 (by decide) (.fresh [0x82, 126, 1, 44, 9, 8, 7, 6])
      [9, 8, 7, 6] []
      rfl rfl rfl (ByteStream.ofBytes_delivers _)⟩

end KoheronServer.Websocket
