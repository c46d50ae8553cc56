import KoheronServer.Websocket.Accept

/-!
# Frames of a WebSocket client

A frame is what a client sends for a command: two bytes, the length in one of
three forms, the masking key and the masked payload. Receiving a frame gives the
payload back, and leaves the socket at the next frame.
-/

namespace KoheronServer.Websocket

open Foundation Wire Session

/-- The forms in which a header states the length of the payload. -/
inductive LengthForm where
  | small
  | medium
  | big
  deriving DecidableEq, Repr

namespace LengthForm

def headerSize : LengthForm → Nat
  | small => 6
  | medium => 8
  | big => 14

/-- The form is able to carry a payload of `n` bytes. -/
def Carries (n : Nat) : LengthForm → Prop
  | small => n ≤ 125
  | medium => n < 2 ^ 16
  | big => n < 2 ^ 63

instance (n : Nat) (form : LengthForm) : Decidable (form.Carries n) :=
  match form with
  | small => inferInstanceAs (Decidable (n ≤ 125))
  | medium => inferInstanceAs (Decidable (n < 2 ^ 16))
  | big => inferInstanceAs (Decidable (n < 2 ^ 63))

def second (n : Nat) : LengthForm → Byte
  | small => BitVec.ofNat 8 (0x80 + n)
  | medium => 0xFE
  | big => 0xFF

def extended (n : Nat) : LengthForm → Bytes
  | small => []
  | medium => beDigits 2 n
  | big => beDigits 8 n

end LengthForm

structure Frame where
  first : Byte
  fin : first &&& 0x80 ≠ 0
  opcode : first &&& 0x0F = 0x1 ∨ first &&& 0x0F = 0x2
  form : LengthForm
  key : Memory
  payload : Bytes
  carries : form.Carries payload.length

namespace Frame

def masked (f : Frame) : Bytes := f.payload.mapIdx fun i b => b ^^^ f.key (i % 4)

def head (f : Frame) : Bytes :=
  f.first :: f.form.second f.payload.length ::
    (f.form.extended f.payload.length ++ f.key.load 0 4)

def wire (f : Frame) : Bytes := f.head ++ f.masked

@[simp] theorem masked_length (f : Frame) : f.masked.length = f.payload.length := by
  simp [masked]

@[simp] theorem head_length (f : Frame) : f.head.length = f.form.headerSize := by
  cases hform : f.form <;> simp [head, hform, LengthForm.extended, LengthForm.headerSize]

@[simp] theorem wire_length (f : Frame) :
    f.wire.length = f.form.headerSize + f.payload.length := by
  simp [wire]

end Frame

/-! ## The header -/

/-- What is known of the object once the header of `f` has been read; `taken` is what has
been read of it since `ws`. -/
structure HeaderRead (f : Frame) (rest taken : Bytes) (ws ws' : WebSocket) : Prop where
  received : ws'.received = f.head
  headerSize : ws'.header.headerSize = f.form.headerSize
  maskOffset : ws'.header.maskOffset + 4 = f.form.headerSize
  payloadSize : ws'.header.payloadSize = f.payload.length
  connectionClosed : ws'.connectionClosed = false
  socket : ws.socket.bytes = taken ++ ws'.socket.bytes
  delivers : ws'.socket.Delivers (f.masked ++ rest)

theorem streamSize_small {n : Nat} (hn : n ≤ 125) :
    (BitVec.ofNat 8 (0x80 + n) &&& 0x7F).toNat = n := by
  have hall : ∀ k < 126, (BitVec.ofNat 8 (0x80 + k) &&& 0x7F).toNat = k := by decide
  exact hall n (by omega)

theorem checkOpcode_eq (f : Frame) (ws : WebSocket) (second : Byte) :
    checkOpcode (ws.setBits f.first second).header.opcode = 0 := by
  rw [WebSocket.setBits]
  rcases f.opcode with h | h <;> rw [h] <;> rfl

/-- What is known of a header behind its bytes. -/
structure HeaderStated (extended : Bytes) (n : Nat) (ws : WebSocket) : Prop where
  headerSize : ws.header.headerSize = 6 + extended.length
  maskOffset : ws.header.maskOffset = 2 + extended.length
  payloadSize : ws.header.payloadSize = n

theorem checkPayloadSize_stated {ws : WebSocket} {extended : Bytes} {n : Nat}
    (h : HeaderStated extended n ws) :
    checkPayloadSize ws = (if websockReadStrLen - 56 < n then -1 else 0, ws) := by
  unfold checkPayloadSize
  rw [h.payloadSize]
  unfold websockReadStrLen
  split_ifs <;> first | rfl | omega

/-- What is known of the object behind `more` bytes since `ws`, in front of `rest`. -/
structure HeaderBehind (received more rest : Bytes) (ws ws' : WebSocket) : Prop where
  received : ws'.received = received
  connectionClosed : ws'.connectionClosed = false
  socket : ws.socket.bytes = more ++ ws'.socket.bytes
  delivers : ws'.socket.Delivers rest

/-- The length that a header states is the one that is read. -/
theorem readPayloadSize_stated {ws : WebSocket} {first second : Byte}
    {four more extended key rest : Bytes} {n : Nat}
    (hlen : ws.readStrLen = 6) (hopen : ws.connectionClosed = false)
    (hreceived : ws.received = first :: second :: four) (hsplit : four ++ more = extended ++ key)
    (hmore : more.length = extended.length) (hdelivers : ws.socket.Delivers (more ++ rest))
    (hstated : statedLength second extended = some n) (hn : n < 2 ^ 63) :
    ∃ ws', readPayloadSize (second &&& 0x7F).toNat ws =
        some (if websockReadStrLen - 56 < n then -1 else 0, ws') ∧ HeaderStated extended n ws' ∧
      HeaderBehind (first :: second :: (extended ++ key)) more rest ws ws' := by
  -- The extended length is read behind the first six bytes and found behind the second one.
  have hread : 0 < extended.length → extended.length ≤ 8 →
      ∃ ws', readNBytes extended.length extended.length ws = some (0, ws') ∧
        ws'.readStr.load 2 extended.length = extended ∧
        HeaderBehind (first :: second :: (extended ++ key)) more rest ws ws' := by
    intro hpos hle
    obtain ⟨ws', hread, htakes, hrest⟩ := readNBytes_delivers hpos hdelivers (by simp; omega)
    rw [hlen, if_neg (by unfold kserverReadStrLen; omega)] at hread
    rw [List.take_left' hmore] at htakes
    rw [List.drop_left' hmore] at hrest
    have hall : ws'.received = first :: second :: (extended ++ key) := by
      rw [htakes.received, hreceived, ← hsplit]
      rfl
    exact ⟨ws', hread, load_received [first, second] extended key hall,
      hall, htakes.connectionClosed.trans hopen, htakes.socket, hrest⟩
  have hchecked : ∀ {ws' : WebSocket} {headerSize maskOffset : Nat} {size : Int}, size = n →
      headerSize = 6 + extended.length → maskOffset = 2 + extended.length →
      HeaderStated extended n (ws'.setSize headerSize size maskOffset) := by
    intro ws' headerSize maskOffset size hsize hhead hmask
    exact ⟨hhead, hmask, hsize⟩
  unfold statedLength at hstated
  dsimp only at hstated
  unfold readPayloadSize
  split at hstated
  case isTrue hsmall =>
      split at hstated
      case isTrue hnil =>
          obtain rfl := Option.some.inj hstated
          have h : HeaderStated extended (second &&& 0x7F).toNat
              (ws.setSize 6 (second &&& 0x7F).toNat 2) := hchecked rfl (by omega) (by omega)
          -- there is nothing to read
          obtain rfl := List.eq_nil_of_length_eq_zero hnil
          obtain rfl := List.eq_nil_of_length_eq_zero hmore
          rw [List.append_nil] at hsplit
          rw [if_pos hsmall]
          refine ⟨_, congrArg some (checkPayloadSize_stated h), h, ?_, hopen, rfl, hdelivers⟩
          exact hreceived.trans (by rw [hsplit])
      case isFalse => cases hstated
  case isFalse hsmall =>
      rw [if_neg hsmall]
      split at hstated
      case isTrue hmedium =>
          split at hstated
          case isTrue htwo =>
              obtain rfl := Option.some.inj hstated
              obtain ⟨ws', hread, hload, htaken⟩ := hread (by omega) (by omega)
              have hopen' := htaken.connectionClosed
              rw [htwo] at hread hload
              have hsize : (extractUint16 (ws'.readStr.offset 2)).toNat = beValue extended := by
                rw [extractUint16_toNat, Memory.load_offset, hload]
              have h : HeaderStated extended (beValue extended)
                  (ws'.setSize 8 (extractUint16 (ws'.readStr.offset 2)).toNat 4) :=
                hchecked (congrArg Nat.cast hsize) (by omega) (by omega)
              have hread₂ : readNBytes 2 2 ws = some (0, ws') := hread
              rw [if_pos hmedium, hread₂]
              simp only [hopen', Int.lt_irrefl, Bool.false_eq_true, if_false]
              exact ⟨_, congrArg some (checkPayloadSize_stated h), h, htaken.received, hopen',
                htaken.socket, htaken.delivers⟩
          case isFalse => cases hstated
      case isFalse hmedium =>
          split at hstated
          case isTrue height =>
              obtain rfl := Option.some.inj hstated
              obtain ⟨ws', hread, hload, htaken⟩ := hread (by omega) (by omega)
              have hopen' := htaken.connectionClosed
              rw [height] at hread hload
              have hnat : (extractUint64 (ws'.readStr.offset 2)).toNat = beValue extended := by
                rw [extractUint64_toNat, Memory.load_offset, hload]
              have hsize : (extractUint64 (ws'.readStr.offset 2)).toInt = beValue extended := by
                rw [BitVec.toInt_eq_toNat_of_lt (by omega), hnat]
              have h : HeaderStated extended (beValue extended)
                  (ws'.setSize 14 (extractUint64 (ws'.readStr.offset 2)).toInt 10) :=
                hchecked hsize (by omega) (by omega)
              have hbig : (second &&& 0x7F).toNat = 127 := by
                have hle : (second &&& 0x7F).toNat ≤ 127 := by
                  rw [BitVec.toNat_and]
                  exact Nat.and_le_right
                omega
              have hread₈ : readNBytes 8 8 ws = some (0, ws') := hread
              rw [if_neg hmedium, if_pos hbig, hread₈]
              simp only [hopen', Int.lt_irrefl, Bool.false_eq_true, if_false]
              exact ⟨_, congrArg some (checkPayloadSize_stated h), h, htaken.received, hopen',
                htaken.socket, htaken.delivers⟩
          case isFalse => cases hstated

theorem Frame.stated (f : Frame) :
    statedLength (f.form.second f.payload.length) (f.form.extended f.payload.length) =
      some f.payload.length := by
  have hcarries := f.carries
  cases hform : f.form with
  | small =>
      rw [hform] at hcarries
      have hsmall : f.payload.length ≤ 125 := hcarries
      rw [LengthForm.second, LengthForm.extended, statedLength, streamSize_small hsmall]
      simp only [if_pos hsmall, List.length_nil, if_true]
  | medium =>
      rw [hform] at hcarries
      have hstream : (LengthForm.medium.second f.payload.length &&& 0x7F).toNat = 126 := by
        rw [LengthForm.second]
        decide
      have hvalue : beValue (beDigits 2 f.payload.length) = f.payload.length := by
        rw [beValue_beDigits]
        exact Nat.mod_eq_of_lt hcarries
      rw [statedLength, hstream]
      simp [LengthForm.extended, hvalue]
  | big =>
      rw [hform] at hcarries
      have hlt : f.payload.length < 2 ^ 63 := hcarries
      have hstream : (LengthForm.big.second f.payload.length &&& 0x7F).toNat = 127 := by
        rw [LengthForm.second]
        decide
      have hvalue : beValue (beDigits 8 f.payload.length) = f.payload.length := by
        rw [beValue_beDigits]
        exact Nat.mod_eq_of_lt (by omega)
      rw [statedLength, hstream]
      simp [LengthForm.extended, hvalue]

theorem LengthForm.extended_length (form : LengthForm) (n : Nat) :
    6 + (form.extended n).length = form.headerSize := by
  cases form <;> simp [extended, headerSize]

theorem readPayloadSize_frame (f : Frame) (hn : f.payload.length ≤ websockReadStrLen - 56)
    {ws : WebSocket} {rest : Bytes} (hlen : ws.readStrLen = 6)
    (hreceived : ws.received = f.head.take 6)
    (hopen : ws.connectionClosed = false)
    (hdelivers : ws.socket.Delivers (f.head.drop 6 ++ (f.masked ++ rest))) :
    ∃ ws', readPayloadSize (f.form.second f.payload.length &&& 0x7F).toNat ws = some (0, ws') ∧
      HeaderRead f rest (f.head.drop 6) ws ws' := by
  have hsize := f.form.extended_length f.payload.length
  have hkey := List.take_append_drop 4 (f.form.extended f.payload.length ++ f.key.load 0 4)
  have hmore : (f.head.drop 6).length = (f.form.extended f.payload.length).length := by
    rw [List.length_drop, f.head_length]
    omega
  obtain ⟨ws', hread, hheader, htaken⟩ := readPayloadSize_stated hlen hopen hreceived hkey hmore
    hdelivers f.stated (by unfold websockReadStrLen at hn; omega)
  rw [if_neg (by omega)] at hread
  refine ⟨ws', hread, htaken.received, hheader.headerSize.trans hsize, ?_, hheader.payloadSize,
    htaken.connectionClosed, htaken.socket, htaken.delivers⟩
  have hoffset := hheader.maskOffset
  omega

theorem readHeader_frame (f : Frame) (hn : f.payload.length ≤ websockReadStrLen - 56)
    {ws : WebSocket} {rest : Bytes} (hlen : ws.readStrLen = 0) (hopen : ws.connectionClosed = false)
    (hdelivers : ws.socket.Delivers (f.wire ++ rest)) :
    ∃ ws', readHeader ws = some (0, ws') ∧ HeaderRead f rest f.head ws ws' := by
  have hsix : 6 ≤ f.head.length := by
    rw [f.head_length]
    cases f.form <;> decide
  have hempty : ws.received = [] := by rw [WebSocket.received, hlen]; rfl
  rw [Frame.wire, List.append_assoc] at hdelivers
  obtain ⟨ws₁, hread, htakes, hrest⟩ :=
    readNBytes_delivers (k := 6) (by decide) hdelivers (by simp only [List.length_append]; omega)
  rw [List.take_append_of_le_length hsix] at htakes
  rw [List.drop_append_of_le_length hsix] at hrest
  have hlen₁ : ws₁.readStrLen = 6 := by
    rw [htakes.readStrLen, hlen, List.length_take, Nat.min_eq_left hsix]
  have hreceived₁ : ws₁.received = f.head.take 6 := by rw [htakes.received, hempty]; rfl
  have hopen₁ : ws₁.connectionClosed = false := htakes.connectionClosed.trans hopen
  have hread₁ : readNBytes 6 6 ws = some (0, ws₁) := by
    simpa [hlen, kserverReadStrLen] using hread
  have hbytes := load_received [] [f.first, f.form.second f.payload.length]
    ((f.form.extended f.payload.length ++ f.key.load 0 4).take 4) hreceived₁
  have hfirst : ws₁.readStr 0 = f.first := List.head_eq_of_cons_eq hbytes
  have hsecond : ws₁.readStr 1 = f.form.second f.payload.length :=
    List.head_eq_of_cons_eq (List.tail_eq_of_cons_eq hbytes)
  obtain ⟨ws', hsize, hheader⟩ := readPayloadSize_frame f hn
    (show (ws₁.setBits f.first (f.form.second f.payload.length)).readStrLen = 6 from hlen₁)
    hreceived₁ hopen₁ hrest
  refine ⟨ws', ?_, hheader.received, hheader.headerSize, hheader.maskOffset, hheader.payloadSize,
    hheader.connectionClosed, ?_, hheader.delivers⟩
  · simpa [readHeader, hread₁, hopen₁, hfirst, hsecond, checkOpcode_eq] using hsize
  · have hsocket : ws₁.socket.bytes = f.head.drop 6 ++ ws'.socket.bytes := hheader.socket
    rw [htakes.socket, hsocket, ← List.append_assoc, List.take_append_drop]

/-! ## The payload -/

/-- What is known once all of `f` has been read. -/
structure FrameRead (f : Frame) (rest : Bytes) (ws ws' : WebSocket) : Prop where
  received : ws'.received = f.wire
  headerSize : ws'.header.headerSize = f.form.headerSize
  maskOffset : ws'.header.maskOffset + 4 = f.form.headerSize
  payloadSize : ws'.header.payloadSize = f.payload.length
  connectionClosed : ws'.connectionClosed = false
  socket : ws.socket.bytes = f.wire ++ ws'.socket.bytes
  delivers : ws'.socket.Delivers rest

/-- A stream with a frame is read to the end of the frame; the result is an error when the
whole frame is as long as the buffer of another part of the server. -/
theorem readStream_frame (f : Frame) (hpos : 0 < f.payload.length)
    (hn : f.payload.length ≤ websockReadStrLen - 56) {ws : WebSocket} {rest : Bytes}
    (hopen : ws.connectionClosed = false) (hdelivers : ws.socket.Delivers (f.wire ++ rest)) :
    ∃ ws', readStream ws =
        some (if f.form.headerSize + f.payload.length = kserverReadStrLen then -1 else 0, ws') ∧
      FrameRead f rest ws ws' := by
  obtain ⟨ws₁, hheader, hread⟩ :=
    readHeader_frame f hn (show (resetReadBuff ws).readStrLen = 0 from rfl) hopen hdelivers
  obtain ⟨ws', hpayload, htakes, hrest⟩ :=
    readNBytes_delivers hpos hread.delivers (by simp)
  have hlen₁ : ws₁.readStrLen = f.form.headerSize := by
    have hlen := congrArg List.length hread.received
    rwa [WebSocket.received, Memory.load_length, f.head_length] at hlen
  rw [List.take_left' f.masked_length] at htakes
  rw [List.drop_left' f.masked_length] at hrest
  rw [hlen₁] at hpayload
  refine ⟨ws', ?_, ?_, ?_, ?_, ?_, htakes.connectionClosed.trans hread.connectionClosed, ?_, hrest⟩
  · have hpayload' : readNBytes ws₁.header.payloadSize ws₁.header.payloadSize ws₁ =
        some (if f.form.headerSize + f.payload.length = kserverReadStrLen then -1 else 0, ws') := by
      rw [hread.payloadSize]
      exact hpayload
    simp only [readStream, hheader, hpayload']
    by_cases hfull : f.form.headerSize + f.payload.length = kserverReadStrLen
    · simp [hfull]
    · simp [hfull]
  · rw [htakes.received, hread.received]
    rfl
  · rw [htakes.header, hread.headerSize]
  · rw [htakes.header, hread.maskOffset]
  · rw [htakes.header, hread.payloadSize]
  · have hsocket : ws.socket.bytes = f.head ++ ws₁.socket.bytes := hread.socket
    rw [hsocket, htakes.socket, Frame.wire, List.append_assoc]

theorem masked_unmask (f : Frame) :
    (f.masked.mapIdx fun i b => b ^^^ Memory.ofBytes (f.key.load 0 4) (i % 4)) = f.payload := by
  apply List.ext_getElem
  · simp
  · intro i hi _
    have hmod : i % 4 < 4 := Nat.mod_lt _ (by decide)
    have hkey : Memory.ofBytes (f.key.load 0 4) (i % 4) = f.key (i % 4) := by
      have hload := Memory.load_ofBytes (f.key.load 0 4)
      rw [Memory.load_length] at hload
      have hbyte := Memory.eq_of_load_eq hload hmod
      rwa [Nat.zero_add] at hbyte
    simp only [Frame.masked, List.getElem_mapIdx, hkey]
    rw [BitVec.xor_assoc, BitVec.xor_self, BitVec.xor_zero]

/-- Every byte of the payload meets the byte of the key it was masked with. -/
theorem unmask_frame {f : Frame} {rest : Bytes} {ws ws' : WebSocket} (h : FrameRead f rest ws ws')
    {first n : Nat} (hn : first + n ≤ f.payload.length) :
    unmask ws' first n = (f.payload.drop first).take n := by
  have hwire : f.wire =
      (f.first :: f.form.second f.payload.length :: f.form.extended f.payload.length) ++
        (f.key.load 0 4 ++ f.masked) := by
    simp [Frame.wire, Frame.head]
  have hoffset : (f.first :: f.form.second f.payload.length ::
      f.form.extended f.payload.length).length = ws'.header.maskOffset := by
    have hlen := congrArg List.length hwire
    have hmask := h.maskOffset
    simp only [Frame.wire_length, List.length_append, Memory.load_length,
      Frame.masked_length] at hlen
    omega
  rw [unmask_received _ (f.key.load 0 4) f.masked (h.received.trans hwire) hoffset
    (Memory.load_length _ _ _) (by rwa [f.masked_length]), masked_unmask]

/-! ## Receiving frames -/

/-- `receive_cmd` and `read_command` have received all of `f` and nothing of what follows. -/
structure Receives (f : Frame) (ws ws' : WebSocket) (cmd : CommandBuffers) : Prop where
  ok : ∃ cmd', receiveCmd cmd ws = some ((f.payload.length : Int), cmd', ws') ∧
    readCommand cmd ws = some
      (⟨8, (decodeHeader cmd'.header).1, (decodeHeader cmd'.header).2, ws'⟩, cmd') ∧
    cmd'.header.load 0 8 = f.payload.take 8 ∧
    cmd'.payload.load 0 (f.payload.length - 8) = f.payload.drop 8
  consumed : ws.socket.bytes = f.wire ++ ws'.socket.bytes

/-- All the frames are received, one after the other, each into a command of its own. -/
def ReceivesAll : List Frame → WebSocket → Prop
  | [], _ => True
  | f :: frames, ws => ∃ ws', (∀ cmd, Receives f ws ws' cmd) ∧ ReceivesAll frames ws'

theorem decodeRawStreamCmd_frame {f : Frame} (hmin : 8 ≤ f.payload.length) {rest : Bytes}
    {ws ws' : WebSocket} (h : FrameRead f rest ws ws') (cmd : CommandBuffers) :
    decodeRawStreamCmd ws' cmd =
      (0, ⟨cmd.header.store 0 (f.payload.take 8), cmd.payload.store 0 (f.payload.drop 8)⟩) := by
  have hlen : ws'.readStrLen = f.form.headerSize + f.payload.length := by
    have hlen := congrArg List.length h.received
    rwa [WebSocket.received, Memory.load_length, Frame.wire_length] at hlen
  have hheader : unmask ws' 0 headerSize = f.payload.take 8 := by
    rw [unmask_frame h (by rw [headerSize]; omega), List.drop_zero]
    rfl
  have hpayload : unmask ws' headerSize (ws'.header.payloadSize - headerSize).toNat =
      f.payload.drop 8 := by
    have hcount : (ws'.header.payloadSize - headerSize).toNat = f.payload.length - 8 := by
      rw [h.payloadSize, headerSize]
      omega
    rw [hcount, unmask_frame h (by rw [headerSize]; omega), headerSize]
    exact List.take_of_length_le (Nat.le_of_eq List.length_drop)
  rw [decodeRawStreamCmd, if_neg (by rw [hlen, h.headerSize]; omega), hheader, hpayload]

theorem receiveCmd_frame {f : Frame} (hmin : 8 ≤ f.payload.length)
    (hn : f.payload.length ≤ websockReadStrLen - 56) {rest : Bytes} {ws ws' : WebSocket}
    (hopen : ws.connectionClosed = false) (hstream : readStream ws = some (0, ws'))
    (h : FrameRead f rest ws ws') (cmd : CommandBuffers) :
    receiveCmd cmd ws = some ((f.payload.length : Int),
      ⟨cmd.header.store 0 (f.payload.take 8), cmd.payload.store 0 (f.payload.drop 8)⟩, ws') := by
  have hret : (BitVec.ofInt 32 ws'.header.payloadSize).toInt = f.payload.length := by
    unfold websockReadStrLen at hn
    rw [h.payloadSize, BitVec.toInt_ofInt]
    exact Int.bmod_eq_of_le (by omega) (by omega)
  simp [receiveCmd, hopen, hstream, decodeRawStreamCmd_frame hmin h cmd, hret]

theorem receives_frame {f : Frame} (hmin : 8 ≤ f.payload.length)
    (hn : f.payload.length ≤ websockReadStrLen - 56) {ws : WebSocket} {rest : Bytes}
    (hopen : ws.connectionClosed = false) (hdelivers : ws.socket.Delivers (f.wire ++ rest)) :
    (f.form.headerSize + f.payload.length = kserverReadStrLen →
      ∀ ws' cmd, ¬ Receives f ws ws' cmd) ∧
    (f.form.headerSize + f.payload.length ≠ kserverReadStrLen →
      ∃ ws', (∀ cmd, Receives f ws ws' cmd) ∧ FrameRead f rest ws ws') := by
  obtain ⟨ws', hstream, hframe⟩ := readStream_frame f (by omega) hn hopen hdelivers
  constructor
  · rintro hfull ws'' cmd ⟨⟨cmd', hreceive, -⟩, -⟩
    rw [if_pos hfull] at hstream
    simp [receiveCmd, hopen, hstream] at hreceive
  · intro hfull
    rw [if_neg hfull] at hstream
    refine ⟨ws', fun cmd => ⟨⟨_, receiveCmd_frame hmin hn hopen hstream hframe cmd, ?_, ?_, ?_⟩,
      hframe.socket⟩, hframe⟩
    · have hsize : ¬ ws'.header.payloadSize < headerSize := by
        rw [hframe.payloadSize, headerSize]
        omega
      have hret : ¬ ((f.payload.length : Int) < 0) := by omega
      simp only [readCommand, receiveCmd_frame hmin hn hopen hstream hframe cmd, if_neg hret,
        hframe.connectionClosed, if_neg hsize, Bool.false_eq_true, if_false]
      rfl
    · have hload := Memory.load_store_self cmd.header 0 (f.payload.take 8)
      rwa [List.length_take, Nat.min_eq_left hmin] at hload
    · have hload := Memory.load_store_self cmd.payload 0 (f.payload.drop 8)
      rwa [List.length_drop] at hload

/-- Frames that arrive on an open connection, in whatever pieces, are all received, unless
one of them is, with its header, exactly `KSERVER_READ_STR_LEN` bytes long: the overflow
test of `read_n_bytes` compares with the length of another buffer. -/
theorem receivesAll_iff {frames : List Frame}
    (hsize : ∀ f ∈ frames, 8 ≤ f.payload.length ∧ f.payload.length ≤ websockReadStrLen - 56)
    {ws : WebSocket} (hopen : ws.connectionClosed = false)
    (hdelivers : ws.socket.Delivers (frames.flatMap Frame.wire)) :
    ReceivesAll frames ws ↔
      ∀ f ∈ frames, f.form.headerSize + f.payload.length ≠ kserverReadStrLen := by
  induction frames generalizing ws with
  | nil => simp [ReceivesAll]
  | cons f frames ih =>
      rw [List.flatMap_cons] at hdelivers
      obtain ⟨hmin, hmax⟩ := hsize f (by simp)
      obtain ⟨hbad, hgood⟩ := receives_frame hmin hmax hopen hdelivers
      rw [ReceivesAll, List.forall_mem_cons]
      by_cases hfull : f.form.headerSize + f.payload.length = kserverReadStrLen
      · refine iff_of_false ?_ fun h => h.1 hfull
        rintro ⟨ws', hreceives, -⟩
        exact hbad hfull ws' ⟨fun _ => 0, fun _ => 0⟩ (hreceives _)
      · obtain ⟨ws', hreceives, hframe⟩ := hgood hfull
        have hnext := ih (fun g hg => hsize g (by simp [hg])) hframe.connectionClosed hframe.delivers
        constructor
        · rintro ⟨ws'', hreceives', hrest⟩
          obtain ⟨cmd', hok, -⟩ := (hreceives ⟨fun _ => 0, fun _ => 0⟩).ok
          obtain ⟨cmd'', hok', -⟩ := (hreceives' ⟨fun _ => 0, fun _ => 0⟩).ok
          rw [hok] at hok'
          obtain ⟨-, -, rfl⟩ : f.payload.length = f.payload.length ∧ cmd' = cmd'' ∧ ws' = ws'' := by
            simpa using hok'
          exact ⟨hfull, hnext.mp hrest⟩
        · intro h
          exact ⟨ws', hreceives, hnext.mpr h.2⟩

/-- A `WebSocket` object behind the handshake, with the bytes that its client sends. -/
def WebSocket.fresh (bytes : Bytes) : WebSocket where
  readStrLen := 0
  readStr := fun _ => 0
  header := ⟨0, 0, 0, false, false, 0⟩
  connectionClosed := false
  socket := .ofBytes bytes

def fullFrame : Frame where
  first := 0x82
  fin := by decide
  opcode := .inr (by decide)
  form := .medium
  key := fun _ => 0x55
  payload := List.replicate 16376 0
  carries := by
    rw [LengthForm.Carries, List.length_replicate]
    decide

theorem fullFrame_fails :
    8 ≤ fullFrame.payload.length ∧ fullFrame.payload.length ≤ websockReadStrLen - 56 ∧
      ¬ ReceivesAll [fullFrame] (.fresh fullFrame.wire) ∧
      ∃ ws', receiveCmd ⟨fun _ => 0, fun _ => 0⟩ (.fresh fullFrame.wire) =
        some (-1, ⟨fun _ => 0, fun _ => 0⟩, ws') := by
  have hlen : fullFrame.payload.length = 16376 := List.length_replicate
  have hmin : 8 ≤ fullFrame.payload.length := by omega
  have hmax : fullFrame.payload.length ≤ websockReadStrLen - 56 := by
    rw [hlen]
    decide
  have hfull : fullFrame.form.headerSize + fullFrame.payload.length = kserverReadStrLen := by
    rw [hlen]
    rfl
  have hdelivers : (WebSocket.fresh fullFrame.wire).socket.Delivers (fullFrame.wire ++ []) := by
    rw [List.append_nil]
    exact ByteStream.ofBytes_delivers _
  obtain ⟨ws', hstream, _⟩ := readStream_frame fullFrame (by omega) hmax rfl hdelivers
  rw [if_pos hfull] at hstream
  refine ⟨hmin, hmax, ?_, ws', ?_⟩
  · rintro ⟨ws'', hreceives, -⟩
    exact (receives_frame hmin hmax rfl hdelivers).1 hfull ws'' _
      (hreceives ⟨fun _ => 0, fun _ => 0⟩)
  · have hopen : (WebSocket.fresh fullFrame.wire).connectionClosed = false := rfl
    simp [receiveCmd, hopen, hstream]

def textFrame : Frame where
  first := 0x81
  fin := by decide
  opcode := .inl (by decide)
  form := .small
  key := fun i => BitVec.ofNat 8 (17 * i)
  payload := [0, 0, 0, 0, 0, 1, 0, 5, 9]
  carries := by decide

theorem receivesAll_iff_text :
    ReceivesAll [textFrame, textFrame] (.fresh (textFrame.wire ++ textFrame.wire)) := by
  refine (receivesAll_iff ?_ rfl ?_).mpr ?_
  · simp [textFrame, websockReadStrLen]
  · simpa [WebSocket.fresh] using ByteStream.ofBytes_delivers (textFrame.wire ++ textFrame.wire)
  · simp [textFrame, LengthForm.headerSize, kserverReadStrLen]

end KoheronServer.Websocket
