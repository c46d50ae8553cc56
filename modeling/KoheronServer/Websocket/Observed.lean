import KoheronServer.Foundation.Traced
import KoheronServer.Websocket.ReadEnds
import KoheronServer.Wire.Packs

/-!
# What receiving a command does on its way

The functions of `WebSocket` that receive a command once more, with the accesses to
the three buffers that they make, the messages that they print above the level
DEBUG, and the call of `decode_raw_stream_cmd`. Without these events they are the
functions of `Websocket`. The clearing of the bytes that the command before left in
the buffer is not an event.
-/

namespace KoheronServer.Websocket

open Foundation Wire Session

namespace Observed

/-- The buffers that are read and written behind the socket. -/
inductive Buffer where
  | readStr
  | cmdHeader
  | cmdPayload
  deriving DecidableEq, Repr

def Buffer.capacity : Buffer → Nat
  | readStr => websockReadStrLen
  | cmdHeader => headerSize
  | cmdPayload => cmdPayloadBufferLen

inductive Severity where
  | critical
  | error
  | info
  deriving DecidableEq, Repr

inductive Event where
  /-- The `len` bytes of the buffer from `start` on. -/
  | access (buffer : Buffer) (start len : Nat)
  | decode
  | print (severity : Severity) (text : String)
  deriving DecidableEq, Repr

def Event.InBounds : Event → Prop
  | access buffer start len => start + len ≤ buffer.capacity
  | decode => True
  | print _ _ => True

/-- The stream is decoded, or something else than an information is printed. -/
def Event.Reports : Event → Prop
  | access _ _ _ => False
  | decode => True
  | print severity _ => severity ≠ .info

def access (buffer : Buffer) (start len : Nat) : Traced Event Unit :=
  .emit [.access buffer start len]

def print (severity : Severity) (text : String) : Traced Event Unit :=
  .emit [.print severity text]

/-! ## The functions -/

section

variable (call : ByteStream → Nat → ReadResult × ByteStream)

/-- The inner loop; each read may fill all that it asks for. `call` is what `read` does. -/
def readWhile : Nat → ReadState → Traced Event ReadState
  | 0, st => pure st
  | fuel + 1, st =>
      if st.remaining > 0 then do
        access .readStr st.ws.readStrLen st.remaining.toNat
        match call st.ws.socket st.remaining.toNat with
        | (.closed, socket) =>
            pure { st with bytesRead := 0, ws := { st.ws with socket := socket } }
        | (.error, socket) =>
            pure { st with bytesRead := -1, ws := { st.ws with socket := socket } }
        | (.data bytes, socket) =>
            readWhile fuel
              { remaining := st.remaining - bytes.length
                expected := max 0 (st.expected - bytes.length)
                bytesRead := bytes.length
                ws := st.ws.push bytes socket }
      else pure st

def readExpected : Nat → ReadState → Traced Event (Int × WebSocket)
  | 0, _ => .never
  | fuel + 1, st =>
      if st.expected > 0 then do
        let st ← readWhile call st.remaining.toNat st
        if st.bytesRead = 0 then do
          print .info "WebSocket: Connection closed by client\n"
          pure (1, { st.ws with connectionClosed := true })
        else if st.ws.readStrLen = kserverReadStrLen then do
          print .critical "WebSocket: Read buffer overflow\n"
          pure (-1, st.ws)
        else readExpected fuel st
      else pure (0, st.ws)

def readNBytes (bytes expected : Int) (ws : WebSocket) : Traced Event (Int × WebSocket) :=
  readExpected call (ws.socket.arrivals.length + 2) ⟨bytes, expected, -1, ws⟩

def checkOpcode (opcode : Nat) : Traced Event Int :=
  match opcode with
  | 0x0 => do
      print .critical "WebSocket: Continuation frame is not suported\n"
      pure (-1)
  | 0x1 | 0x2 => pure 0
  | 0x8 => do
      print .info "WebSocket: Connection close\n"
      pure 1
  | 0x9 => do
      print .critical "WebSocket: Ping is not suported\n"
      pure (-1)
  | 0xA => do
      print .critical "WebSocket: Pong is not suported\n"
      pure (-1)
  | opcode => do
      print .critical ("WebSocket: Invalid opcode " ++ toString opcode ++ "\n")
      pure (-1)

def checkPayloadSize (ws : WebSocket) : Traced Event (Int × WebSocket) :=
  if ws.header.payloadSize > websockReadStrLen - 56 then do
    print .critical "WebSocket: Message too large\n"
    pure (-1, ws)
  else pure (0, ws)

def readPayloadSize (streamSize : Nat) (ws : WebSocket) : Traced Event (Int × WebSocket) :=
  if streamSize ≤ 125 then checkPayloadSize (ws.setSize 6 streamSize 2)
  else if streamSize = 126 then do
    let (err, ws) ← readNBytes call 2 2 ws
    if err < 0 then pure (-1, ws)
    else if ws.connectionClosed then pure (0, ws)
    else do
      access .readStr 2 2
      checkPayloadSize (ws.setSize 8 (extractUint16 (ws.readStr.offset 2)).toNat 4)
  else if streamSize = 127 then do
    let (err, ws) ← readNBytes call 8 8 ws
    if err < 0 then pure (-1, ws)
    else if ws.connectionClosed then pure (0, ws)
    else do
      access .readStr 2 8
      checkPayloadSize (ws.setSize 14 (extractUint64 (ws.readStr.offset 2)).toInt 10)
  else do
    print .critical "WebSocket: Couldn't decode stream size\n"
    pure (-1, ws)

def readHeader (ws : WebSocket) : Traced Event (Int × WebSocket) := do
  let (err, ws) ← readNBytes call 6 6 ws
  if err < 0 then pure (-1, ws)
  else if ws.connectionClosed then pure (0, ws)
  else do
    access .readStr 0 1
    access .readStr 1 1
    let streamSize := (ws.readStr 1 &&& 0x7F).toNat
    let ws := ws.setBits (ws.readStr 0) (ws.readStr 1)
    let opcodeErr ← checkOpcode ws.header.opcode
    if opcodeErr < 0 then pure (-1, ws)
    else if opcodeErr = 1 then pure (opcodeErr, { ws with connectionClosed := true })
    else readPayloadSize call streamSize ws

def readStream (ws : WebSocket) : Traced Event (Int × WebSocket) := do
  let (readHeadErr, ws) ← readHeader call (resetReadBuff ws)
  if readHeadErr < 0 then do
    print .critical "WebSocket: Cannot read header\n"
    pure (-1, ws)
  else if readHeadErr = 1 then pure (readHeadErr, ws)
  else do
    let (err, ws) ← readNBytes call ws.header.payloadSize ws.header.payloadSize ws
    if err < 0 then do
      print .critical "WebSocket: Cannot read payload\n"
      pure (-1, ws)
    else pure (err, ws)

/-- The bytes of the payload, of the mask and of `buffer` at which `first ≤ i < first + n`
are used. -/
def unmaskAccesses (ws : WebSocket) (buffer : Buffer) (first n : Nat) : List Event :=
  (List.range' first n).flatMap fun i =>
    [.access .readStr (ws.header.maskOffset + 4 + i) 1,
      .access .readStr (ws.header.maskOffset + i % 4) 1, .access buffer (i - first) 1]

def decodeRawStreamCmd (ws : WebSocket) (cmd : CommandBuffers) :
    Traced Event (Int × CommandBuffers) := do
  Traced.emit [.decode]
  if ws.readStrLen < ws.header.headerSize + 1 then pure (-1, cmd)
  else do
    Traced.emit (unmaskAccesses ws .cmdHeader 0 headerSize)
    Traced.emit
      (unmaskAccesses ws .cmdPayload headerSize (ws.header.payloadSize - headerSize).toNat)
    pure
      (0,
        { header := cmd.header.store 0 (unmask ws 0 headerSize)
          payload :=
            cmd.payload.store 0 (unmask ws headerSize (ws.header.payloadSize - headerSize).toNat) })

def receiveCmd (cmd : CommandBuffers) (ws : WebSocket) :
    Traced Event (Int × CommandBuffers × WebSocket) :=
  if ws.connectionClosed then pure (0, cmd, ws)
  else do
    let (err, ws) ← readStream call ws
    if err < 0 then pure (-1, cmd, ws)
    else if err = 1 then pure (0, cmd, ws)
    else do
      let decoded ← decodeRawStreamCmd ws cmd
      if decoded.1 < 0 then do
        print .critical "WebSocket: Cannot decode command stream\n"
        pure (-1, decoded.2, ws)
      else pure ((BitVec.ofInt 32 ws.header.payloadSize).toInt, decoded.2, ws)

end

/-! ## Without the events -/

variable {α : Type}

@[simp] theorem erase_access_bind (buffer : Buffer) (start len : Nat) (f : Unit → Traced Event α) :
    (access buffer start len >>= f).erase = (f ()).erase := by
  rw [Traced.erase_bind]
  rfl

theorem erase_readWhile (fuel : Nat) (st : ReadState) :
    (readWhile ByteStream.read fuel st).erase = some (Websocket.readWhile fuel st) := by
  induction fuel generalizing st with
  | zero => rfl
  | succ fuel ih =>
      unfold readWhile Websocket.readWhile
      split
      case isFalse => rfl
      case isTrue =>
          rw [erase_access_bind]
          cases ByteStream.read st.ws.socket st.remaining.toNat with
          | mk result socket =>
              cases result with
              | data bytes => exact ih _
              | closed => rfl
              | error => rfl

theorem erase_readExpected (fuel : Nat) (st : ReadState) :
    (readExpected ByteStream.read fuel st).erase = Websocket.readExpected fuel st := by
  induction fuel generalizing st with
  | zero => rfl
  | succ fuel ih =>
      unfold readExpected Websocket.readExpected
      split
      case isFalse => rfl
      case isTrue =>
          simp only [Traced.erase_bind, erase_readWhile, Option.bind_some]
          split
          case isTrue => rfl
          case isFalse =>
              split
              case isTrue => rfl
              case isFalse => exact ih _

theorem erase_readNBytes (bytes expected : Int) (ws : WebSocket) :
    (readNBytes ByteStream.read bytes expected ws).erase = Websocket.readNBytes bytes expected ws :=
  erase_readExpected _ _

theorem erase_checkOpcode (opcode : Nat) :
    (checkOpcode opcode).erase = some (Websocket.checkOpcode opcode) := by
  unfold checkOpcode
  split
  case h_7 =>
      have hinvalid : Websocket.checkOpcode opcode = -1 := by
        unfold Websocket.checkOpcode
        split <;> simp_all
      rw [hinvalid]
      rfl
  all_goals rfl

theorem erase_checkPayloadSize (ws : WebSocket) :
    (checkPayloadSize ws).erase = some (Websocket.checkPayloadSize ws) := by
  unfold checkPayloadSize Websocket.checkPayloadSize
  split <;> rfl

theorem erase_readPayloadSize (streamSize : Nat) (ws : WebSocket) :
    (readPayloadSize ByteStream.read streamSize ws).erase =
    Websocket.readPayloadSize streamSize ws := by
  unfold readPayloadSize Websocket.readPayloadSize
  split
  case isTrue => exact erase_checkPayloadSize _
  case isFalse =>
      split
      case isTrue =>
          rw [Traced.erase_bind, erase_readNBytes]
          rcases Websocket.readNBytes 2 2 ws with _ | ⟨err, ws'⟩
          · rfl
          · rw [Option.bind_some]
            dsimp only
            split
            · rfl
            · split
              · rfl
              · rw [erase_access_bind, erase_checkPayloadSize]
      case isFalse =>
          split
          case isTrue =>
              rw [Traced.erase_bind, erase_readNBytes]
              rcases Websocket.readNBytes 8 8 ws with _ | ⟨err, ws'⟩
              · rfl
              · rw [Option.bind_some]
                dsimp only
                split
                · rfl
                · split
                  · rfl
                  · rw [erase_access_bind, erase_checkPayloadSize]
          case isFalse => rfl

theorem erase_readHeader (ws : WebSocket) :
    (readHeader ByteStream.read ws).erase = Websocket.readHeader ws := by
  unfold readHeader Websocket.readHeader
  rw [Traced.erase_bind, erase_readNBytes]
  rcases Websocket.readNBytes 6 6 ws with _ | ⟨err, ws'⟩
  · rfl
  · rw [Option.bind_some]
    dsimp only
    split
    · rfl
    · split
      · rfl
      · rw [erase_access_bind, erase_access_bind, Traced.erase_bind, erase_checkOpcode,
          Option.bind_some]
        split
        · rfl
        · split
          · rfl
          · exact erase_readPayloadSize _ _

theorem erase_readStream (ws : WebSocket) :
    (readStream ByteStream.read ws).erase = Websocket.readStream ws := by
  unfold readStream Websocket.readStream
  rw [Traced.erase_bind, erase_readHeader]
  rcases Websocket.readHeader (resetReadBuff ws) with _ | ⟨readHeadErr, ws'⟩
  · rfl
  · rw [Option.bind_some]
    dsimp only
    split
    · rfl
    · split
      · rfl
      · rw [Traced.erase_bind, erase_readNBytes]
        rcases Websocket.readNBytes ws'.header.payloadSize ws'.header.payloadSize ws' with
          _ | ⟨err, ws''⟩
        · rfl
        · rw [Option.bind_some]
          dsimp only
          split <;> rfl

theorem erase_decodeRawStreamCmd (ws : WebSocket) (cmd : CommandBuffers) :
    (decodeRawStreamCmd ws cmd).erase = some (Websocket.decodeRawStreamCmd ws cmd) := by
  unfold decodeRawStreamCmd Websocket.decodeRawStreamCmd
  rw [Traced.erase_bind, Traced.erase_emit, Option.bind_some]
  split <;> rfl

/-- The observed functions are those that receive a command. -/
theorem erase_receiveCmd (cmd : CommandBuffers) (ws : WebSocket) :
    (receiveCmd ByteStream.read cmd ws).erase = Websocket.receiveCmd cmd ws := by
  unfold receiveCmd Websocket.receiveCmd
  split
  · rfl
  · rw [Traced.erase_bind, erase_readStream]
    rcases Websocket.readStream ws with _ | ⟨err, ws'⟩
    · rfl
    · rw [Option.bind_some]
      dsimp only
      split
      · rfl
      · split
        · rfl
        · rw [Traced.erase_bind, erase_decodeRawStreamCmd, Option.bind_some]
          split <;> rfl

/-! ## The forms of the length -/

variable (call : ByteStream → Nat → ReadResult × ByteStream)

/-- A length of `n` bytes behind the first six of the header. -/
def readLong (n headerSize maskOffset : Nat) (size : WebSocket → Int) (ws : WebSocket) :
    Traced Event (Int × WebSocket) :=
  readNBytes call n n ws >>= fun result =>
    if result.1 < 0 then pure (-1, result.2)
    else if result.2.connectionClosed then pure (0, result.2)
    else do
      access .readStr 2 n
      checkPayloadSize (result.2.setSize headerSize (size result.2) maskOffset)

theorem readPayloadSize_cases (streamSize : Nat) (ws : WebSocket) :
    readPayloadSize call streamSize ws = checkPayloadSize (ws.setSize 6 streamSize 2) ∨
      (∃ n headerSize maskOffset size, n ≤ 8 ∧
        readPayloadSize call streamSize ws = readLong call n headerSize maskOffset size ws) ∨
      readPayloadSize call streamSize ws = (do
        print .critical "WebSocket: Couldn't decode stream size\n"
        pure (-1, ws)) := by
  unfold readPayloadSize
  split
  case isTrue => exact .inl rfl
  case isFalse =>
      split
      case isTrue =>
          exact .inr (.inl ⟨2, 8, 4, fun ws => (extractUint16 (ws.readStr.offset 2)).toNat,
            by decide, rfl⟩)
      case isFalse =>
          split
          case isTrue =>
              exact .inr (.inl ⟨8, 14, 10, fun ws => (extractUint64 (ws.readStr.offset 2)).toInt,
                by decide, rfl⟩)
          case isFalse => exact .inr (.inr rfl)

end Observed

end KoheronServer.Websocket
