import KoheronServer.Foundation.ByteStream
import KoheronServer.Session.Run

/-!
# Receiving a WebSocket command

`read_n_bytes`, `read_header`, `read_stream` and `receive_cmd` of `WebSocket`, and
`Session<WEBSOCK>::read_command`. A read that fails is tried again without an end,
so the functions that read have no result on a connection that only fails.
-/

namespace KoheronServer.Websocket

open Foundation Wire Session

def kserverReadStrLen : Nat := 16384

def websockReadStrLen : Nat := 16384 * 2 * 4

structure Header where
  headerSize : Nat
  maskOffset : Nat
  payloadSize : Int
  fin : Bool
  masked : Bool
  opcode : Nat

structure WebSocket where
  readStrLen : Nat
  readStr : Memory
  header : Header
  connectionClosed : Bool
  socket : ByteStream

structure CommandBuffers where
  header : Memory
  payload : Memory

def resetReadBuff (ws : WebSocket) : WebSocket :=
  { ws with readStr := ws.readStr.store 0 (List.replicate ws.readStrLen 0), readStrLen := 0 }

/-! ## `read_n_bytes` -/

/-- `read` has put `bytes` behind those that the buffer holds. -/
def WebSocket.push (ws : WebSocket) (bytes : Bytes) (socket : ByteStream) : WebSocket :=
  { ws with
    readStr := ws.readStr.store ws.readStrLen bytes
    readStrLen := ws.readStrLen + bytes.length
    socket := socket }

structure ReadState where
  remaining : Int
  expected : Int
  bytesRead : Int
  ws : WebSocket

/-- The inner loop. It goes on as long as `read` returns something, so the branch for
a negative result in its body is never taken. -/
def readWhile : Nat → ReadState → ReadState
  | 0, st => st
  | fuel + 1, st =>
      if st.remaining > 0 then
        match st.ws.socket.read st.remaining.toNat with
        | (.closed, socket) => { st with bytesRead := 0, ws := { st.ws with socket := socket } }
        | (.error, socket) => { st with bytesRead := -1, ws := { st.ws with socket := socket } }
        | (.data bytes, socket) =>
            readWhile fuel
              { remaining := st.remaining - bytes.length
                expected := max 0 (st.expected - bytes.length)
                bytesRead := bytes.length
                ws := st.ws.push bytes socket }
      else st

def readExpected : Nat → ReadState → Option (Int × WebSocket)
  | 0, _ => none
  | fuel + 1, st =>
      if st.expected > 0 then
        let st := readWhile st.remaining.toNat st
        if st.bytesRead = 0 then some (1, { st.ws with connectionClosed := true })
        else if st.ws.readStrLen = kserverReadStrLen then some (-1, st.ws)
        else readExpected fuel st
      else some (0, st.ws)

/-- `read_n_bytes`. A turn of the outer loop that does not end it meets an arrival that is
an error, or the connection fails for ever; then there is no result. -/
def readNBytes (bytes expected : Int) (ws : WebSocket) : Option (Int × WebSocket) :=
  readExpected (ws.socket.arrivals.length + 2) ⟨bytes, expected, -1, ws⟩

/-! ## `read_header` -/

def checkOpcode (opcode : Nat) : Int :=
  match opcode with
  | 0x1 | 0x2 => 0
  | 0x8 => 1
  | _ => -1

/-- The fields of the header that are bits of its first two bytes. -/
def WebSocket.setBits (ws : WebSocket) (first second : Byte) : WebSocket :=
  { ws with header :=
      { ws.header with
        fin := first &&& 0x80 != 0
        masked := second &&& 0x80 != 0
        opcode := (first &&& 0x0F).toNat } }

/-- The fields of the header that depend on the form of the length. -/
def WebSocket.setSize (ws : WebSocket) (headerSize : Nat) (payloadSize : Int) (maskOffset : Nat) :
    WebSocket :=
  { ws with header := { ws.header with headerSize, payloadSize, maskOffset } }

/-- The test at the end of `read_header`. -/
def checkPayloadSize (ws : WebSocket) : Int × WebSocket :=
  if ws.header.payloadSize > websockReadStrLen - 56 then (-1, ws) else (0, ws)

def readPayloadSize (streamSize : Nat) (ws : WebSocket) : Option (Int × WebSocket) :=
  if streamSize ≤ 125 then
    some (checkPayloadSize (ws.setSize 6 streamSize 2))
  else if streamSize = 126 then
    match readNBytes 2 2 ws with
    | none => none
    | some (err, ws) =>
        if err < 0 then some (-1, ws)
        else if ws.connectionClosed then some (0, ws)
        else
          let s := extractUint16 (ws.readStr.offset 2)
          some (checkPayloadSize (ws.setSize 8 s.toNat 4))
  else if streamSize = 127 then
    match readNBytes 8 8 ws with
    | none => none
    | some (err, ws) =>
        if err < 0 then some (-1, ws)
        else if ws.connectionClosed then some (0, ws)
        else
          let l := extractUint64 (ws.readStr.offset 2)
          some (checkPayloadSize (ws.setSize 14 l.toInt 10))
  else some (-1, ws)

def readHeader (ws : WebSocket) : Option (Int × WebSocket) :=
  match readNBytes 6 6 ws with
  | none => none
  | some (err, ws) =>
      if err < 0 then some (-1, ws)
      else if ws.connectionClosed then some (0, ws)
      else
        let streamSize := (ws.readStr 1 &&& 0x7F).toNat
        let ws := ws.setBits (ws.readStr 0) (ws.readStr 1)
        let opcodeErr := checkOpcode ws.header.opcode
        if opcodeErr < 0 then some (-1, ws)
        else if opcodeErr = 1 then some (opcodeErr, { ws with connectionClosed := true })
        else readPayloadSize streamSize ws

/-! ## `receive_cmd` -/

def readStream (ws : WebSocket) : Option (Int × WebSocket) :=
  match readHeader (resetReadBuff ws) with
  | none => none
  | some (readHeadErr, ws) =>
      if readHeadErr < 0 then some (-1, ws)
      else if readHeadErr = 1 then some (readHeadErr, ws)
      else
        match readNBytes ws.header.payloadSize ws.header.payloadSize ws with
        | none => none
        | some (err, ws) => if err < 0 then some (-1, ws) else some (err, ws)

/-- The payload bytes `first ≤ i < first + n`, each with its byte of the mask. -/
def unmask (ws : WebSocket) (first n : Nat) : Bytes :=
  (List.range' first n).map fun i =>
    ws.readStr (ws.header.maskOffset + 4 + i) ^^^ ws.readStr (ws.header.maskOffset + i % 4)

def decodeRawStreamCmd (ws : WebSocket) (cmd : CommandBuffers) : Int × CommandBuffers :=
  if ws.readStrLen < ws.header.headerSize + 1 then (-1, cmd)
  else
    (0,
      { header := cmd.header.store 0 (unmask ws 0 headerSize)
        payload :=
          cmd.payload.store 0 (unmask ws headerSize (ws.header.payloadSize - headerSize).toNat) })

def receiveCmd (cmd : CommandBuffers) (ws : WebSocket) :
    Option (Int × CommandBuffers × WebSocket) :=
  if ws.connectionClosed then some (0, cmd, ws)
  else
    match readStream ws with
    | none => none
    | some (err, ws) =>
        if err < 0 then some (-1, cmd, ws)
        else if err = 1 then some (0, cmd, ws)
        else
          let decoded := decodeRawStreamCmd ws cmd
          if decoded.1 < 0 then some (-1, decoded.2, ws)
          else some ((BitVec.ofInt 32 ws.header.payloadSize).toInt, decoded.2, ws)

/-- `Session<WEBSOCK>::read_command`. -/
def readCommand (cmd : CommandBuffers) (ws : WebSocket) :
    Option (CommandRead WebSocket × CommandBuffers) :=
  match receiveCmd cmd ws with
  | none => none
  | some (ret, cmd, ws) =>
      if ret < 0 then some (⟨-1, 0, 0, ws⟩, cmd)
      else if ws.connectionClosed then some (⟨0, 0, 0, ws⟩, cmd)
      else if ws.header.payloadSize < headerSize then some (⟨-1, 0, 0, ws⟩, cmd)
      else
        let ids := decodeHeader cmd.header
        some (⟨headerSize, ids.1, ids.2, ws⟩, cmd)

/-! ## Reading bytes that arrive -/

def WebSocket.received (ws : WebSocket) : Bytes := ws.readStr.load 0 ws.readStrLen

theorem load_received {ws : WebSocket} (pre block post : Bytes)
    (h : ws.received = pre ++ (block ++ post)) :
    ws.readStr.load pre.length block.length = block := by
  have hlen : ws.readStrLen = (pre ++ (block ++ post)).length := by
    rw [← h, WebSocket.received, Memory.load_length]
  rw [WebSocket.received, hlen, List.length_append, List.length_append, Memory.load_append,
    Nat.zero_add, Memory.load_append] at h
  have hblock := (List.append_inj h (by simp)).2
  exact (List.append_inj hblock (by simp)).1

theorem unmask_received {ws : WebSocket} (front key data : Bytes)
    (hreceived : ws.received = front ++ (key ++ data))
    (hfront : front.length = ws.header.maskOffset)
    (hkey : key.length = 4) {first n : Nat} (hn : first + n ≤ data.length) :
    unmask ws first n =
      ((data.mapIdx fun i b => b ^^^ Memory.ofBytes key (i % 4)).drop first).take n := by
  have hkeyAt := load_received front key data hreceived
  have hdataAt := load_received (front ++ key) data [] (by rw [hreceived]; simp)
  rw [hfront] at hkeyAt
  rw [List.length_append, hfront, hkey] at hdataAt
  have hkeyByte : ∀ i, i < 4 → ws.readStr (ws.header.maskOffset + i) = Memory.ofBytes key i := by
    intro i hi
    have hbyte := Memory.eq_of_load_eq (hkeyAt.trans (Memory.load_ofBytes key).symm) (hkey ▸ hi)
    rwa [Nat.zero_add] at hbyte
  have hdataByte : ∀ i, (hi : i < data.length) →
      ws.readStr (ws.header.maskOffset + 4 + i) = data[i] := by
    intro i hi
    rw [Memory.eq_of_load_eq (hdataAt.trans (Memory.load_ofBytes data).symm) hi, Memory.ofBytes,
      Nat.zero_add, List.getElem?_eq_getElem hi, Option.getD_some]
  apply List.ext_getElem
  · simp [unmask]
    omega
  · intro i hi _
    have hi : i < n := by simpa [unmask] using hi
    simp only [unmask, List.getElem_map, List.getElem_range', Nat.one_mul, List.getElem_take,
      List.getElem_drop, List.getElem_mapIdx, hdataByte (first + i) (by omega),
      hkeyByte ((first + i) % 4) (Nat.mod_lt _ (by decide))]

structure Takes (ws : WebSocket) (bytes : Bytes) (ws' : WebSocket) : Prop where
  received : ws'.received = ws.received ++ bytes
  readStrLen : ws'.readStrLen = ws.readStrLen + bytes.length
  header : ws'.header = ws.header
  connectionClosed : ws'.connectionClosed = ws.connectionClosed
  socket : ws.socket.bytes = bytes ++ ws'.socket.bytes

theorem Takes.refl (ws : WebSocket) : Takes ws [] ws := by
  constructor <;> simp

theorem Takes.trans {ws ws' ws'' : WebSocket} {xs ys : Bytes} (h : Takes ws xs ws')
    (h' : Takes ws' ys ws'') : Takes ws (xs ++ ys) ws'' where
  received := by rw [h'.received, h.received, List.append_assoc]
  readStrLen := by rw [h'.readStrLen, h.readStrLen, List.length_append, Nat.add_assoc]
  header := h'.header.trans h.header
  connectionClosed := h'.connectionClosed.trans h.connectionClosed
  socket := by rw [h.socket, h'.socket, List.append_assoc]

theorem takes_push (ws : WebSocket) (bytes : Bytes) {socket : ByteStream}
    (hsocket : ws.socket.bytes = bytes ++ socket.bytes) :
    Takes ws bytes (ws.push bytes socket) where
  received := by
    rw [WebSocket.received, WebSocket.push, Memory.load_append,
      Memory.load_store_before _ _ (by omega), Nat.zero_add, Memory.load_store_self]
    rfl
  readStrLen := rfl
  header := rfl
  connectionClosed := rfl
  socket := hsocket

theorem readWhile_delivers (fuel k : Nat) (bytesRead : Int) {ws : WebSocket} {bytes : Bytes}
    (h : ws.socket.Delivers bytes) (hk : k ≤ bytes.length) (hfuel : k ≤ fuel) :
    ∃ bytesRead' ws', readWhile fuel ⟨k, k, bytesRead, ws⟩ = ⟨0, 0, bytesRead', ws'⟩ ∧
      (bytesRead' = 0 → k = 0 ∧ bytesRead = 0) ∧ Takes ws (bytes.take k) ws' ∧
      ws'.socket.Delivers (bytes.drop k) := by
  induction fuel generalizing k bytesRead ws bytes with
  | zero =>
      obtain rfl : k = 0 := by omega
      exact ⟨bytesRead, ws, rfl, fun h => ⟨rfl, h⟩, Takes.refl ws, h⟩
  | succ fuel ih =>
      by_cases hpos : 0 < k
      · obtain ⟨bs, socket, hread, hlen, hle, htake, hdelivers, hsocket⟩ :=
          ByteStream.read_delivers h hpos hk
        have hstep := takes_push ws bs hsocket
        have hnext : (ws.push bs socket).socket.Delivers (bytes.drop bs.length) := hdelivers
        obtain ⟨bytesRead', ws', hrest, hzero, htakes, hdelivers'⟩ :=
          ih (k - bs.length) bs.length hnext (by rw [List.length_drop]; omega) (by omega)
        have hsplit : bytes.take k = bs ++ (bytes.drop bs.length).take (k - bs.length) := by
          conv_lhs => rw [show k = bs.length + (k - bs.length) by omega, List.take_add, ← htake]
        refine ⟨bytesRead', ws', ?_, fun h => ?_, ?_, ?_⟩
        · have hremaining : (k : Int) - bs.length = ((k - bs.length : Nat) : Int) := by omega
          have hexpected : max 0 ((k - bs.length : Nat) : Int) = ((k - bs.length : Nat) : Int) := by
            omega
          rw [readWhile, if_pos (by simpa using hpos), Int.toNat_natCast, hread]
          simp only [hremaining, hexpected]
          exact hrest
        · have hcontra := (hzero h).2
          omega
        · rw [hsplit]
          exact hstep.trans htakes
        · rw [List.drop_drop, show bs.length + (k - bs.length) = k by omega] at hdelivers'
          exact hdelivers'
      · obtain rfl : k = 0 := by omega
        exact ⟨bytesRead, ws, rfl, fun h => ⟨rfl, h⟩, Takes.refl ws, h⟩

/-- `read_n_bytes` takes the bytes it asks for, and fails behind them when the buffer holds
exactly `KSERVER_READ_STR_LEN` bytes, although it is eight times as long. -/
theorem readNBytes_delivers {k : Nat} (hpos : 0 < k) {ws : WebSocket} {bytes : Bytes}
    (h : ws.socket.Delivers bytes) (hk : k ≤ bytes.length) :
    ∃ ws', readNBytes k k ws =
        some (if ws.readStrLen + k = kserverReadStrLen then -1 else 0, ws') ∧
      Takes ws (bytes.take k) ws' ∧ ws'.socket.Delivers (bytes.drop k) := by
  obtain ⟨bytesRead', ws', hwhile, hzero, htakes, hdelivers⟩ :=
    readWhile_delivers k k (-1) h hk (Nat.le_refl k)
  refine ⟨ws', ?_, htakes, hdelivers⟩
  have hne : bytesRead' ≠ 0 := fun h => by
    have hcontra := (hzero h).1
    omega
  have hlen : ws'.readStrLen = ws.readStrLen + k := by
    rw [htakes.readStrLen, List.length_take, Nat.min_eq_left hk]
  rw [readNBytes, readExpected, if_pos (by simpa using hpos)]
  simp only [Int.toNat_natCast, hwhile, if_neg hne, hlen]
  by_cases hfull : ws.readStrLen + k = kserverReadStrLen
  · rw [if_pos hfull, if_pos hfull]
  · rw [if_neg hfull, if_neg hfull, readExpected, if_neg (by simp)]

end KoheronServer.Websocket
