import KoheronServer.Foundation.CStrings
import KoheronServer.Foundation.Substrings
import KoheronServer.Websocket.Send
import Mathlib.Data.List.TakeWhile

/-!
# The handshake of a WebSocket

`authenticate` and `read_http_packet`. The request is taken from one `read`, so one
that arrives in several pieces is answered as its first piece is, and a piece of a
request has no header. SHA-1 and the base64 encoding are parameters.
-/

namespace KoheronServer.Websocket

open Foundation Session

def ascii (text : String) : Bytes := chars text.toList

def wsKeyIdentifier : Bytes := ascii "Sec-WebSocket-Key: "

def wsProtocolIdentifier : Bytes := ascii "Sec-WebSocket-Protocol: "

def wsMagic : Bytes := ascii "258EAFA5-E914-47DA-95CA-C5AB0DC85B11"

def wsKeyLen : Nat := 24

/-- The end of the header. -/
def emptyLine : Bytes := ascii "\r\n\r\n"

/-- What `read_http_packet` has done: it returns -1, or the number of bytes with `http_packet`. -/
inductive HttpPacket where
  | failed (error : Option String)
  | received (nbBytesRcvd : Nat) (httpPacket : Bytes)

/-- `read_http_packet`. A string without a NUL in the array has no result. -/
def readHttpPacket (ws : WebSocket) : Option (HttpPacket × WebSocket) :=
  let ws := resetReadBuff ws
  match ws.socket.read websockReadStrLen with
  | (.error, socket) => some (.failed "WebSocket: Read error\n", { ws with socket := socket })
  | (.closed, socket) =>
      some (.failed none, { ws with socket := socket, connectionClosed := true })
  | (.data bytes, socket) =>
      let ws := { ws with readStr := ws.readStr.store 0 bytes, socket := socket }
      if bytes.length = kserverReadStrLen then
        some (.failed "WebSocket: Read buffer overflow\n", ws)
      else
        match ws.readStr.readCString 0 websockReadStrLen with
        | none => none
        | some httpPacket =>
            match find emptyLine httpPacket with
            | none => some (.failed "WebSocket: No HTML header found\n", ws)
            | some _ => some (.received bytes.length httpPacket, ws)

/-- `std::string::substr`, which throws for a position behind the end. -/
def substr (text : Bytes) (pos len : Nat) : Option Bytes :=
  if pos ≤ text.length then some ((text.drop pos).take len) else none

def switchingProtocols (finalStr : Bytes) (isProtocol : Bool) : Bytes :=
  ascii "HTTP/1.1 101 Switching Protocols\r\n" ++ ascii "Upgrade: websocket\r\n" ++
    ascii "Connection: Upgrade\r\n" ++ ascii "Sec-WebSocket-Accept: " ++ finalStr ++ ascii "\r\n" ++
    (if isProtocol then ascii "Sec-WebSocket-Protocol: chat\r\n" else []) ++ ascii "\r\n"

/-- What `authenticate` returns, the response that it sends and what the connection takes of it,
what is logged as an error, and the object. -/
structure Handshake where
  ret : Int
  response : Option Bytes
  taken : Bytes
  error : Option String
  ws : WebSocket

section

variable (sha1 base64Encode : Bytes → Bytes)

def authenticate (ws : WebSocket) (calls : Calls) : Option Handshake :=
  match readHttpPacket ws with
  | none => none
  | some (.failed error, ws) => some ⟨-1, none, [], error, ws⟩
  | some (.received _ httpPacket, ws) =>
      let isProtocol := (find wsProtocolIdentifier httpPacket).isSome
      match find wsKeyIdentifier httpPacket with
      | none => some ⟨-1, none, [], some "WebSocket: No WebSocket Key", ws⟩
      | some pos =>
          match substr httpPacket (pos + wsKeyIdentifier.length) wsKeyLen with
          | none => some ⟨-1, none, [], none, ws⟩
          | some key =>
              let finalStr := base64Encode (sha1 (key ++ wsMagic))
              let response := switchingProtocols finalStr isProtocol
              let sent := sendRequest ws.connectionClosed response calls
              some ⟨sent.ret, some response, sent.taken, sent.error,
                { ws with connectionClosed := sent.connectionClosed }⟩

def Handshake.outcome (done : Handshake) : Int × Option Bytes × Bytes × Bool :=
  (done.ret, done.response, done.taken, done.ws.connectionClosed)

def WebSocket.connected (socket : ByteStream) : WebSocket where
  readStrLen := 0
  readStr := fun _ => 0
  header := ⟨0, 0, 0, false, false, 0⟩
  connectionClosed := false
  socket := socket

/-- A request for an upgrade: it is shorter than the buffer, names a key of 24 characters and,
having no body, ends with its first empty line. -/
structure Request (request : Bytes) : Prop where
  short : request.length < websockReadStrLen
  key : ∃ front key rest, request = front ++ wsKeyIdentifier ++ key ++ rest ∧ key.length = wsKeyLen
  ends : ∃ front, request = front ++ emptyLine ∧ find emptyLine request = some front.length

def handshake (pieces : List Chunk) (later : List Arrival) (ending : Foundation.Ending)
    (calls : Calls) : Option (Int × Option Bytes × Bytes × Bool) :=
  (authenticate sha1 base64Encode (.connected ⟨pieces.map .data ++ later, ending⟩) calls).map
    Handshake.outcome

/-- Two deliveries have the same outcome, and there is one. -/
def SameOutcome (pieces pieces' : List Chunk) (later : List Arrival) (ending : Foundation.Ending)
    (calls : Calls) : Prop :=
  ∃ outcome, handshake sha1 base64Encode pieces later ending calls = some outcome ∧
    handshake sha1 base64Encode pieces' later ending calls = some outcome

/-! ## What one read decides -/

def packetOf (text : Bytes) : Bytes := text.takeWhile (· ≠ 0)

/-- The bytes of one read that `read_http_packet` lets through. -/
def HasHeader (text : Bytes) : Prop :=
  text.length ≠ kserverReadStrLen ∧ emptyLine <:+: packetOf text

/-- The outcome of a handshake that fails in front of the response. -/
def rejected : Int × Option Bytes × Bytes × Bool := (-1, none, [], false)

theorem read_piece (piece : Chunk) (arrivals : List Arrival) (ending : Foundation.Ending)
    (hshort : piece.bytes.length < websockReadStrLen) :
    ByteStream.read ⟨.data piece :: arrivals, ending⟩ websockReadStrLen =
      (.data piece.bytes, ⟨arrivals, ending⟩) := by
  have hsize : websockReadStrLen ≠ 0 := by decide
  have hcut : ¬websockReadStrLen < piece.bytes.length := by omega
  simp only [ByteStream.read, if_neg hsize, dif_neg hcut]

def WebSocket.behind (text : Bytes) (socket : ByteStream) : WebSocket :=
  { WebSocket.connected socket with readStr := Memory.store (fun _ => 0) 0 text }

variable {sha1 base64Encode} {socket socket' : ByteStream} {text : Bytes}

theorem readHttpPacket_rejects (hread : socket.read websockReadStrLen = (.data text, socket'))
    (hshort : text.length < websockReadStrLen) (hheader : ¬HasHeader text) :
    ∃ error, readHttpPacket (.connected socket) =
      some (.failed error, WebSocket.behind text socket') := by
  have hstring := Memory.readCString_store text hshort
  by_cases hlength : text.length = kserverReadStrLen
  · refine ⟨"WebSocket: Read buffer overflow\n", ?_⟩
    simp only [readHttpPacket, resetReadBuff, WebSocket.connected, List.replicate_zero,
      Memory.store_nil, hread, if_pos hlength]
    rfl
  · have hnone : find emptyLine (packetOf text) = none :=
      find_eq_none_iff.mpr fun hinfix => hheader ⟨hlength, hinfix⟩
    rw [packetOf] at hnone
    refine ⟨"WebSocket: No HTML header found\n", ?_⟩
    simp only [readHttpPacket, resetReadBuff, WebSocket.connected, List.replicate_zero,
      Memory.store_nil, hread, if_neg hlength, hstring, hnone]
    rfl

theorem readHttpPacket_accepts (hread : socket.read websockReadStrLen = (.data text, socket'))
    (hshort : text.length < websockReadStrLen) (hheader : HasHeader text) :
    readHttpPacket (.connected socket) =
      some (.received text.length (packetOf text), WebSocket.behind text socket') := by
  have hstring := Memory.readCString_store text hshort
  obtain ⟨hlength, hinfix⟩ := hheader
  obtain ⟨pos, hpos⟩ := Option.isSome_iff_exists.mp (find_isSome_iff.mpr hinfix)
  rw [packetOf] at hpos
  simp only [readHttpPacket, resetReadBuff, WebSocket.connected, List.replicate_zero,
    Memory.store_nil, hread, if_neg hlength, hstring, hpos]
  rfl

theorem authenticate_rejects (hread : socket.read websockReadStrLen = (.data text, socket'))
    (hshort : text.length < websockReadStrLen) (hheader : ¬HasHeader text) (calls : Calls) :
    (authenticate sha1 base64Encode (.connected socket) calls).map Handshake.outcome =
      some rejected := by
  obtain ⟨error, hpacket⟩ := readHttpPacket_rejects hread hshort hheader
  rw [authenticate, hpacket]
  rfl

theorem authenticate_responds (hread : socket.read websockReadStrLen = (.data text, socket'))
    (hshort : text.length < websockReadStrLen) (hheader : HasHeader text)
    (hkey : wsKeyIdentifier <:+: packetOf text) (calls : Calls) :
    ∃ outcome response, outcome.2.1 = some response ∧
      (authenticate sha1 base64Encode (.connected socket) calls).map Handshake.outcome =
        some outcome := by
  obtain ⟨pos, hpos⟩ := Option.isSome_iff_exists.mp (find_isSome_iff.mpr hkey)
  have hinside : pos + wsKeyIdentifier.length ≤ (packetOf text).length := find_le hpos
  rw [authenticate, readHttpPacket_accepts hread hshort hheader]
  simp only [hpos, substr, if_pos hinside, Option.map_some]
  exact ⟨_, _, rfl, rfl⟩

/-! ## Requests in pieces -/

theorem Request.hasHeader_length {request text : Bytes} (h : Request request)
    (htext : text <+: request) (hheader : HasHeader text) :
    request.length ≤ (packetOf text).length := by
  obtain ⟨front, hrequest, hfirst⟩ := h.ends
  have hbegins : packetOf text <+: request := (List.takeWhile_prefix _).trans htext
  by_contra hcut
  have hlength := congrArg List.length hrequest
  rw [List.length_append] at hlength
  have hnone := find_eq_none_of_prefix hfirst hbegins (by omega)
  exact find_eq_none_iff.mp hnone hheader.2

/-- A whole request has one unless its length is `KSERVER_READ_STR_LEN` or it holds a NUL. -/
theorem Request.hasHeader_iff {request : Bytes} (h : Request request) :
    HasHeader request ↔ ¬(request.length = kserverReadStrLen ∨ 0 ∈ request) := by
  rw [not_or]
  constructor
  · intro hheader
    refine ⟨hheader.1, fun hnul => ?_⟩
    have hlength := h.hasHeader_length List.prefix_rfl hheader
    have hwhole := (List.takeWhile_prefix _).eq_of_length_le hlength
    rw [← hwhole] at hnul
    have hnonzero := List.mem_takeWhile_imp hnul
    simp at hnonzero
  · rintro ⟨hlength, hnul⟩
    obtain ⟨front, hrequest, -⟩ := h.ends
    have hpacket : packetOf request = request := by
      refine List.takeWhile_eq_self_iff.mpr fun b hb => ?_
      have hne : b ≠ 0 := fun hzero => hnul (hzero ▸ hb)
      exact decide_eq_true hne
    refine ⟨hlength, ?_⟩
    rw [hpacket, hrequest]
    exact (List.suffix_append front emptyLine).isInfix

variable (sha1 base64Encode) in
theorem handshake_piece {piece : Chunk} (hshort : piece.bytes.length < websockReadStrLen)
    (hheader : ¬HasHeader piece.bytes) (pieces : List Chunk) (later : List Arrival)
    (ending : Foundation.Ending) (calls : Calls) :
    handshake sha1 base64Encode (piece :: pieces) later ending calls = some rejected :=
  authenticate_rejects (read_piece piece _ ending hshort) hshort hheader calls

variable (sha1 base64Encode) in
theorem Request.handshake_whole {whole : Chunk} (h : Request whole.bytes)
    (hheader : HasHeader whole.bytes) (later : List Arrival) (ending : Foundation.Ending)
    (calls : Calls) :
    ∃ outcome response, outcome.2.1 = some response ∧
      handshake sha1 base64Encode [whole] later ending calls = some outcome := by
  obtain ⟨front, key, rest, hrequest, -⟩ := h.key
  have hpacket : packetOf whole.bytes = whole.bytes := by
    refine (List.takeWhile_prefix _).eq_of_length_le ?_
    exact h.hasHeader_length List.prefix_rfl hheader
  have hkey : wsKeyIdentifier <:+: packetOf whole.bytes := by
    rw [hpacket, hrequest, List.append_assoc (front ++ wsKeyIdentifier)]
    exact List.infix_append front wsKeyIdentifier (key ++ rest)
  exact authenticate_responds (read_piece whole _ ending h.short) h.short hheader hkey calls

variable (sha1 base64Encode) in
/-- A request that comes whole has an outcome. -/
theorem Request.handshake_isSome {whole : Chunk} (h : Request whole.bytes) (later : List Arrival)
    (ending : Foundation.Ending) (calls : Calls) :
    ∃ outcome, handshake sha1 base64Encode [whole] later ending calls = some outcome := by
  by_cases hheader : HasHeader whole.bytes
  · obtain ⟨outcome, -, -, hdone⟩ :=
      h.handshake_whole sha1 base64Encode hheader later ending calls
    exact ⟨outcome, hdone⟩
  · exact ⟨rejected, handshake_piece sha1 base64Encode h.short hheader [] later ending calls⟩

variable (sha1 base64Encode) in
theorem Request.handshake_several {piece next : Chunk} {pieces : List Chunk} {request : Bytes}
    (h : Request request)
    (hpieces : (piece :: next :: pieces).flatMap Chunk.bytes = request) (later : List Arrival)
    (ending : Foundation.Ending) (calls : Calls) :
    handshake sha1 base64Encode (piece :: next :: pieces) later ending calls = some rejected := by
  rw [List.flatMap_cons] at hpieces
  have hcut : piece.bytes.length < request.length := by
    have hnext := List.length_pos_iff.mpr next.nonempty
    rw [← hpieces, List.flatMap_cons, List.length_append, List.length_append]
    omega
  have hnone : ¬HasHeader piece.bytes := by
    intro hheader
    have hlength := h.hasHeader_length ⟨_, hpieces⟩ hheader
    have hle : (packetOf piece.bytes).length ≤ piece.bytes.length :=
      (List.takeWhile_prefix _).length_le
    omega
  have hshort := h.short
  exact handshake_piece sha1 base64Encode (by omega) hnone (next :: pieces) later ending calls

variable (sha1 base64Encode) in
/-- A whole request is rejected as well exactly when it has no header. -/
theorem Request.rejected_iff {whole : Chunk} (h : Request whole.bytes) (later : List Arrival)
    (ending : Foundation.Ending) (calls : Calls) :
    handshake sha1 base64Encode [whole] later ending calls = some rejected ↔
      ¬HasHeader whole.bytes := by
  constructor
  · intro hdone hheader
    obtain ⟨outcome, response, hresponse, hdone'⟩ :=
      h.handshake_whole sha1 base64Encode hheader later ending calls
    rw [hdone] at hdone'
    obtain rfl := Option.some.inj hdone'
    cases hresponse
  · intro hheader
    exact handshake_piece sha1 base64Encode h.short hheader [] later ending calls

end

/-- A request that comes in pieces is answered as one that comes whole exactly when it does come
whole, or is rejected in any case. -/
theorem handshake_same_iff (sha1 base64Encode : Bytes → Bytes) {whole : Chunk}
    (h : Request whole.bytes) {pieces : List Chunk}
    (hpieces : pieces.flatMap Chunk.bytes = whole.bytes) (later : List Arrival)
    (ending : Foundation.Ending) (calls : Calls) :
    SameOutcome sha1 base64Encode pieces [whole] later ending calls ↔
      pieces.length = 1 ∨ whole.bytes.length = kserverReadStrLen ∨ 0 ∈ whole.bytes := by
  cases pieces with
  | nil => exact absurd hpieces.symm whole.nonempty
  | cons piece pieces =>
      cases pieces with
      | nil =>
          -- the only piece is the request
          have hwhole : piece = whole := by
            rw [List.flatMap_cons, List.flatMap_nil, List.append_nil] at hpieces
            cases piece
            cases whole
            cases hpieces
            rfl
          subst hwhole
          obtain ⟨outcome, hdone⟩ := h.handshake_isSome sha1 base64Encode later ending calls
          exact iff_of_true ⟨outcome, hdone, hdone⟩ (.inl rfl)
      | cons next pieces =>
          have hfirst := h.handshake_several sha1 base64Encode hpieces later ending calls
          have hwhole := h.rejected_iff sha1 base64Encode later ending calls
          have hseveral : (piece :: next :: pieces).length ≠ 1 := by simp
          have hcase := not_iff_comm.mp h.hasHeader_iff.symm
          rw [or_iff_right hseveral, ← hcase, ← hwhole]
          constructor
          · intro hsame
            obtain ⟨outcome, hpiece, hdone⟩ := hsame
            rw [hfirst] at hpiece
            rw [hdone, hpiece]
          · intro hdone
            exact ⟨rejected, hfirst, hdone⟩

def sampleStart : Chunk := ⟨ascii "GET /chat HTTP/1.1\r\n", by decide +kernel, by decide +kernel⟩

def sampleRest : Chunk :=
  ⟨ascii "Upgrade: websocket\r\nSec-WebSocket-Key: dGhlIHNhbXBsZSBub25jZQ==\r\n\r\n",
    by decide +kernel, by decide +kernel⟩

def sampleWhole : Chunk :=
  ⟨sampleStart.bytes ++ sampleRest.bytes, by decide +kernel, by decide +kernel⟩

def sampleDigest : Bytes :=
  [0xb3, 0x7a, 0x4f, 0x2c, 0xc0, 0x62, 0x4f, 0x16, 0x90, 0xf6, 0x46, 0x06, 0xcf, 0x38, 0x59, 0x45,
    0xb2, 0xbe, 0xc4, 0xea]

def sampleAccept : Bytes := ascii "s3pPLMBiTxaQ9kYGzzhZRbK+xOo="

theorem sampleWhole_request : Request sampleWhole.bytes where
  short := by decide +kernel
  key := ⟨ascii "GET /chat HTTP/1.1\r\nUpgrade: websocket\r\n", ascii "dGhlIHNhbXBsZSBub25jZQ==",
    emptyLine, by decide +kernel, by decide +kernel⟩
  ends := ⟨sampleWhole.bytes.take (sampleWhole.bytes.length - 4), by decide +kernel,
    by decide +kernel⟩

/-- A request in two pieces. -/
theorem sample_same_iff :
    Request sampleWhole.bytes ∧
      (SameOutcome (fun _ => sampleDigest) (fun _ => sampleAccept) [sampleStart, sampleRest]
          [sampleWhole] [] .closed ⟨[], .all⟩ ↔
        [sampleStart, sampleRest].length = 1 ∨ sampleWhole.bytes.length = kserverReadStrLen ∨
          0 ∈ sampleWhole.bytes) :=
  ⟨sampleWhole_request, handshake_same_iff _ _ sampleWhole_request (by decide +kernel) _ _ _⟩

/-- A request whose first line comes alone is rejected, and answered when it comes whole. -/
theorem sample_not_same :
    Request sampleWhole.bytes ∧
      [sampleStart, sampleRest].flatMap Chunk.bytes = sampleWhole.bytes ∧
      ¬SameOutcome (fun _ => sampleDigest) (fun _ => sampleAccept) [sampleStart, sampleRest]
        [sampleWhole] [] .closed ⟨[], .all⟩ := by
  refine ⟨sampleWhole_request, by decide +kernel, ?_⟩
  rintro ⟨outcome, hpieces, hwhole⟩
  have hheader : HasHeader sampleWhole.bytes :=
    ⟨by decide +kernel, find_isSome_iff.mp (by decide +kernel)⟩
  have hfirst := sampleWhole_request.handshake_several (fun _ => sampleDigest)
    (fun _ => sampleAccept) (show [sampleStart, sampleRest].flatMap Chunk.bytes = _ by
      decide +kernel) [] .closed ⟨[], .all⟩
  rw [hfirst] at hpieces
  obtain rfl := Option.some.inj hpieces
  exact (sampleWhole_request.rejected_iff _ _ _ _ _).mp hwhole hheader

end KoheronServer.Websocket
