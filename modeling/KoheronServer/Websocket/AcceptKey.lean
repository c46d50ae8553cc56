import KoheronServer.Crypto.Base64
import KoheronServer.Crypto.Sha1Digest
import KoheronServer.Websocket.Handshake

/-!
# The accept value of a handshake

`authenticate` with the functions that it calls: a request that is read whole is
answered with the digest of its key and the magic string, in base64.
-/

namespace KoheronServer.Websocket

open Foundation

/-- `base64_encode(sha_str, 20)`. -/
def base64OfSha (shaStr : Bytes) : Bytes := Crypto.base64Encode (Memory.ofBytes shaStr) 20

def acceptValue (key : Bytes) : Bytes :=
  Base64.encode Crypto.alphabet 0x3d (Sha1.digest (key ++ wsMagic))

theorem base64OfSha_sha1 (order : Crypto.ByteOrder) (key : Bytes) :
    base64OfSha (Crypto.sha1 order (key ++ wsMagic)) = acceptValue key := by
  have hload := Memory.load_ofBytes (Sha1.digest (key ++ wsMagic))
  rw [Sha1.digest_length] at hload
  rw [base64OfSha, Crypto.base64Encode_eq, Crypto.sha1_eq, acceptValue]
  exact congrArg (Base64.encode Crypto.alphabet 0x3d) hload

@[simp] theorem acceptValue_length (key : Bytes) : (acceptValue key).length = 28 := by
  rw [acceptValue, Base64.encode_length, Sha1.digest_length]

theorem switchingProtocols_length (key : Bytes) (isProtocol : Bool) :
    (switchingProtocols (acceptValue key) isProtocol).length = if isProtocol then 159 else 129 := by
  have hstatus : (ascii "HTTP/1.1 101 Switching Protocols\r\n").length = 34 := by decide +kernel
  have hupgrade : (ascii "Upgrade: websocket\r\n").length = 20 := by decide +kernel
  have hconnection : (ascii "Connection: Upgrade\r\n").length = 21 := by decide +kernel
  have haccept : (ascii "Sec-WebSocket-Accept: ").length = 22 := by decide +kernel
  have hprotocol : (ascii "Sec-WebSocket-Protocol: chat\r\n").length = 30 := by decide +kernel
  have hline : (ascii "\r\n").length = 2 := by decide +kernel
  simp only [switchingProtocols, List.length_append, hstatus, hupgrade, hconnection, haccept, hline,
    acceptValue_length]
  cases isProtocol with
  | true =>
      simp only [if_true, hprotocol]
  | false =>
      simp only [Bool.false_eq_true, if_false, List.length_nil]

theorem substr_middle (front mid rest : Bytes) {key : Bytes} {n : Nat} (h : key.length = n) :
    substr (front ++ mid ++ key ++ rest) (front.length + mid.length) n = some key := by
  have hdrop : (front ++ mid ++ key ++ rest).drop (front.length + mid.length) = key ++ rest := by
    rw [List.append_assoc]
    exact List.drop_left' (List.length_append)
  rw [substr, if_pos (by simp only [List.length_append]; omega), hdrop, List.take_left' h]

/-- A request that is read whole and not refused for its length, and whose first key has 24
characters. -/
structure KeyRead (socket socket' : ByteStream) (text front key rest : Bytes) : Prop where
  read : socket.read websockReadStrLen = (.data text, socket')
  short : text.length < websockReadStrLen
  header : HasHeader text
  packet : packetOf text = front ++ wsKeyIdentifier ++ key ++ rest
  first : find wsKeyIdentifier (packetOf text) = some front.length
  key_length : key.length = wsKeyLen

variable {socket socket' : ByteStream} {text front key rest : Bytes}

def responseTo (text finalStr : Bytes) : Bytes :=
  switchingProtocols finalStr (find wsProtocolIdentifier (packetOf text)).isSome

theorem KeyRead.authenticate_eq (h : KeyRead socket socket' text front key rest)
    (sha1 base64Encode : Bytes → Bytes) (calls : Calls) :
    (authenticate sha1 base64Encode (.connected socket) calls).map Handshake.outcome =
      some ((sendRequest false (responseTo text (base64Encode (sha1 (key ++ wsMagic)))) calls).ret,
        some (responseTo text (base64Encode (sha1 (key ++ wsMagic)))),
        (sendRequest false (responseTo text (base64Encode (sha1 (key ++ wsMagic)))) calls).taken,
        (sendRequest false (responseTo text (base64Encode (sha1 (key ++ wsMagic))))
          calls).connectionClosed) := by
  have hsubstr := substr_middle front wsKeyIdentifier rest h.key_length
  rw [← h.packet] at hsubstr
  rw [authenticate, readHttpPacket_accepts h.read h.short h.header]
  simp only [h.first, hsubstr, Option.map_some]
  rfl

/-- The response has the accept value of the key, on a machine of either byte order. When no write
fails the client has it whole and the connection stays open. -/
theorem authenticate_accepts (order : Crypto.ByteOrder)
    (h : KeyRead socket socket' text front key rest) (calls : Calls) :
    ∃ response sent, response = responseTo text (acceptValue key) ∧
      sent = sendRequest false response calls ∧
      (authenticate (Crypto.sha1 order) base64OfSha (.connected socket) calls).map
          Handshake.outcome =
        some (sent.ret, some response, sent.taken, sent.connectionClosed) ∧
      (calls.last = .all → 0 < sent.ret ∧ sent.taken = response ∧ sent.connectionClosed = false) := by
  have houtcome := h.authenticate_eq (Crypto.sha1 order) base64OfSha calls
  rw [base64OfSha_sha1] at houtcome
  refine ⟨_, _, rfl, rfl, houtcome, ?_⟩
  intro hall
  have hlength := switchingProtocols_length key
    (find wsProtocolIdentifier (packetOf text)).isSome
  rw [← responseTo] at hlength
  have hsent := @sendRequest_eq (responseTo text (acceptValue key))
    (by rw [hlength]; split_ifs <;> decide) (by rw [hlength]; split_ifs <;> decide) calls
  simp only [hall] at hsent
  exact ⟨hsent.1, hsent.2.1, hsent.2.2.1⟩

theorem sampleWhole_keyRead :
    KeyRead ⟨[.data sampleWhole], .closed⟩ ⟨[], .closed⟩ sampleWhole.bytes
      (ascii "GET /chat HTTP/1.1\r\nUpgrade: websocket\r\n") (ascii "dGhlIHNhbXBsZSBub25jZQ==")
      emptyLine where
  read := read_piece sampleWhole [] .closed sampleWhole_request.short
  short := sampleWhole_request.short
  header := sampleWhole_request.hasHeader_iff.mpr (by decide +kernel)
  packet := by decide +kernel
  first := by decide +kernel
  key_length := by decide +kernel

/-- A request that is answered by one write. -/
theorem sampleWhole_accepts :
    KeyRead ⟨[.data sampleWhole], .closed⟩ ⟨[], .closed⟩ sampleWhole.bytes
        (ascii "GET /chat HTTP/1.1\r\nUpgrade: websocket\r\n") (ascii "dGhlIHNhbXBsZSBub25jZQ==")
        emptyLine ∧
      ∃ response sent, response =
          responseTo sampleWhole.bytes (acceptValue (ascii "dGhlIHNhbXBsZSBub25jZQ==")) ∧
        sent = sendRequest false response ⟨[], .all⟩ ∧
        (authenticate (Crypto.sha1 .littleEndian) base64OfSha
            (.connected ⟨[.data sampleWhole], .closed⟩) ⟨[], .all⟩).map Handshake.outcome =
          some (sent.ret, some response, sent.taken, sent.connectionClosed) ∧
        (LastCall.all = .all →
          0 < sent.ret ∧ sent.taken = response ∧ sent.connectionClosed = false) :=
  ⟨sampleWhole_keyRead, authenticate_accepts .littleEndian sampleWhole_keyRead ⟨[], .all⟩⟩

end KoheronServer.Websocket
