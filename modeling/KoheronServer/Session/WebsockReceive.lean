import KoheronServer.Session.TcpParse

/-!
# Receiving from the payload of a WebSocket command

`Buffer` and the `recv` and `deserialize` of `Session<WEBSOCK>`, which read the
payload of a command that has already come whole.
-/

namespace KoheronServer.Session

open Foundation Wire

/-! ## `Buffer` -/

/-- `Buffer<len>`: what its array holds, and the current position in it. -/
structure Buffer where
  data : Memory
  position : Nat

namespace Buffer

variable (len : Nat)

def begin (buff : Buffer) : Memory := buff.data.offset buff.position

/-- The result of a read of `n` bytes, as long as it stays inside the array. -/
def reading {α : Type} (buff : Buffer) (n : Nat) (result : α) : Except Abort α :=
  if buff.position + n ≤ len then .ok result else .error .bufferOverread

/-- `deserialize<Tp...>()`. -/
def deserialize (buff : Buffer) (ts : List ScalarType) : Except Abort (List Scalar × Buffer) :=
  buff.reading len (requiredBufferSize ts)
    (Wire.deserialize 0 ts buff.begin,
      { buff with position := buff.position + requiredBufferSize ts })

/-- `extract_array<T, N>()` of a build with `NDEBUG`, without its assertion. The position moves by
`size_of<T, N>`. -/
def extractArray (buff : Buffer) (t : ScalarType) (n : Nat) : Except Abort (Arg × Buffer) :=
  buff.reading len (n * t.sizeOf)
    (.array t n (buff.begin.load 0 (n * t.sizeOf)) (Memory.load_length _ _ _),
      { buff with position := buff.position + t.sizeOfArray n })

/-- `to_vector(vec, length)`. -/
def toVector (buff : Buffer) (t : ScalarType) (length : Nat) : Except Abort (Arg × Buffer) :=
  buff.reading len (length * t.sizeOf)
    (.vector t (buff.begin.load 0 (length * t.sizeOf))
      (by rw [Memory.load_length]; exact Nat.dvd_mul_left _ _),
      { buff with position := buff.position + length * t.sizeOf })

/-- `to_string(str, length)`. -/
def toString (buff : Buffer) (length : Nat) : Except Abort (Arg × Buffer) :=
  buff.reading len length
    (.string (buff.begin.load 0 length), { buff with position := buff.position + length })

/-- The prefix of a dynamic container: `std::get<0>(deserialize<uint32_t>())`. -/
def deserializeLength (buff : Buffer) : Except Abort (Nat × Buffer) :=
  buff.reading len (ScalarType.sizeOf .uint32)
    ((extractUint32 buff.begin).toNat,
      { buff with position := buff.position + ScalarType.sizeOf .uint32 })

end Buffer

namespace Websock

/-! ## `recv` and `deserialize` -/

/-- `recv(std::array<T, N>&)`. -/
def recvArray (t : ScalarType) (n : Nat) (payload : Buffer) : Except Abort (Received Buffer) :=
  match payload.extractArray cmdPayloadBufferLen t n with
  | .error e => .error e
  | .ok (arr, payload) => .ok ⟨0, [arr], payload⟩

/-- `recv(std::vector<T>&)`. A vector that is rejected is not looked at. -/
def recvVector (t : ScalarType) (payload : Buffer) : Except Abort (Received Buffer) :=
  match payload.deserializeLength cmdPayloadBufferLen with
  | .error e => .error e
  | .ok (length, payload) =>
      if cmdPayloadBufferLen < length then .ok ⟨-1, [], payload⟩
      else
        match payload.toVector cmdPayloadBufferLen t (length / t.sizeOf) with
        | .error e => .error e
        | .ok (vec, payload) => .ok ⟨0, [vec], payload⟩

/-- `recv(std::string&)`. -/
def recvString (payload : Buffer) : Except Abort (Received Buffer) :=
  match payload.deserializeLength cmdPayloadBufferLen with
  | .error e => .error e
  | .ok (length, payload) =>
      if cmdPayloadBufferLen < length then .ok ⟨-1, [], payload⟩
      else
        match payload.toString cmdPayloadBufferLen length with
        | .error e => .error e
        | .ok (str, payload) => .ok ⟨0, [str], payload⟩

/-- `deserialize<Tp...>`. -/
def deserializePack (ts : List ScalarType) (payload : Buffer) : Except Abort (Received Buffer) :=
  if ts.length = 0 then .ok ⟨0, [], payload⟩
  else
    match payload.deserialize cmdPayloadBufferLen ts with
    | .error e => .error e
    | .ok (tup, payload) => .ok ⟨0, tup.map Scalar.toArg, payload⟩

/-- `Session<WEBSOCK>` as the generated parsers use it: the session is `cmd.payload`. -/
def session : SessionAbstract Buffer where
  receive
    | .scalar ts, _, payload => deserializePack ts payload
    | .array t n, _, payload => recvArray t n payload
    | .vector t, _, payload => recvVector t payload
    | .string, _, payload => recvString payload

/-- `Session<WEBSOCK>` of either build. With `DEBUG_KSERVER` the assertion in `extract_array`
compares `data()` with `begin()`; that fails for an array of no elements, whose `data()` is a null
pointer. -/
def sessionIn (debug : Bool) : SessionAbstract Buffer where
  receive pack slot payload :=
    if debug && pack.isEmptyArray then .error .assertion else session.receive pack slot payload

theorem sessionIn_release : sessionIn false = session := rfl

theorem sessionIn_receive (debug : Bool) {pack : Pack} (h : pack.isEmptyArray = false) (slot : Slot)
    (payload : Buffer) :
    (sessionIn debug).receive pack slot payload = session.receive pack slot payload := by
  simp [sessionIn, h]

/-! ## On the bytes of one payload -/

/-- The payload bytes from the position on, in front of which the rest of the frame buffer ends. -/
structure Holds (payload : Buffer) (q : Bytes) : Prop where
  bytes : payload.data.load payload.position q.length = q
  room : payload.position + q.length ≤ cmdPayloadBufferLen - 64

theorem Holds.take {payload : Buffer} {q : Bytes} (h : Holds payload q) {n : Nat}
    (hn : n ≤ q.length) : payload.begin.load 0 n = q.take n := by
  have htake := Memory.load_take payload.data payload.position hn
  rw [h.bytes] at htake
  rw [Buffer.begin, Memory.load_offset, htake]
  rfl

theorem Holds.drop {payload : Buffer} {q : Bytes} (h : Holds payload q) {n : Nat}
    (hn : n ≤ q.length) :
    Holds { payload with position := payload.position + n } (q.drop n) := by
  have hdrop := Memory.load_drop payload.data payload.position hn
  rw [h.bytes] at hdrop
  have hroom := h.room
  constructor
  · simpa using hdrop.symm
  · simp only [List.length_drop]
    omega

theorem reading_ok {α : Type} {payload : Buffer} {q : Bytes} (h : Holds payload q) {n : Nat}
    (hn : n ≤ q.length) (result : α) :
    payload.reading cmdPayloadBufferLen n result = .ok result := by
  have hroom := h.room
  rw [Buffer.reading, if_pos (by omega)]

theorem deserializeLength_eq {payload : Buffer} {q : Bytes} (h : Holds payload q)
    (hn : 4 ≤ q.length) :
    payload.deserializeLength cmdPayloadBufferLen =
      .ok (beValue (q.take 4), { payload with position := payload.position + 4 }) := by
  rw [Buffer.deserializeLength, reading_ok h (show ScalarType.sizeOf .uint32 ≤ q.length from hn),
    extractUint32_toNat, h.take hn]
  rfl

end Websock

end KoheronServer.Session
