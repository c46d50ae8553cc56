import KoheronServer.Foundation.ByteStream
import KoheronServer.Session.Parser
import KoheronServer.Wire.Serializer

/-!
# Receiving over TCP

`rcv_n_bytes`, `get_pack_length`, `recv` and `deserialize` of `Session<TCP>`, which
`Session<UNIX>` inherits. On a clean stream none of them depends on how the
stream is cut: each is a function of the bytes still to come.
-/

namespace KoheronServer.Session.Tcp

open Foundation Wire

def toInt (n : Nat) : Int := (BitVec.ofNat 32 n).toInt

/-- No object is larger, so `resize` throws above it. -/
def maxObject : Nat := 2 ^ 63 - 1

/-! ## `rcv_n_bytes` -/

/-- What `rcv_n_bytes` returns, what it stored at the front of its buffer, and the socket behind
it. -/
structure Rcv where
  ret : Int
  buffer : Bytes
  socket : ByteStream

/-- The loop of `rcv_n_bytes`, whose calls of `read` go to one buffer. Every turn stores a byte at
least, so `fuel` is the count. -/
def rcvLoop (read : ByteStream → Nat → ReadResult × ByteStream) (nBytes : Nat) :
    Nat → Bytes → ByteStream → Rcv
  | 0, buffer, s => ⟨toInt buffer.length, buffer, s⟩
  | fuel + 1, buffer, s =>
      if buffer.length < nBytes then
        match read s (nBytes - buffer.length) with
        | (.closed, s) => ⟨0, buffer, s⟩
        | (.error, s) => ⟨-1, buffer, s⟩
        | (.data bytes, s) => rcvLoop read nBytes fuel (buffer ++ bytes) s
      else ⟨toInt buffer.length, buffer, s⟩

def rcvNBytes (nBytes : Nat) (s : ByteStream) : Rcv := rcvLoop ByteStream.read nBytes nBytes [] s

/-- `rcv_n_bytes(nullptr, n_bytes)`. -/
def rcvNBytesNull (nBytes : Nat) (s : ByteStream) : Rcv :=
  rcvLoop ByteStream.readNull nBytes nBytes [] s

/-! ## `recv` and `deserialize` -/

/-- `n` bytes of `old` after `bytes` have been received at its front. -/
def refill (old : Memory) (n : Nat) (bytes : Bytes) : Bytes := (old.store 0 bytes).load 0 n

@[simp] theorem refill_length (old : Memory) (n : Nat) (bytes : Bytes) :
    (refill old n bytes).length = n := Memory.load_length _ _ _

theorem refill_all (old : Memory) (bytes : Bytes) : refill old bytes.length bytes = bytes :=
  Memory.load_store_self old 0 bytes

/-- A result of 0, the peer's close, passes the test and the stack buffer is read. -/
def getPackLength (slot : Slot) (s : ByteStream) : Int × ByteStream :=
  let r := rcvNBytes (ScalarType.sizeOf .uint32) s
  if r.ret < 0 then (-1, r.socket)
  else ((extractUint32 (slot.raw.store 0 r.buffer)).toNat, r.socket)

/-- `recv(std::array<T, N>&)`. The count is `size_of<T, N>`, which is not 0 for an array of no
elements, whose `data()` is a null pointer. -/
def recvArray (t : ScalarType) (n : Nat) (slot : Slot) (s : ByteStream) : Received ByteStream :=
  let r := if n = 0 then rcvNBytesNull (t.sizeOfArray n) s else rcvNBytes (t.sizeOfArray n) s
  ⟨r.ret, [.array t n (refill slot.raw (n * t.sizeOf) r.buffer) (by simp)], r.socket⟩

/-- `recv(std::vector<T>&)`. `length` is unsigned, so the test for a negative one is
never true and an error of `get_pack_length` becomes a huge length. -/
def recvVector (t : ScalarType) (slot : Slot) (s : ByteStream) :
    Except Abort (Received ByteStream) :=
  let pack := getPackLength slot s
  let length := (BitVec.ofInt 64 pack.1).toNat / t.sizeOf
  if maxObject < length * t.sizeOf then .error .lengthError
  else
    let vec := resize slot.held (length * t.sizeOf)
    let r := rcvNBytes (length * t.sizeOf) pack.2
    .ok ⟨r.ret, [.vector t (refill (Memory.ofBytes vec) (length * t.sizeOf) r.buffer)
      (by rw [refill_length]; exact Nat.dvd_mul_left _ _)], r.socket⟩

/-- `recv(std::string&)`. -/
def recvString (slot : Slot) (s : ByteStream) : Received ByteStream :=
  let pack := getPackLength slot s
  if pack.1 < 0 then ⟨-1, [.string slot.held], pack.2⟩
  else
    let str := resize slot.held pack.1.toNat
    let r := rcvNBytes pack.1.toNat pack.2
    ⟨r.ret, [.string (refill (Memory.ofBytes str) pack.1.toNat r.buffer)], r.socket⟩

/-- `deserialize<Tp...>`: the values, from a stack buffer that a close leaves partly unfilled. -/
def deserializePack (ts : List ScalarType) (slot : Slot) (s : ByteStream) : Received ByteStream :=
  if ts.length = 0 then ⟨0, [], s⟩
  else
    let r := rcvNBytes (requiredBufferSize ts) s
    ⟨r.ret, (deserialize 0 ts (slot.raw.store 0 r.buffer)).map Scalar.toArg, r.socket⟩

/-- `Session<TCP>` as the generated parsers use it. -/
def session : SessionAbstract ByteStream where
  receive
    | .scalar ts, slot, s => .ok (deserializePack ts slot s)
    | .array t n, slot, s => .ok (recvArray t n slot s)
    | .vector t, slot, s => recvVector t slot s
    | .string, slot, s => .ok (recvString slot s)

/-! ## On a clean stream -/

theorem toInt_of_lt {n : Nat} (h : n < 2 ^ 31) : toInt n = n := by
  have hmod : n % 2 ^ 32 = n := Nat.mod_eq_of_lt (by omega)
  rw [toInt, BitVec.toInt_eq_toNat_cond, BitVec.toNat_ofNat, hmod, if_pos (by omega)]

theorem toInt_neg_iff (n : Nat) : toInt n < 0 ↔ 2 ^ 31 ≤ n % 2 ^ 32 := by
  have hlt : n % 2 ^ 32 < 2 ^ 32 := Nat.mod_lt _ (by decide)
  rw [toInt, BitVec.toInt_eq_toNat_cond, BitVec.toNat_ofNat]
  split <;> omega

/-- What a receive of `n` bytes comes to on a clean stream that still brings `bytes`. -/
structure RcvClean (n : Nat) (bytes : Bytes) (r : Rcv) : Prop where
  ret : r.ret = if n ≤ bytes.length then toInt n else 0
  buffer : r.buffer = bytes.take n
  rest : r.socket.bytes = bytes.drop n
  clean : r.socket.Clean

theorem rcvLoop_clean (nBytes : Nat) (fuel : Nat) (buffer : Bytes) (s : ByteStream) (hs : s.Clean)
    (hle : buffer.length ≤ nBytes) (hfuel : nBytes ≤ buffer.length + fuel) :
    RcvClean nBytes (buffer ++ s.bytes) (rcvLoop ByteStream.read nBytes fuel buffer s) := by
  induction fuel generalizing buffer s with
  | zero =>
      have hlen : nBytes = buffer.length := by omega
      refine ⟨?_, ?_, ?_, hs⟩ <;> simp [rcvLoop, hlen]
  | succ fuel ih =>
      by_cases hlt : buffer.length < nBytes
      · by_cases hend : s.bytes = []
        · have hread := ByteStream.read_closed hs (nBytes - buffer.length) hend
          refine ⟨?_, ?_, ?_, ?_⟩ <;> simp only [rcvLoop, if_pos hlt, hread, hend, List.append_nil]
          · rw [if_neg (by omega)]
          · exact (List.take_of_length_le (by omega)).symm
          · exact (List.drop_eq_nil_of_le (by omega)).symm
          · exact hs
        · obtain ⟨bs, s', hread, hne, hcount, hbytes, hs'⟩ :=
            ByteStream.read_data hs (n := nBytes - buffer.length) (by omega) hend
          have hpos : 0 < bs.length := List.length_pos_iff.mpr hne
          have hrest := ih (buffer ++ bs) s' hs' (by simp; omega) (by simp; omega)
          rw [List.append_assoc, ← hbytes] at hrest
          simpa only [rcvLoop, if_pos hlt, hread] using hrest
      · have hlen : nBytes = buffer.length := by omega
        refine ⟨?_, ?_, ?_, ?_⟩ <;> simp [rcvLoop, hlen, hs]

theorem rcvNBytes_clean (n : Nat) {s : ByteStream} (hs : s.Clean) :
    RcvClean n s.bytes (rcvNBytes n s) := by
  have h := rcvLoop_clean n n [] s hs (Nat.zero_le n) (by simp)
  rwa [List.nil_append] at h

/-- What receiving a pack comes to on a clean stream: the result, the arguments and what is left. -/
structure ReceivedClean (result : Except Abort (Received ByteStream)) (ret : Int) (args : List Arg)
    (rest : Bytes) : Prop where
  ok : ∃ session, result = .ok ⟨ret, args, session⟩ ∧ session.bytes = rest ∧ session.Clean

/-- The count that `get_pack_length` reads where `bytes` come: what is missing of the four
bytes is taken from the stack. -/
def prefixValue (slot : Slot) (bytes : Bytes) : Nat :=
  (extractUint32 (slot.raw.store 0 (bytes.take 4))).toNat

theorem prefixValue_lt (slot : Slot) (bytes : Bytes) : prefixValue slot bytes < 2 ^ 32 :=
  (extractUint32 _).isLt

theorem prefixValue_eq (slot : Slot) {bytes : Bytes} (h : 4 ≤ bytes.length) :
    prefixValue slot bytes = beValue (bytes.take 4) := by
  have hlen : (bytes.take 4).length = 4 := by simp [h]
  have hload := Memory.load_store_self slot.raw 0 (bytes.take 4)
  rw [hlen] at hload
  rw [prefixValue, extractUint32_toNat, hload]

theorem prefixValue_append (slot : Slot) (value : BitVec 32) (rest : Bytes) :
    prefixValue slot (appendUint32 value ++ rest) = value.toNat := by
  rw [prefixValue_eq slot (by simp [appendUint32]), List.take_left' (by simp [appendUint32]),
    appendUint32_eq, beValue_beDigits]
  exact Nat.mod_eq_of_lt value.isLt

theorem getPackLength_clean (slot : Slot) {s : ByteStream} (hs : s.Clean) :
    (getPackLength slot s).1 = prefixValue slot s.bytes ∧
      (getPackLength slot s).2.bytes = s.bytes.drop 4 ∧ (getPackLength slot s).2.Clean := by
  have h := rcvNBytes_clean (ScalarType.sizeOf .uint32) hs
  have hret : ¬ (rcvNBytes (ScalarType.sizeOf .uint32) s).ret < 0 := by
    rw [h.ret]
    split <;> decide
  simp only [getPackLength, if_neg hret]
  exact ⟨by rw [h.buffer]; rfl, h.rest, h.clean⟩

/-- The result of `rcv_n_bytes` on a clean stream is negative only when it wraps. -/
def rcvRet (n : Nat) (bytes : Bytes) : Int := if n ≤ bytes.length then toInt n else 0

@[simp] theorem rcvRet_nil (n : Nat) : rcvRet n [] = 0 := by
  unfold rcvRet
  split
  · have hz : n = 0 := by simpa using ‹n ≤ ([] : Bytes).length›
    rw [hz]
    rfl
  · rfl

theorem recvVector_clean (t : ScalarType) (slot : Slot) {s : ByteStream} (hs : s.Clean) :
    let m := prefixValue slot s.bytes / t.sizeOf * t.sizeOf
    let data := s.bytes.drop 4
    ∃ h, ReceivedClean (recvVector t slot s) (rcvRet m data)
      [.vector t (refill (Memory.ofBytes (resize slot.held m)) m (data.take m)) h]
      (data.drop m) := by
  obtain ⟨hlen, hbytes, hclean⟩ := getPackLength_clean slot hs
  have hlt := prefixValue_lt slot s.bytes
  have hnat : (BitVec.ofInt 64 (prefixValue slot s.bytes : Int)).toNat =
    prefixValue slot s.bytes := by
    rw [BitVec.ofInt_natCast, BitVec.toNat_ofNat, Nat.mod_eq_of_lt (by omega)]
  have hle := Nat.div_mul_le_self (prefixValue slot s.bytes) t.sizeOf
  have h := rcvNBytes_clean (prefixValue slot s.bytes / t.sizeOf * t.sizeOf) hclean
  refine ⟨by rw [refill_length]; exact Nat.dvd_mul_left _ _,
    ⟨_, ?_, by rw [h.rest, hbytes], h.clean⟩⟩
  simp only [recvVector, hlen, hnat]
  rw [if_neg (by unfold maxObject; omega)]
  simp only [h.ret, h.buffer, hbytes, rcvRet]

theorem recvString_clean (slot : Slot) {s : ByteStream} (hs : s.Clean) :
    let m := prefixValue slot s.bytes
    let data := s.bytes.drop 4
    ReceivedClean (.ok (recvString slot s)) (rcvRet m data)
      [.string (refill (Memory.ofBytes (resize slot.held m)) m (data.take m))] (data.drop m) := by
  obtain ⟨hlen, hbytes, hclean⟩ := getPackLength_clean slot hs
  have h := rcvNBytes_clean (prefixValue slot s.bytes) hclean
  refine ⟨_, ?_, by rw [h.rest, hbytes], h.clean⟩
  simp only [recvString, hlen, Int.toNat_natCast]
  rw [if_neg (by omega)]
  simp only [h.ret, h.buffer, hbytes, rcvRet]

theorem deserializePack_clean (ts : List ScalarType) (slot : Slot) {s : ByteStream} (hs : s.Clean) :
    let n := requiredBufferSize ts
    ReceivedClean (.ok (deserializePack ts slot s)) (rcvRet n s.bytes)
      ((deserialize 0 ts (slot.raw.store 0 (s.bytes.take n))).map Scalar.toArg)
      (s.bytes.drop n) := by
  by_cases hts : ts = []
  · subst hts
    exact ⟨s, by simp [deserializePack, deserialize, requiredBufferSize, rcvRet, toInt], rfl, hs⟩
  · have h := rcvNBytes_clean (requiredBufferSize ts) hs
    refine ⟨_, ?_, h.rest, h.clean⟩
    simp only [deserializePack, List.length_eq_zero_iff, hts, if_false, h.ret, h.buffer, rcvRet]

theorem sizeOfArray_pos (t : ScalarType) : 0 < t.sizeOfArray 0 := t.sizeOf_pos

/-- A receive into a null buffer comes to nothing: 0 at the end of the stream and -1 in front of
it. -/
theorem rcvNBytesNull_clean {n : Nat} (hn : 0 < n) {s : ByteStream} (hs : s.Clean) :
    rcvNBytesNull n s = ⟨if s.bytes = [] then 0 else -1, [], s⟩ := by
  obtain ⟨n, rfl⟩ : ∃ k, n = k + 1 := ⟨n - 1, by omega⟩
  simp only [rcvNBytesNull, rcvLoop, List.length_nil, if_pos hn]
  by_cases h : s.bytes = []
  · simp only [ByteStream.readNull_closed hs _ h, if_pos h]
  · simp only [ByteStream.readNull_error hs (n := n + 1 - 0) (by omega) h, if_neg h]

/-- In front of a byte that is there, the receive of a `std::array<T, 0>` fails and takes
nothing. -/
theorem recvArray_empty_fails (t : ScalarType) (slot : Slot) {s : ByteStream} (hs : s.Clean)
    (h : s.bytes ≠ []) :
    (recvArray t 0 slot s).ret = -1 ∧ (recvArray t 0 slot s).session = s := by
  have hr := rcvNBytesNull_clean (sizeOfArray_pos t) hs
  simp only [recvArray, if_true, hr, if_neg h, and_self]

theorem recvArray_clean (t : ScalarType) (n : Nat) (slot : Slot) {s : ByteStream} (hs : s.Clean)
    (h : n = 0 → s.bytes = []) :
    ∃ hsize, ReceivedClean (.ok (recvArray t n slot s)) (rcvRet (n * t.sizeOf) s.bytes)
      [.array t n (refill slot.raw (n * t.sizeOf) (s.bytes.take (n * t.sizeOf))) hsize]
      (s.bytes.drop (n * t.sizeOf)) := by
  refine ⟨by simp, ?_⟩
  cases n with
  | zero =>
      have hr := rcvNBytesNull_clean (sizeOfArray_pos t) hs
      refine ⟨s, ?_, by simp, hs⟩
      simp only [recvArray, if_true, hr, h rfl, rcvRet_nil, List.take_nil]
  | succ n =>
      have hr := rcvNBytes_clean (t.sizeOfArray (n + 1)) hs
      have hsize : t.sizeOfArray (n + 1) = (n + 1) * t.sizeOf := Nat.mul_comm _ _
      rw [hsize] at hr
      refine ⟨_, ?_, hr.rest, hr.clean⟩
      simp only [recvArray, if_neg (Nat.succ_ne_zero n), hsize, hr.ret, hr.buffer, rcvRet]

end KoheronServer.Session.Tcp
