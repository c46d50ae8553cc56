import KoheronServer.Session.TcpReceive

/-!
# Strings and vectors over TCP on any platform

`recv(std::string&)` and `recv(std::vector<T>&)` for every element type and both
widths of `size_t`. The byte count of a container passes through `int64_t`, the
quotient by `sizeof(T)`, `uint64_t` and `int` on its way from the prefix to the
result, and each passage has its own failure: the error of the prefix, the
remainder of the division, and the sign of the result.
-/

namespace KoheronServer.Session.Tcp

open Foundation Wire

/-! ## The platform -/

/-- The width of `size_t`. -/
inductive SizeT where
  | bits32
  | bits64
  deriving DecidableEq, Repr

namespace SizeT

/-- The largest object; `resize` throws above it. -/
def maxObject : SizeT → Nat
  | bits32 => 2 ^ 31 - 1
  | bits64 => Tcp.maxObject

end SizeT

/-- An element type `T` of a vector, by `sizeof(T)`. -/
structure Element (w : SizeT) where
  sizeOf : Nat
  pos : 0 < sizeOf
  le : sizeOf ≤ w.maxObject

inductive Container (w : SizeT) where
  | string
  | vector (t : Element w)

namespace Container

variable {w : SizeT}

def elementSize : Container w → Nat
  | string => 1
  | vector t => t.sizeOf

/-- `get_pack_length()`, for a vector divided by `sizeof(T)`. The quotient of an `int64_t` by a
`size_t` is unsigned where `size_t` has 64 bits and an `int64_t` where it has 32. -/
def length : Container w → Int → Int
  | string, pack => pack
  | vector t, pack =>
      match w with
      | .bits32 => pack.tdiv t.sizeOf
      | .bits64 => ((BitVec.ofInt 64 pack).toNat / t.sizeOf : Nat)

/-- The bytes that a container of `count` announced bytes asks `rcv_n_bytes` for. -/
def byteCount (c : Container w) (count : Nat) : Nat := count / c.elementSize * c.elementSize

end Container

/-! ## `recv` -/

/-- What `recv` returns, what the container holds then, the argument of `resize` when it has
been called, and the socket behind it. -/
structure ContainerRcv where
  ret : Int
  contents : Bytes
  resized : Option Nat
  socket : ByteStream

/-- `recv(std::string&)` and `recv(std::vector<T>&)`. -/
def recvContainer {w : SizeT} (c : Container w) (slot : Slot) (s : ByteStream) :
    Except Abort ContainerRcv :=
  let pack := getPackLength slot s
  let length := c.length pack.1
  if length < 0 then .ok ⟨-1, slot.held, none, pack.2⟩
  else
    let n := length.toNat * c.elementSize
    if w.maxObject < n then .error .lengthError
    else
      let r := rcvNBytes n pack.2
      .ok ⟨r.ret, refill (Memory.ofBytes (resize slot.held n)) n r.buffer, some length.toNat, r.socket⟩

section

variable {w : SizeT} {c : Container w} {slot : Slot} {s : ByteStream}

theorem recvContainer_negative (h : c.length (getPackLength slot s).1 < 0) :
    recvContainer c slot s = .ok ⟨-1, slot.held, none, (getPackLength slot s).2⟩ := by
  rw [recvContainer, if_pos h]

variable {count : Nat} (h : c.length (getPackLength slot s).1 = count)

include h

theorem recvContainer_lengthError (hbig : w.maxObject < count * c.elementSize) :
    recvContainer c slot s = .error .lengthError := by
  simp only [recvContainer, h, Int.toNat_natCast]
  rw [if_neg (by omega), if_pos hbig]

theorem recvContainer_received (hle : count * c.elementSize ≤ w.maxObject) :
    let n := count * c.elementSize
    let r := rcvNBytes n (getPackLength slot s).2
    recvContainer c slot s =
      .ok ⟨r.ret, refill (Memory.ofBytes (resize slot.held n)) n r.buffer, some count, r.socket⟩ := by
  simp only [recvContainer, h, Int.toNat_natCast]
  rw [if_neg (by omega), if_neg (by omega)]

end

def scalarElement (t : ScalarType) : Element .bits64 where
  sizeOf := t.sizeOf
  pos := t.sizeOf_pos
  le := Nat.le_trans t.sizeOf_le (by decide)

/-- What of a received pack the container shows. -/
def Received.container (r : Received ByteStream) : Int × List Bytes × ByteStream :=
  (r.ret, r.args.map Arg.contents, r.session)

def ContainerRcv.container (r : ContainerRcv) : Int × List Bytes × ByteStream :=
  (r.ret, [r.contents], r.socket)

/-- The vectors of scalars that the generated parsers receive. -/
theorem recvVector_eq (t : ScalarType) (slot : Slot) (s : ByteStream) :
    (recvVector t slot s).map Received.container =
      (recvContainer (.vector (scalarElement t)) slot s).map ContainerRcv.container := by
  have hlength : (Container.vector (scalarElement t)).length (getPackLength slot s).1 =
      (((BitVec.ofInt 64 (getPackLength slot s).1).toNat / t.sizeOf : Nat) : Int) := rfl
  simp only [recvVector]
  split
  case isTrue hbig =>
    rw [recvContainer_lengthError hlength hbig]
    rfl
  case isFalse hle =>
    rw [recvContainer_received hlength (Nat.not_lt.mp hle)]
    rfl

theorem getPackLength_lt (slot : Slot) (s : ByteStream) : (getPackLength slot s).1 < 2 ^ 32 := by
  simp only [getPackLength]
  split
  · show (-1 : Int) < 2 ^ 32
    decide
  · have hlt := (extractUint32
      (slot.raw.store 0 (rcvNBytes (ScalarType.sizeOf .uint32) s).buffer)).isLt
    show ((extractUint32 _).toNat : Int) < 2 ^ 32
    omega

theorem recvString_eq (slot : Slot) (s : ByteStream) :
    (Except.ok (recvString slot s) : Except Abort _).map Received.container =
      (recvContainer (Container.string (w := .bits64)) slot s).map ContainerRcv.container := by
  have hlt := getPackLength_lt slot s
  simp only [recvString]
  split
  case isTrue hneg =>
    rw [recvContainer_negative (c := .string) hneg]
    rfl
  case isFalse hpos =>
    have hlength : (Container.string (w := .bits64)).length (getPackLength slot s).1 =
        (getPackLength slot s).1.toNat := (Int.toNat_of_nonneg (Int.not_lt.mp hpos)).symm
    rw [recvContainer_received hlength]
    · simp only [Container.elementSize, Nat.mul_one]
      rfl
    · simp only [Container.elementSize, SizeT.maxObject, maxObject]
      omega

/-! ## A prefix that fails -/

/-- The length prefix meets a read error. -/
def PrefixFails (s : ByteStream) : Prop := (rcvNBytes (ScalarType.sizeOf .uint32) s).ret < 0

/-- A receive that fails with its prefix: it returns a negative value behind the read of the
prefix, and the container has not been touched. -/
def FailsReceive (slot : Slot) (s : ByteStream) (result : Except Abort ContainerRcv) : Prop :=
  ∃ ret, ret < 0 ∧
    result = .ok ⟨ret, slot.held, none, (rcvNBytes (ScalarType.sizeOf .uint32) s).socket⟩

section

variable {w : SizeT} (slot : Slot) {s : ByteStream} (h : PrefixFails s)

include h

theorem getPackLength_fails :
    getPackLength slot s = (-1, (rcvNBytes (ScalarType.sizeOf .uint32) s).socket) := by
  simp only [getPackLength]
  exact if_pos h

theorem recvContainer_fails {c : Container w} (hlength : c.length (-1) < 0) :
    FailsReceive slot s (recvContainer c slot s) := by
  have hpack := getPackLength_fails slot h
  refine ⟨-1, by decide, ?_⟩
  rw [recvContainer_negative (by rw [hpack]; exact hlength), hpack]

/-- The error, as an unsigned number, counts more elements than any vector has. -/
theorem recvVector_lengthError (t : Element .bits64) :
    recvContainer (.vector t) slot s = .error .lengthError := by
  have hlength : (Container.vector t).length (getPackLength slot s).1 =
      (((2 ^ 64 - 1) / t.sizeOf : Nat) : Int) := by
    rw [getPackLength_fails slot h]
    rfl
  apply recvContainer_lengthError hlength
  have hmod := Nat.mod_lt (2 ^ 64 - 1) t.pos
  have hdiv := Nat.div_add_mod' (2 ^ 64 - 1) t.sizeOf
  have hle := t.le
  simp only [SizeT.maxObject, maxObject, Container.elementSize] at hle ⊢
  omega

/-- The error, divided by a size of two and more, is a count of no elements. -/
theorem recvVector_empties (t : Element .bits32) (hsize : t.sizeOf ≠ 1) :
    recvContainer (.vector t) slot s =
      .ok ⟨0, [], some 0, (rcvNBytes (ScalarType.sizeOf .uint32) s).socket⟩ := by
  have hpack := getPackLength_fails slot h
  have hlength : (Container.vector t).length (getPackLength slot s).1 = (0 : Nat) := by
    rw [hpack]
    show (-1 : Int).tdiv t.sizeOf = 0
    rw [Int.neg_tdiv, Int.tdiv_eq_zero_of_lt (by decide) (by have hpos := t.pos; omega)]
    rfl
  rw [recvContainer_received hlength (by omega), hpack]
  simp only [Nat.zero_mul]
  rfl

/-- A string fails with its prefix on any platform. A vector does only where `size_t` has 32 bits
and its elements are bytes. -/
theorem recvVector_fails_iff (t : Element w) :
    FailsReceive slot s (recvContainer (Container.string (w := w)) slot s) ∧
      (FailsReceive slot s (recvContainer (.vector t) slot s) ↔ w = .bits32 ∧ t.sizeOf = 1) := by
  refine ⟨recvContainer_fails slot h (show (-1 : Int) < 0 by decide), ?_, ?_⟩
  · rintro ⟨ret, hret, hresult⟩
    cases w with
    | bits64 =>
        rw [recvVector_lengthError slot h] at hresult
        cases hresult
    | bits32 =>
        refine ⟨rfl, ?_⟩
        by_contra hsize
        rw [recvVector_empties slot h t hsize] at hresult
        have hresized := congrArg ContainerRcv.resized (Except.ok.inj hresult)
        cases hresized
  · rintro ⟨rfl, hsize⟩
    apply recvContainer_fails slot h
    show (-1 : Int).tdiv t.sizeOf < 0
    rw [hsize]
    decide

end

def resetStream : ByteStream := ⟨[], .failing⟩

theorem resetStream_prefixFails : PrefixFails resetStream := by
  show (-1 : Int) < 0
  decide

def wordElement (w : SizeT) : Element w where
  sizeOf := 4
  pos := by decide
  le := by cases w <;> decide

def byteElement (w : SizeT) : Element w where
  sizeOf := 1
  pos := by decide
  le := by cases w <;> decide

/-- A vector of bytes on a platform with a `size_t` of 32 bits. -/
theorem recvVector_fails_iff_bytes :
    FailsReceive ⟨fun _ => 0, [7]⟩ resetStream
      (recvContainer (.vector (byteElement .bits32)) ⟨fun _ => 0, [7]⟩ resetStream) :=
  (recvVector_fails_iff ⟨fun _ => 0, [7]⟩ resetStream_prefixFails (byteElement .bits32)).2.mpr
    ⟨rfl, rfl⟩

/-- A vector of four-byte elements: `resize` throws where `size_t` has 64 bits, and the vector
is emptied and the receive succeeds where it has 32. -/
theorem recvVector_words_not_fails :
    let slot : Slot := ⟨fun _ => 0, [1, 2, 3, 4]⟩
    recvContainer (.vector (wordElement .bits64)) slot resetStream = .error .lengthError ∧
      recvContainer (.vector (wordElement .bits32)) slot resetStream =
        .ok ⟨0, [], some 0, resetStream⟩ ∧
      ¬FailsReceive slot resetStream
        (recvContainer (.vector (wordElement .bits64)) slot resetStream) ∧
      ¬FailsReceive slot resetStream
        (recvContainer (.vector (wordElement .bits32)) slot resetStream) := by
  intro slot
  have h64 := recvVector_lengthError slot resetStream_prefixFails (wordElement .bits64)
  have h32 := recvVector_empties slot resetStream_prefixFails (wordElement .bits32) (by decide)
  refine ⟨h64, h32, ?_, ?_⟩
  · rw [h64]
    intro hfails
    obtain ⟨ret, -, hresult⟩ := hfails
    cases hresult
  · rw [h32]
    intro hfails
    obtain ⟨ret, -, hresult⟩ := hfails
    have hresized := congrArg ContainerRcv.resized (Except.ok.inj hresult)
    cases hresized

/-! ## Announced bytes that come -/

/-- What a receive of `n` bytes comes to where they are delivered. -/
structure RcvDelivered (n : Nat) (bytes : Bytes) (s : ByteStream) (r : Rcv) : Prop where
  ret : r.ret = toInt n
  buffer : r.buffer = bytes.take n
  delivers : r.socket.Delivers (bytes.drop n)
  bytes : s.bytes = r.buffer ++ r.socket.bytes

theorem rcvLoop_delivers (nBytes fuel : Nat) (buffer : Bytes) {s : ByteStream} {bytes : Bytes}
    (h : s.Delivers bytes) (hle : buffer.length ≤ nBytes)
    (hbytes : nBytes ≤ buffer.length + bytes.length) (hfuel : nBytes ≤ buffer.length + fuel) :
    let r := rcvLoop ByteStream.read nBytes fuel buffer s
    r.ret = toInt nBytes ∧ r.buffer = buffer ++ bytes.take (nBytes - buffer.length) ∧
      r.socket.Delivers (bytes.drop (nBytes - buffer.length)) ∧
      buffer ++ s.bytes = r.buffer ++ r.socket.bytes := by
  induction fuel generalizing buffer s bytes with
  | zero =>
      have hlen : nBytes = buffer.length := by omega
      simp [rcvLoop, hlen, h]
  | succ fuel ih =>
      by_cases hlt : buffer.length < nBytes
      · obtain ⟨bs, s', hread, hpos, hcount, htake, hdelivers, hs⟩ :=
          ByteStream.read_delivers h (n := nBytes - buffer.length) (by omega) (by omega)
        have hlen : (buffer ++ bs).length = buffer.length + bs.length := List.length_append
        have hrest := ih (buffer ++ bs) hdelivers (by omega)
          (by rw [List.length_drop]; omega) (by omega)
        have hleft : nBytes - (buffer ++ bs).length = nBytes - buffer.length - bs.length := by omega
        have hsplit : bytes.take (nBytes - buffer.length) =
            bs ++ (bytes.drop bs.length).take (nBytes - buffer.length - bs.length) := by
          conv_lhs => rw [show nBytes - buffer.length =
            bs.length + (nBytes - buffer.length - bs.length) by omega, List.take_add, ← htake]
        have hbehind : (bytes.drop bs.length).drop (nBytes - buffer.length - bs.length) =
            bytes.drop (nBytes - buffer.length) := by
          rw [List.drop_drop]
          congr 1
          omega
        rw [hleft, hbehind, List.append_assoc, ← hsplit, List.append_assoc, ← hs] at hrest
        simpa only [rcvLoop, if_pos hlt, hread] using hrest
      · have hlen : nBytes = buffer.length := by omega
        simp [rcvLoop, hlen, h]

theorem rcvNBytes_delivers {n : Nat} {s : ByteStream} {bytes : Bytes} (h : s.Delivers bytes)
    (hn : n ≤ bytes.length) : RcvDelivered n bytes s (rcvNBytes n s) := by
  obtain ⟨hret, hbuffer, hdelivers, hbytes⟩ :=
    rcvLoop_delivers n n [] h (Nat.zero_le n) (by simpa using hn) (by simp)
  exact ⟨hret, hbuffer, hdelivers, hbytes⟩

/-- A stream that announces a container and delivers all of its bytes, in any chunks. -/
structure Announces (s : ByteStream) (announced : BitVec 32) (content : Bytes) : Prop where
  delivers : s.Delivers (appendUint32 announced ++ content)
  length : content.length = announced.toNat

/-- Up to 2^63 the quotient by `sizeof(T)` is the same on both platforms. -/
theorem Container.length_natCast {w : SizeT} (c : Container w) {count : Nat} (h : count < 2 ^ 63) :
    c.length count = (count / c.elementSize : Nat) := by
  cases c with
  | string =>
      rw [Container.elementSize, Nat.div_one]
      rfl
  | vector t =>
      cases w with
      | bits32 => exact (Int.ofNat_tdiv count t.sizeOf).symm
      | bits64 =>
          have hnat : (BitVec.ofInt 64 (count : Int)).toNat = count := by
            rw [BitVec.ofInt_natCast, BitVec.toNat_ofNat, Nat.mod_eq_of_lt (by omega)]
          simp only [Container.length, Container.elementSize, hnat]

theorem Container.toInt_byteCount_neg {w : SizeT} (c : Container w) (announced : BitVec 32) :
    toInt (c.byteCount announced.toNat) < 0 ↔ 2 ^ 31 ≤ c.byteCount announced.toNat := by
  have hlt := announced.isLt
  have hle : c.byteCount announced.toNat ≤ announced.toNat := Nat.div_mul_le_self _ _
  rw [toInt_neg_iff, Nat.mod_eq_of_lt (by omega)]

section

variable {w : SizeT} (c : Container w) (slot : Slot) {s : ByteStream} {announced : BitVec 32}
  {content : Bytes} (h : Announces s announced content)

include h

theorem getPackLength_announces :
    (getPackLength slot s).1 = announced.toNat ∧ (getPackLength slot s).2.Delivers content ∧
      s.bytes = appendUint32 announced ++ (getPackLength slot s).2.bytes := by
  have hlen : (appendUint32 announced).length = 4 := rfl
  have hr := rcvNBytes_delivers (n := ScalarType.sizeOf .uint32) h.delivers
    (by rw [List.length_append, hlen]; exact Nat.le_add_right 4 _)
  have hbuffer : (rcvNBytes (ScalarType.sizeOf .uint32) s).buffer = appendUint32 announced :=
    hr.buffer.trans (List.take_left' rfl)
  have hret : ¬(rcvNBytes (ScalarType.sizeOf .uint32) s).ret < 0 := by
    rw [hr.ret]
    decide
  have hprefix := prefixValue_append slot announced []
  rw [List.append_nil, prefixValue, List.take_of_length_le (Nat.le_of_eq hlen)] at hprefix
  have hdelivers := hr.delivers
  rw [show (appendUint32 announced ++ content).drop (ScalarType.sizeOf .uint32) = content from
    List.drop_left' rfl] at hdelivers
  have hbytes := hr.bytes
  rw [hbuffer] at hbytes
  simp only [getPackLength, if_neg hret, hbuffer, hprefix]
  exact ⟨trivial, hdelivers, hbytes⟩

theorem length_announces :
    c.length (getPackLength slot s).1 = (announced.toNat / c.elementSize : Nat) := by
  have hlt := announced.isLt
  rw [(getPackLength_announces slot h).1]
  exact c.length_natCast (by omega)

/-- The bytes of the container are received, as many as whole elements need. -/
theorem rcvNBytes_announces :
    RcvDelivered (c.byteCount announced.toNat) content (getPackLength slot s).2
      (rcvNBytes (c.byteCount announced.toNat) (getPackLength slot s).2) := by
  apply rcvNBytes_delivers (getPackLength_announces slot h).2.1
  rw [h.length]
  exact Nat.div_mul_le_self _ _

theorem recvContainer_tooLarge (hbig : w.maxObject < c.byteCount announced.toNat) :
    recvContainer c slot s = .error .lengthError :=
  recvContainer_lengthError (length_announces c slot h) hbig

theorem recvContainer_announces (hle : c.byteCount announced.toNat ≤ w.maxObject) :
    ∃ r, recvContainer c slot s = .ok r ∧ r.ret = toInt (c.byteCount announced.toNat) ∧
      r.contents = content.take (c.byteCount announced.toNat) ∧
      s.bytes = appendUint32 announced ++ r.contents ++ r.socket.bytes := by
  have hr := rcvNBytes_announces c slot h
  have hlen : (content.take (c.byteCount announced.toNat)).length =
    c.byteCount announced.toNat := by
    rw [List.length_take, h.length]
    exact Nat.min_eq_left (Nat.div_mul_le_self _ _)
  have hfill := refill_all
    (Memory.ofBytes (resize slot.held (c.byteCount announced.toNat)))
    (content.take (c.byteCount announced.toNat))
  have hresult : recvContainer c slot s =
      .ok ⟨(rcvNBytes (c.byteCount announced.toNat) (getPackLength slot s).2).ret,
        refill (Memory.ofBytes (resize slot.held (c.byteCount announced.toNat)))
          (c.byteCount announced.toNat)
          (rcvNBytes (c.byteCount announced.toNat) (getPackLength slot s).2).buffer,
        some (announced.toNat / c.elementSize),
        (rcvNBytes (c.byteCount announced.toNat) (getPackLength slot s).2).socket⟩ :=
    recvContainer_received (length_announces c slot h) hle
  rw [hlen] at hfill
  rw [hr.buffer, hfill] at hresult
  refine ⟨_, hresult, hr.ret, rfl, ?_⟩
  rw [(getPackLength_announces slot h).2.2, hr.bytes, hr.buffer, List.append_assoc]

/-- It takes the announced bytes when whole elements make them up. -/
theorem recvContainer_drop_iff {r : ContainerRcv} (hle : c.byteCount announced.toNat ≤ w.maxObject)
    (hr : recvContainer c slot s = .ok r) :
    r.socket.bytes = s.bytes.drop (4 + announced.toNat) ↔ c.elementSize ∣ announced.toNat := by
  obtain ⟨r', hresult, -, hcontents, hbytes⟩ := recvContainer_announces c slot h hle
  obtain rfl := Except.ok.inj (hr.symm.trans hresult)
  have hlen : r.contents.length = announced.toNat / c.elementSize * c.elementSize := by
    rw [hcontents, List.length_take, h.length]
    exact Nat.min_eq_left (Nat.div_mul_le_self _ _)
  have hfour : (appendUint32 announced).length = 4 := rfl
  constructor
  · intro hdrop
    have htotal := congrArg List.length hbytes
    have hprefix := h.delivers.isPrefix.length_le
    have hlength := congrArg List.length hdrop
    simp only [List.length_append, hlen, hfour] at htotal
    rw [List.length_append, hfour, h.length] at hprefix
    rw [List.length_drop] at hlength
    have hle := Nat.div_mul_le_self announced.toNat c.elementSize
    exact Dvd.intro_left (announced.toNat / c.elementSize) (by omega)
  · intro hdvd
    rw [hbytes]
    refine (List.drop_left' ?_).symm
    rw [List.length_append, hfour, hlen, Nat.div_mul_cancel hdvd]

end

/-! ## What the receive of a vector takes -/

/-- A receive that returns takes the prefix and as many bytes as it announces, or it fails. -/
def TakesAnnounced (s : ByteStream) (announced : BitVec 32) (result : Except Abort ContainerRcv) :
    Prop :=
  ∃ r, result = .ok r ∧ (r.ret < 0 ∨ r.socket.bytes = s.bytes.drop (4 + announced.toNat))

/-- A vector takes what its prefix announces when whole elements make it up, and an object of that
size exists. Otherwise it fails only where the count of the bytes of its elements wraps. -/
theorem recvVector_takes_iff {w : SizeT} (t : Element w) (slot : Slot) {s : ByteStream}
    {announced : BitVec 32} {content : Bytes} (h : Announces s announced content) :
    TakesAnnounced s announced (recvContainer (.vector t) slot s) ↔
      t.sizeOf ∣ announced.toNat ∧ announced.toNat ≤ w.maxObject ∨
        w = .bits64 ∧ 2 ^ 31 ≤ announced.toNat / t.sizeOf * t.sizeOf := by
  have hlt := announced.isLt
  have hle := Nat.div_mul_le_self announced.toNat t.sizeOf
  by_cases hbig : w.maxObject < announced.toNat / t.sizeOf * t.sizeOf
  · rw [recvContainer_tooLarge (.vector t) slot h hbig]
    have hw : w ≠ .bits64 := by
      rintro rfl
      simp only [SizeT.maxObject, maxObject] at hbig
      omega
    constructor
    · intro htakes
      obtain ⟨r, hresult, -⟩ := htakes
      cases hresult
    · rintro (⟨-, hfits⟩ | ⟨hw64, -⟩)
      · omega
      · exact absurd hw64 hw
  · have hfits := Nat.not_lt.mp hbig
    obtain ⟨r, hresult, hret, -⟩ := recvContainer_announces (.vector t) slot h hfits
    have hneg : r.ret < 0 ↔ 2 ^ 31 ≤ announced.toNat / t.sizeOf * t.sizeOf := by
      rw [hret]
      exact (Container.vector t).toInt_byteCount_neg announced
    have hdrop := recvContainer_drop_iff (.vector t) slot h hfits hresult
    constructor
    · intro htakes
      obtain ⟨r', hr', htakes⟩ := htakes
      obtain rfl := Except.ok.inj (hresult.symm.trans hr')
      rcases htakes with hnegative | hdropped
      · right
        have hwraps := hneg.mp hnegative
        refine ⟨?_, hwraps⟩
        cases w with
        | bits64 => rfl
        | bits32 =>
            simp only [SizeT.maxObject] at hfits
            omega
      · left
        have hdvd := hdrop.mp hdropped
        refine ⟨hdvd, ?_⟩
        rwa [← Nat.div_mul_cancel hdvd]
    · rintro (⟨hdvd, -⟩ | ⟨-, hwraps⟩)
      · exact ⟨r, hresult, .inr (hdrop.mpr hdvd)⟩
      · exact ⟨r, hresult, .inl (hneg.mpr hwraps)⟩

def announcing (content : Bytes) : ByteStream :=
  .ofBytes (appendUint32 (BitVec.ofNat 32 content.length) ++ content)

theorem announcing_announces (content : Bytes) (h : content.length < 2 ^ 32) :
    Announces (announcing content) (BitVec.ofNat 32 content.length) content where
  delivers := ByteStream.ofBytes_delivers _
  length := by
    rw [BitVec.toNat_ofNat]
    exact (Nat.mod_eq_of_lt h).symm

/-- Two elements of four bytes. -/
theorem recvVector_takes_iff_whole :
    TakesAnnounced (announcing [1, 2, 3, 4, 5, 6, 7, 8]) 8
      (recvContainer (.vector (wordElement .bits64)) ⟨fun _ => 0, []⟩
        (announcing [1, 2, 3, 4, 5, 6, 7, 8])) :=
  (recvVector_takes_iff (wordElement .bits64) ⟨fun _ => 0, []⟩
    (announcing_announces [1, 2, 3, 4, 5, 6, 7, 8] (by decide))).mpr
      (.inl ⟨by decide, by decide⟩)

/-- Of five announced bytes a vector of four-byte elements leaves the last one to the next reader,
on any platform. -/
theorem recvVector_leaves_byte (w : SizeT) :
    ∃ r, recvContainer (.vector (wordElement w)) ⟨fun _ => 0, []⟩ (announcing [1, 2, 3, 4, 5]) =
        .ok r ∧
      r.ret = 4 ∧ r.socket.bytes = [5] := by
  obtain ⟨r, hresult, hret, hcontents, hbytes⟩ := recvContainer_announces
    (.vector (wordElement w)) ⟨fun _ => 0, []⟩
    (announcing_announces [1, 2, 3, 4, 5] (by decide)) (by cases w <;> decide)
  have hcount : (Container.vector (wordElement w)).byteCount
      (BitVec.ofNat 32 [(1 : BitVec 8), 2, 3, 4, 5].length).toNat = 4 := by
    cases w <;> rfl
  rw [hcount] at hret hcontents
  rw [hcontents, announcing, ByteStream.ofBytes_bytes, List.append_assoc] at hbytes
  exact ⟨r, hresult, hret, (List.append_cancel_left
    (show [1, 2, 3, 4] ++ [5] = [1, 2, 3, 4] ++ r.socket.bytes from
      List.append_cancel_left hbytes)).symm⟩

theorem recvVector_shifts :
    ¬TakesAnnounced (announcing [1, 2, 3, 4, 5]) 5
        (recvContainer (.vector (wordElement .bits64)) ⟨fun _ => 0, []⟩ (announcing [1, 2, 3, 4, 5])) ∧
      ¬TakesAnnounced (announcing [1, 2, 3, 4, 5]) 5
        (recvContainer (.vector (wordElement .bits32)) ⟨fun _ => 0, []⟩
          (announcing [1, 2, 3, 4, 5])) := by
  have hshifts : ∀ w, ¬TakesAnnounced (announcing [1, 2, 3, 4, 5]) 5
      (recvContainer (.vector (wordElement w)) ⟨fun _ => 0, []⟩ (announcing [1, 2, 3, 4, 5])) := by
    intro w htakes
    obtain ⟨r, hresult, hret, hleft⟩ := recvVector_leaves_byte w
    obtain ⟨r', hresult', htakes⟩ := htakes
    obtain rfl := Except.ok.inj (hresult.symm.trans hresult')
    rcases htakes with hnegative | hdrop
    · rw [hret] at hnegative
      exact absurd hnegative (by decide)
    · rw [hleft, announcing, ByteStream.ofBytes_bytes] at hdrop
      exact absurd hdrop (by decide)
  exact ⟨hshifts .bits64, hshifts .bits32⟩

/-! ## The result of a receive -/

/-- Where the announced bytes are asked for, `rcv_n_bytes` returns how many it has read, and the
test of the parser does not see a failure. -/
def ResultKept {w : SizeT} (c : Container w) (slot : Slot) (s : ByteStream)
    (announced : BitVec 32) : Prop :=
  c.byteCount announced.toNat ≤ w.maxObject →
    let r := rcvNBytes (c.byteCount announced.toNat) (getPackLength slot s).2
    0 ≤ r.ret ∧ r.ret = r.buffer.length ∧ r.buffer.length = c.byteCount announced.toNat ∧
      ∃ result, recvContainer c slot s = .ok result ∧ ¬result.ret < 0

/-- The result keeps the count of a container below 2^31 bytes. A larger one exists where `size_t`
has 64 bits only. -/
theorem recv_result_iff {w : SizeT} (c : Container w) (slot : Slot) {s : ByteStream}
    {announced : BitVec 32} {content : Bytes} (h : Announces s announced content) :
    ResultKept c slot s announced ↔ w = .bits32 ∨ c.byteCount announced.toNat < 2 ^ 31 := by
  have hle : c.byteCount announced.toNat ≤ announced.toNat := Nat.div_mul_le_self _ _
  have hlt := announced.isLt
  have hr := rcvNBytes_announces c slot h
  have hlen : (rcvNBytes (c.byteCount announced.toNat) (getPackLength slot s).2).buffer.length =
      c.byteCount announced.toNat := by
    rw [hr.buffer, List.length_take, h.length]
    exact Nat.min_eq_left hle
  constructor
  · intro hkept
    cases w with
    | bits32 => exact .inl rfl
    | bits64 =>
        right
        have hnonneg := (hkept (by simp only [SizeT.maxObject, maxObject]; omega)).1
        by_contra hwraps
        have hneg := (c.toInt_byteCount_neg announced).mpr (Nat.not_lt.mp hwraps)
        rw [hr.ret] at hnonneg
        omega
  · intro hcount hfits
    have hsmall : c.byteCount announced.toNat < 2 ^ 31 := by
      rcases hcount with rfl | hcount
      · simp only [SizeT.maxObject] at hfits
        omega
      · exact hcount
    obtain ⟨result, hresult, hret, -, -⟩ := recvContainer_announces c slot h hfits
    have hvalue := toInt_of_lt hsmall
    simp only [hlen, hr.ret, hvalue]
    exact ⟨by omega, trivial, trivial, result, hresult, by rw [hret, hvalue]; omega⟩

theorem recv_result_iff_string :
    ResultKept (Container.string (w := .bits64)) ⟨fun _ => 0, []⟩ (announcing [1, 2, 3]) 3 :=
  (recv_result_iff .string ⟨fun _ => 0, []⟩
    (announcing_announces [1, 2, 3] (by decide))).mpr (.inr (by decide))

/-- A string of 2^31 bytes that has come whole is reported as a failure. -/
theorem recv_result_wraps :
    let s := announcing (List.replicate (2 ^ 31) 0)
    let str : Container .bits64 := .string
    (∃ result, recvContainer str ⟨fun _ => 0, []⟩ s = .ok result ∧ result.ret = -2147483648 ∧
        result.contents = List.replicate (2 ^ 31) 0) ∧
      ¬ResultKept str ⟨fun _ => 0, []⟩ s 0x80000000 := by
  intro s str
  have hlen : (List.replicate (2 ^ 31) (0 : BitVec 8)).length = 2 ^ 31 := List.length_replicate
  have h := announcing_announces (List.replicate (2 ^ 31) 0) (by rw [hlen]; decide)
  rw [hlen] at h
  have hfits : str.byteCount (BitVec.ofNat 32 (2 ^ 31)).toNat ≤ SizeT.bits64.maxObject := by decide
  have hcount : str.byteCount (BitVec.ofNat 32 (2 ^ 31)).toNat = 2 ^ 31 := by decide
  constructor
  · obtain ⟨result, hresult, hret, hcontents, -⟩ :=
      recvContainer_announces str ⟨fun _ => 0, []⟩ h hfits
    rw [hcount] at hret hcontents
    refine ⟨result, hresult, hret, ?_⟩
    rw [hcontents]
    exact List.take_of_length_le (Nat.le_of_eq hlen)
  · intro hkept
    have hnonneg := (hkept hfits).1
    have hret := (rcvNBytes_announces str ⟨fun _ => 0, []⟩ h).ret
    rw [hcount] at hret
    rw [show str.byteCount (0x80000000 : BitVec 32).toNat = 2 ^ 31 from hcount, hret] at hnonneg
    exact absurd hnonneg (by decide)

end KoheronServer.Session.Tcp
