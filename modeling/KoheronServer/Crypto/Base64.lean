import KoheronServer.Foundation.Base64
import KoheronServer.Foundation.Blocks
import KoheronServer.Foundation.CStrings
import Mathlib.Data.List.TakeWhile

/-!
# Base64 of byte strings

`base64.cpp`. Both loops collect a group in an array and empty it when it is full. What
is left of the last group is filled with NULs, in the decoder before the letters are
looked up.
-/

namespace KoheronServer.Crypto

open Foundation

def base64Chars : Bytes :=
  chars "ABCDEFGHIJKLMNOPQRSTUVWXYZabcdefghijklmnopqrstuvwxyz0123456789+/".toList

/-- `isalnum`, in the locale `C`. -/
def isalnum (c : Byte) : Bool :=
  (0x30 ≤ c.toNat && c.toNat ≤ 0x39) || (0x41 ≤ c.toNat && c.toNat ≤ 0x5a) ||
    (0x61 ≤ c.toNat && c.toNat ≤ 0x7a)

def isBase64 (c : Byte) : Bool := isalnum c || c == 0x2b || c == 0x2f

def filled (n : Nat) (group : Bytes) : Bytes := group ++ List.replicate (n - group.length) 0

def byteAt (xs : Bytes) (i : Nat) : Byte := (xs[i]?).getD 0

def charArray4 (a : Bytes) : Bytes :=
  [(byteAt a 0 &&& 0xfc) >>> 2,
    ((byteAt a 0 &&& 0x03) <<< 4) + ((byteAt a 1 &&& 0xf0) >>> 4),
    ((byteAt a 1 &&& 0x0f) <<< 2) + ((byteAt a 2 &&& 0xc0) >>> 6),
    byteAt a 2 &&& 0x3f]

def charArray3 (a : Bytes) : Bytes :=
  [(byteAt a 0 <<< 2) + ((byteAt a 1 &&& 0x30) >>> 4),
    ((byteAt a 1 &&& 0x0f) <<< 4) + ((byteAt a 2 &&& 0x3c) >>> 2),
    ((byteAt a 2 &&& 0x03) <<< 6) + byteAt a 3]

/-- `base64_chars[v]`. -/
def charOf (v : Byte) : Byte := byteAt base64Chars v.toNat

/-- `base64_chars.find(c)` in an `unsigned char`. -/
def findChar (c : Byte) : Byte :=
  match base64Chars.findIdx? (· == c) with
  | some i => BitVec.ofNat 8 i
  | none => 255

def encodeGroup (ret group : Bytes) : Bytes := ret ++ (charArray4 group).map charOf

def encodeRest (loop : Blocks Bytes Byte 3) : Bytes :=
  let i := loop.part.length
  if i ≠ 0 then
    loop.state ++ ((charArray4 (filled 3 loop.part)).take (i + 1)).map charOf ++
      List.replicate (3 - i) 0x3d
  else loop.state

def base64Encode (bytesToEncode : Memory) (inLen : BitVec 32) : Bytes :=
  encodeRest ((bytesToEncode.load 0 inLen.toNat).foldl (Blocks.feed encodeGroup)
    ⟨[], [], Nat.zero_lt_succ 2⟩)

/-- A full `char_array_4` is decoded. -/
def decodeGroup (ret group : Bytes) : Bytes := ret ++ charArray3 (group.map findChar)

/-- The loop of `base64_decode`, with what there is of the string from `in_` on. Behind the string
is a NUL. -/
def decodeLoop (x : Blocks Bytes Byte 4) (inLen : Int) : Bytes → Blocks Bytes Byte 4
  | [] => x
  | c :: rest =>
      if inLen ≠ 0 ∧ c ≠ 0x3d ∧ isBase64 c then
        decodeLoop (x.feed decodeGroup c) (inLen - 1) rest
      else x

def decodeRest (loop : Blocks Bytes Byte 4) : Bytes :=
  let i := loop.part.length
  if i ≠ 0 then
    loop.state ++ (charArray3 ((filled 4 loop.part).map findChar)).take (i - 1)
  else loop.state

def base64Decode (encodedString : Bytes) : Bytes :=
  let inLen := (BitVec.ofNat 32 encodedString.length).toInt
  decodeRest (decodeLoop ⟨[], [], Nat.zero_lt_succ 3⟩ inLen encodedString)

/-! ## Groups -/

def alphabet : Base64.Alphabet := ⟨base64Chars, by decide +kernel, by decide +kernel⟩

/-- The characters are three ranges and two signs. -/
theorem base64Chars_eq :
    base64Chars = (List.range' 0x41 26 ++ List.range' 0x61 26 ++ List.range' 0x30 10 ++
      [0x2b, 0x2f]).map (BitVec.ofNat 8) := by
  decide +kernel

theorem isBase64_iff (c : Byte) : isBase64 c = true ↔ c ∈ alphabet.letters := by
  have hself : BitVec.ofNat 8 c.toNat = c := by simp
  have hsigns : (c = 0x2b ↔ c.toNat = 0x2b) ∧ (c = 0x2f ↔ c.toNat = 0x2f) :=
    ⟨BitVec.toNat_inj.symm, BitVec.toNat_inj.symm⟩
  have hmem : c ∈ alphabet.letters ↔ c.toNat ∈
      List.range' 0x41 26 ++ List.range' 0x61 26 ++ List.range' 0x30 10 ++ [0x2b, 0x2f] := by
    rw [show alphabet.letters = base64Chars from rfl, base64Chars_eq, List.mem_map]
    constructor
    · rintro ⟨n, hn, rfl⟩
      have hlt : n < 256 := by
        simp only [List.mem_append, List.mem_range'_1, List.mem_cons, List.not_mem_nil,
          or_false] at hn
        omega
      rwa [BitVec.toNat_ofNat, Nat.mod_eq_of_lt hlt]
    · intro h
      exact ⟨c.toNat, h, hself⟩
  rw [hmem]
  simp only [isBase64, isalnum, Bool.or_eq_true, Bool.and_eq_true, decide_eq_true_eq, beq_iff_eq,
    hsigns, List.mem_append, List.mem_range'_1, List.mem_cons, List.not_mem_nil, or_false]
  omega

theorem isBase64_pad : isBase64 0x3d = false := rfl

theorem findChar_toNat {c : Byte} (h : isBase64 c = true) :
    (findChar c).toNat = alphabet.digit c := by
  have hmem : c ∈ base64Chars := (isBase64_iff c).mp h
  have hfind : base64Chars.findIdx? (· == c) = some (alphabet.digit c) :=
    List.findIdx?_eq_some_of_exists ⟨c, hmem, beq_self_eq_true c⟩
  have hlt : alphabet.digit c < 64 := Base64.digit_lt hmem
  rw [findChar, hfind]
  simp only
  rw [BitVec.toNat_ofNat]
  omega

theorem toNat_add_of_lt {a b : Byte} (h : a.toNat + b.toNat < 256) :
    (a + b).toNat = a.toNat + b.toNat := by
  rw [BitVec.toNat_add, Nat.mod_eq_of_lt h]

/-- The parts of a byte that the encoder takes. -/
theorem toNat_encoded : ∀ a : Byte,
    ((a &&& 0xfc) >>> 2).toNat = a.toNat / 4 ∧ ((a &&& 0x03) <<< 4).toNat = a.toNat % 4 * 16 ∧
      ((a &&& 0xf0) >>> 4).toNat = a.toNat / 16 ∧ ((a &&& 0x0f) <<< 2).toNat = a.toNat % 16 * 4 ∧
      ((a &&& 0xc0) >>> 6).toNat = a.toNat / 64 ∧ (a &&& 0x3f).toNat = a.toNat % 64 := by
  decide +kernel

theorem charArray4_digits (a b c : Byte) :
    (charArray4 [a, b, c]).map BitVec.toNat = Base64.digits 4 (beValue [a, b, c]) := by
  have ha := a.isLt
  have hb := b.isLt
  have hc := c.isLt
  rw [Base64.digits_four]
  simp only [charArray4, byteAt, List.map_cons, List.map_nil, List.getElem?_cons_zero,
    List.getElem?_cons_succ, Option.getD_some]
  obtain ⟨ha0, ha1, -⟩ := toNat_encoded a
  obtain ⟨-, -, hb1, hb2, -⟩ := toNat_encoded b
  obtain ⟨-, -, -, -, hc2, hc3⟩ := toNat_encoded c
  rw [toNat_add_of_lt (by rw [ha1, hb1]; omega), toNat_add_of_lt (by rw [hb2, hc2]; omega), ha0,
    ha1, hb1, hb2, hc2, hc3]
  simp only [beValue, List.foldl_cons, List.foldl_nil, List.cons.injEq, and_true]
  refine ⟨?_, ?_, ?_, ?_⟩ <;> omega

theorem map_charOf (xs : Bytes) : xs.map charOf = (xs.map BitVec.toNat).map alphabet.letter := by
  rw [List.map_map]
  rfl

theorem beValue_zeros (group : Bytes) (n : Nat) :
    beValue (group ++ List.replicate n 0) = beValue group * 256 ^ n := by
  induction n with
  | zero => simp
  | succ n ih =>
      rw [List.replicate_succ', ← List.append_assoc, beValue_concat, ih, Nat.pow_succ]
      have hzero : (0 : Byte).toNat = 0 := rfl
      rw [hzero]
      ring

/-- The letters of a group, filled or full. -/
theorem letters_eq (group : Bytes) (h : group.length ≤ 3) :
    ((charArray4 (filled 3 group)).take (group.length + 1)).map charOf =
      Base64.letters alphabet group := by
  have hlength : (filled 3 group).length = 3 := by
    rw [filled, List.length_append, List.length_replicate]
    omega
  obtain ⟨a, b, c, hfilled⟩ := List.length_eq_three.mp hlength
  rw [map_charOf, List.map_take, hfilled, charArray4_digits, ← hfilled, filled, beValue_zeros]
  rfl

/-- The parts of a digit that the decoder takes. -/
theorem toNat_decoded : ∀ a : Byte,
    (a <<< 2).toNat = a.toNat % 64 * 4 ∧ ((a &&& 0x30) >>> 4).toNat = a.toNat / 16 % 4 ∧
      ((a &&& 0x0f) <<< 4).toNat = a.toNat % 16 * 16 ∧
      ((a &&& 0x3c) >>> 2).toNat = a.toNat / 4 % 16 ∧
      ((a &&& 0x03) <<< 6).toNat = a.toNat % 4 * 64 := by
  decide +kernel

theorem charArray3_bytes (a : Byte) {b c d : Byte} (hb : b.toNat < 64)
    (hc : c.toNat < 64) (hd : d.toNat < 64) :
    charArray3 [a, b, c, d] =
      beDigits 3 (Base64.value [a.toNat, b.toNat, c.toNat, d.toNat]) := by
  rw [Base64.beDigits_three]
  simp only [charArray3, byteAt, List.getElem?_cons_zero, List.getElem?_cons_succ,
    Option.getD_some, Base64.value, List.foldl_cons, List.foldl_nil, List.cons.injEq, and_true]
  obtain ⟨ha0, -⟩ := toNat_decoded a
  obtain ⟨-, hb0, hb1, -⟩ := toNat_decoded b
  obtain ⟨-, -, -, hc1, hc2⟩ := toNat_decoded c
  refine ⟨(Base64.ofNat_eq_byte ?_).symm, (Base64.ofNat_eq_byte ?_).symm,
    (Base64.ofNat_eq_byte ?_).symm⟩
  · rw [toNat_add_of_lt (by rw [ha0, hb0]; omega), ha0, hb0]
    omega
  · rw [toNat_add_of_lt (by rw [hb1, hc1]; omega), hb1, hc1]
    omega
  · rw [toNat_add_of_lt (by rw [hc2]; omega), hc2]
    omega

/-- The bytes that a group has whole do not depend on what its array is filled with. -/
theorem charArray3_take (xs ys zs : Bytes) (h : xs.length ≤ 4) :
    (charArray3 (xs ++ ys)).take (xs.length - 1) =
      (charArray3 (xs ++ zs)).take (xs.length - 1) := by
  match xs, h with
  | [], _ => rfl
  | [_], _ => rfl
  | [_, _], _ => rfl
  | [_, _, _], _ => rfl
  | [_, _, _, _], _ => rfl

theorem value_zeros (ds : List Nat) (n : Nat) :
    Base64.value (ds ++ List.replicate n 0) = Base64.value ds * 64 ^ n := by
  induction n with
  | zero => simp
  | succ n ih =>
      rw [List.replicate_succ', ← List.append_assoc, Base64.value, List.foldl_append]
      simp only [List.foldl_cons, List.foldl_nil]
      rw [← Base64.value, ih, Nat.pow_succ]
      ring

theorem bytes_eq (group : Bytes) (h : group.length ≤ 4) (hall : ∀ c ∈ group, isBase64 c = true) :
    (charArray3 ((filled 4 group).map findChar)).take (group.length - 1) =
      Base64.bytes alphabet group := by
  have hdigits : (group.map findChar).map BitVec.toNat = group.map alphabet.digit := by
    rw [List.map_map]
    exact List.map_congr_left fun c hc => findChar_toNat (hall c hc)
  have hlt : ∀ v ∈ group.map findChar ++ List.replicate (4 - group.length) 0, v.toNat < 64 := by
    intro v hv
    rcases List.mem_append.mp hv with hv | hv
    · obtain ⟨c, hc, rfl⟩ := List.mem_map.mp hv
      rw [findChar_toNat (hall c hc)]
      exact Base64.digit_lt ((isBase64_iff c).mp (hall c hc))
    · obtain rfl := (List.mem_replicate.mp hv).2
      decide
  have hlength : (group.map findChar ++ List.replicate (4 - group.length) (0 : Byte)).length = 4 := by
    rw [List.length_append, List.length_map, List.length_replicate]
    omega
  have hmap : (group.map findChar).length = group.length := List.length_map _
  have hfill := charArray3_take (group.map findChar)
    ((List.replicate (4 - group.length) 0).map findChar) (List.replicate (4 - group.length) 0)
    (by omega)
  rw [hmap] at hfill
  rw [filled, List.map_append, hfill, Base64.bytes]
  congr 1
  obtain ⟨a, b, c, d, hfour⟩ := List.length_eq_four.mp hlength
  rw [hfour] at hlt
  rw [hfour, charArray3_bytes a (hlt b (by simp)) (hlt c (by simp))
    (hlt d (by simp)), ← hdigits, ← value_zeros]
  have hnat := congrArg (List.map BitVec.toNat) hfour
  rw [List.map_append, List.map_replicate] at hnat
  exact congrArg (fun ds => beDigits 3 (Base64.value ds)) hnat.symm

/-! ## Loops -/

variable {x : Blocks Bytes Byte 3}

/-- The last group, when it is not full. -/
theorem encodeRest_part {group : Bytes} (hx : x.part = []) (hpos : 0 < group.length)
    (hlt : group.length < 3) :
    encodeRest (group.foldl (Blocks.feed encodeGroup) x) =
      x.state ++ (Base64.letters alphabet group ++ List.replicate (3 - group.length) 0x3d) := by
  have hroom : x.part.length + group.length < 3 := by
    rw [hx, List.length_nil, Nat.zero_add]
    exact hlt
  obtain ⟨hstate, hpart⟩ := x.foldl_feed_of_lt encodeGroup hroom
  have hletters := letters_eq group (by omega)
  rw [hx, List.nil_append] at hpart
  rw [encodeRest]
  simp only [hpart, hstate]
  rw [if_pos (by omega), hletters, List.append_assoc]

/-- What has been encoded, and then the encoding of the rest. -/
theorem encodeRest_foldl : ∀ (bs : Bytes) (x : Blocks Bytes Byte 3), x.part = [] →
    encodeRest (bs.foldl (Blocks.feed encodeGroup) x) = x.state ++ Base64.encode alphabet 0x3d bs
  | a :: b :: c :: rest, x, hx => by
      have hfull : x.part.length + [a, b, c].length = 3 := by
        rw [hx]
        rfl
      obtain ⟨hstate, hpart⟩ := x.foldl_feed_of_eq encodeGroup hfull
      have hletters : (charArray4 [a, b, c]).map charOf = Base64.letters alphabet [a, b, c] :=
        letters_eq [a, b, c] (Nat.le_refl 3)
      rw [show a :: b :: c :: rest = [a, b, c] ++ rest from rfl, List.foldl_append,
        encodeRest_foldl rest _ hpart, hstate, hx, List.nil_append, encodeGroup, hletters,
        Base64.encode_append rfl, List.append_assoc]
  | [_, _], _, hx => encodeRest_part hx (by simp) (by simp)
  | [_], _, hx => encodeRest_part hx (by simp) (by simp)
  | [], x, hx => by
      rw [List.foldl_nil, encodeRest, hx]
      exact (List.append_nil x.state).symm

/-- The loop of the decoder takes the letters in front of what is none. -/
theorem decodeLoop_eq (text : Bytes) (x : Blocks Bytes Byte 4) :
    decodeLoop x text.length text =
      (text.takeWhile isBase64).foldl (Blocks.feed decodeGroup) x := by
  induction text generalizing x with
  | nil => rfl
  | cons c text ih =>
      have hlength : ((c :: text).length : Int) - 1 = text.length := by
        rw [List.length_cons]
        omega
      have hne : ((c :: text).length : Int) ≠ 0 := by
        rw [List.length_cons]
        omega
      rw [decodeLoop, hlength, ih]
      by_cases hc : isBase64 c = true
      · have hpad : c ≠ 0x3d := by
          rintro rfl
          rw [isBase64_pad] at hc
          cases hc
        rw [if_pos ⟨hne, hpad, hc⟩, List.takeWhile_cons_of_pos hc, List.foldl_cons]
      · rw [if_neg (fun h => hc h.2.2), List.takeWhile_cons_of_neg hc, List.foldl_nil]

variable {x : Blocks Bytes Byte 4}

theorem decodeRest_part {group : Bytes} (hx : x.part = []) (hpos : 0 < group.length)
    (hlt : group.length < 4) (hall : ∀ c ∈ group, isBase64 c = true) :
    decodeRest (group.foldl (Blocks.feed decodeGroup) x) =
      x.state ++ Base64.bytes alphabet group := by
  have hroom : x.part.length + group.length < 4 := by
    rw [hx, List.length_nil, Nat.zero_add]
    exact hlt
  obtain ⟨hstate, hpart⟩ := x.foldl_feed_of_lt decodeGroup hroom
  have hbytes := bytes_eq group (by omega) hall
  rw [hx, List.nil_append] at hpart
  rw [decodeRest]
  simp only [hpart, hstate]
  rw [if_pos (by omega), hbytes]

theorem decodeRest_foldl : ∀ (cs : Bytes) (x : Blocks Bytes Byte 4), x.part = [] →
    (∀ c ∈ cs, isBase64 c = true) →
    decodeRest (cs.foldl (Blocks.feed decodeGroup) x) = x.state ++ Base64.decode alphabet cs
  | a :: b :: c :: d :: rest, x, hx, hall => by
      have hfull : x.part.length + [a, b, c, d].length = 4 := by
        rw [hx]
        rfl
      obtain ⟨hstate, hpart⟩ := x.foldl_feed_of_eq decodeGroup hfull
      have hfour : ∀ e ∈ [a, b, c, d], isBase64 e = true := fun e he =>
        hall e (List.mem_append_left rest he)
      have hrest : ∀ e ∈ rest, isBase64 e = true := fun e he =>
        hall e (List.mem_append_right [a, b, c, d] he)
      have hbytes : charArray3 ([a, b, c, d].map findChar) = Base64.bytes alphabet [a, b, c, d] :=
        bytes_eq [a, b, c, d] (Nat.le_refl 4) hfour
      rw [show a :: b :: c :: d :: rest = [a, b, c, d] ++ rest from rfl, List.foldl_append,
        decodeRest_foldl rest _ hpart hrest, hstate, hx, List.nil_append, decodeGroup, hbytes,
        Base64.decode_append rfl, List.append_assoc]
  | [_, _, _], _, hx, hall => decodeRest_part hx (by simp) (by simp) hall
  | [_, _], _, hx, hall => decodeRest_part hx (by simp) (by simp) hall
  | [_], _, hx, hall => decodeRest_part hx (by simp) (by simp) hall
  | [], x, hx, _ => by
      rw [List.foldl_nil, decodeRest, hx]
      exact (List.append_nil x.state).symm

/-! ## Whole texts -/

/-- `base64_encode` is the encoding of RFC 4648. -/
theorem base64Encode_eq (bytesToEncode : Memory) (inLen : BitVec 32) :
    base64Encode bytesToEncode inLen =
      Base64.encode alphabet 0x3d (bytesToEncode.load 0 inLen.toNat) :=
  encodeRest_foldl _ ⟨[], [], Nat.zero_lt_succ 2⟩ rfl

/-- `base64_decode` decodes the letters in front of the first character that is none. -/
theorem base64Decode_eq {text : Bytes} (h : text.length < 2 ^ 31) :
    base64Decode text = Base64.decode alphabet (text.takeWhile isBase64) := by
  have hint : (BitVec.ofNat 32 text.length).toInt = text.length := by
    rw [BitVec.toInt_eq_toNat_of_lt, BitVec.toNat_ofNat, Nat.mod_eq_of_lt (by omega)]
    rw [BitVec.toNat_ofNat]
    omega
  rw [base64Decode, hint]
  simp only [decodeLoop_eq]
  exact decodeRest_foldl _ ⟨[], [], Nat.zero_lt_succ 3⟩ rfl fun c hc => List.mem_takeWhile_imp hc

/-- The letters of an encoding are what is in front of its padding. -/
theorem takeWhile_encode (bs : Bytes) :
    (Base64.encode alphabet 0x3d bs).takeWhile isBase64 = Base64.body alphabet bs := by
  have hbody : ∀ c ∈ Base64.body alphabet bs, isBase64 c = true := fun c hc =>
    (isBase64_iff c).mpr (Base64.body_mem bs hc)
  rw [Base64.encode, List.takeWhile_append_of_pos hbody]
  cases (3 - bs.length % 3) % 3 with
  | zero => simp
  | succ n =>
      rw [List.replicate_succ, List.takeWhile_cons_of_neg (by rw [isBase64_pad]; decide),
        List.append_nil]

/-- The encoding is that of RFC 4648, and what has been encoded is decoded again, as long as its
length is an `int`. -/
theorem base64Decode_encode (bytesToEncode : Memory) (inLen : BitVec 32)
    (h : (base64Encode bytesToEncode inLen).length < 2 ^ 31) :
    base64Encode bytesToEncode inLen =
        Base64.encode alphabet 0x3d (bytesToEncode.load 0 inLen.toNat) ∧
      base64Decode (base64Encode bytesToEncode inLen) = bytesToEncode.load 0 inLen.toNat := by
  refine ⟨base64Encode_eq bytesToEncode inLen, ?_⟩
  rw [base64Decode_eq h, base64Encode_eq, takeWhile_encode, Base64.decode_body]

/-- Four bytes, of which the last makes a group of its own. -/
theorem base64Decode_encode_four :
    (base64Encode (Memory.ofBytes [0xde, 0xad, 0xbe, 0xef]) 4).length < 2 ^ 31 ∧
      base64Encode (Memory.ofBytes [0xde, 0xad, 0xbe, 0xef]) 4 =
          Base64.encode alphabet 0x3d
            ((Memory.ofBytes [0xde, 0xad, 0xbe, 0xef]).load 0 (4 : BitVec 32).toNat) ∧
        base64Decode (base64Encode (Memory.ofBytes [0xde, 0xad, 0xbe, 0xef]) 4) =
          (Memory.ofBytes [0xde, 0xad, 0xbe, 0xef]).load 0 (4 : BitVec 32).toNat :=
  ⟨by decide +kernel, base64Decode_encode _ _ (by decide +kernel)⟩

end KoheronServer.Crypto
