import KoheronServer.Foundation.Bytes

/-!
# Base64

The encoding of RFC 4648: a group of three bytes is a number of 24 bits, whose four
digits in base 64 are named by the letters of an alphabet. A last group that is shorter
goes on with zero bits, and names the digits that its bytes reach into.
-/

namespace Foundation.Base64

/-- The `width` lowest digits of a number in base 64, highest first. -/
def digits : Nat → Nat → List Nat
  | 0, _ => []
  | width + 1, n => digits width (n / 64) ++ [n % 64]

def value (ds : List Nat) : Nat := ds.foldl (fun acc d => 64 * acc + d) 0

structure Alphabet where
  letters : Bytes
  length : letters.length = 64
  nodup : letters.Nodup

variable (alphabet : Alphabet) (pad : Byte)

def Alphabet.letter (d : Nat) : Byte := (alphabet.letters[d]?).getD 0

def Alphabet.digit (c : Byte) : Nat := alphabet.letters.idxOf c

/-- The letters for the bytes of a group, of which there are up to three. -/
def letters (group : Bytes) : Bytes :=
  ((digits 4 (beValue group * 256 ^ (3 - group.length))).take (group.length + 1)).map
    alphabet.letter

def body : Bytes → Bytes
  | a :: b :: c :: rest => letters alphabet [a, b, c] ++ body rest
  | [a, b] => letters alphabet [a, b]
  | [a] => letters alphabet [a]
  | [] => []

/-- The letters, and what brings their number to a multiple of four. -/
def encode (bytes : Bytes) : Bytes :=
  body alphabet bytes ++ List.replicate ((3 - bytes.length % 3) % 3) pad

/-- The bytes that a group of up to four letters has whole. -/
def bytes (group : Bytes) : Bytes :=
  (beDigits 3 (value (group.map alphabet.digit) * 64 ^ (4 - group.length))).take (group.length - 1)

def decode : Bytes → Bytes
  | a :: b :: c :: d :: rest => bytes alphabet [a, b, c, d] ++ decode rest
  | [a, b, c] => bytes alphabet [a, b, c]
  | [a, b] => bytes alphabet [a, b]
  | _ => []

variable {alphabet} {pad}

@[simp] theorem digit_letter {d : Nat} (h : d < 64) : alphabet.digit (alphabet.letter d) = d := by
  have hlength := alphabet.length
  rw [Alphabet.digit, Alphabet.letter, List.getElem?_eq_getElem (by omega), Option.getD_some]
  exact alphabet.nodup.idxOf_getElem d (by omega)

theorem digit_lt {c : Byte} (h : c ∈ alphabet.letters) : alphabet.digit c < 64 := by
  rw [← alphabet.length]
  exact List.idxOf_lt_length_iff.mpr h

theorem letter_mem {d : Nat} (h : d < 64) : alphabet.letter d ∈ alphabet.letters := by
  have hlength := alphabet.length
  rw [Alphabet.letter, List.getElem?_eq_getElem (by omega), Option.getD_some]
  exact List.getElem_mem _

theorem digits_lt {width n d : Nat} (h : d ∈ digits width n) : d < 64 := by
  induction width generalizing n with
  | zero => cases h
  | succ width ih =>
      rw [digits, List.mem_append, List.mem_singleton] at h
      rcases h with h | rfl
      · exact ih h
      · exact Nat.mod_lt n (by decide)

theorem map_digit_letter {ds : List Nat} (h : ∀ d ∈ ds, d < 64) :
    (ds.map alphabet.letter).map alphabet.digit = ds := by
  rw [List.map_map]
  exact (List.map_congr_left fun d hd => digit_letter (h d hd)).trans (List.map_id ds)

theorem map_digit_letters (group : Bytes) :
    (letters alphabet group).map alphabet.digit =
      (digits 4 (beValue group * 256 ^ (3 - group.length))).take (group.length + 1) :=
  map_digit_letter fun _ hd => digits_lt (List.mem_of_mem_take hd)

theorem digits_four (n : Nat) :
    digits 4 n = [n / 64 / 64 / 64 % 64, n / 64 / 64 % 64, n / 64 % 64, n % 64] := rfl

theorem beDigits_three (n : Nat) :
    beDigits 3 n = [BitVec.ofNat 8 (n / 256 / 256), BitVec.ofNat 8 (n / 256), BitVec.ofNat 8 n] :=
  rfl

theorem ofNat_eq_byte {n : Nat} {b : Byte} (h : n % 256 = b.toNat) : BitVec.ofNat 8 n = b :=
  BitVec.eq_of_toNat_eq (by rw [BitVec.toNat_ofNat]; exact h)

theorem decode_three (a b c : Byte) : bytes alphabet (letters alphabet [a, b, c]) = [a, b, c] := by
  have ha := a.isLt
  have hb := b.isLt
  have hc := c.isLt
  have hlength : (letters alphabet [a, b, c]).length = 4 := rfl
  rw [bytes, map_digit_letters, hlength, digits_four, beDigits_three]
  simp only [beValue, value, List.foldl_cons, List.foldl_nil, List.length_cons, List.length_nil,
    List.take_succ_cons, List.take_zero, List.cons.injEq, and_true]
  refine ⟨ofNat_eq_byte ?_, ofNat_eq_byte ?_, ofNat_eq_byte ?_⟩ <;> omega

theorem decode_two (a b : Byte) : bytes alphabet (letters alphabet [a, b]) = [a, b] := by
  have ha := a.isLt
  have hb := b.isLt
  have hlength : (letters alphabet [a, b]).length = 3 := rfl
  rw [bytes, map_digit_letters, hlength, digits_four, beDigits_three]
  simp only [beValue, value, List.foldl_cons, List.foldl_nil, List.length_cons, List.length_nil,
    List.take_succ_cons, List.take_zero, List.cons.injEq, and_true]
  refine ⟨ofNat_eq_byte ?_, ofNat_eq_byte ?_⟩ <;> omega

theorem decode_one (a : Byte) : bytes alphabet (letters alphabet [a]) = [a] := by
  have ha := a.isLt
  have hlength : (letters alphabet [a]).length = 2 := rfl
  rw [bytes, map_digit_letters, hlength, digits_four, beDigits_three]
  simp only [beValue, value, List.foldl_cons, List.foldl_nil, List.length_cons, List.length_nil,
    List.take_succ_cons, List.take_zero, List.cons.injEq, and_true]
  exact ofNat_eq_byte (by omega)

theorem decode_append {front : Bytes} (h : front.length = 4) (rest : Bytes) :
    decode alphabet (front ++ rest) = bytes alphabet front ++ decode alphabet rest := by
  match front, h with
  | [_, _, _, _], _ => rfl

theorem encode_append {front : Bytes} (h : front.length = 3) (rest : Bytes) :
    encode alphabet pad (front ++ rest) = letters alphabet front ++ encode alphabet pad rest := by
  have hlength : (front ++ rest).length % 3 = rest.length % 3 := by
    rw [List.length_append, h, Nat.add_mod_left]
  rw [encode, encode, hlength, ← List.append_assoc]
  match front, h with
  | [_, _, _], _ => rfl

theorem encode_length : ∀ bs : Bytes, (encode alphabet pad bs).length = 4 * ((bs.length + 2) / 3)
  | a :: b :: c :: rest => by
      have hletters : (letters alphabet [a, b, c]).length = 4 := rfl
      rw [show a :: b :: c :: rest = [a, b, c] ++ rest from rfl, encode_append rfl,
        List.length_append, hletters, encode_length rest, List.length_append]
      simp only [List.length_cons, List.length_nil]
      omega
  | [a, b] => by
      have hletters : (letters alphabet [a, b]).length = 3 := rfl
      simp [encode, body, hletters]
  | [a] => by
      have hletters : (letters alphabet [a]).length = 2 := rfl
      simp [encode, body, hletters]
  | [] => rfl

/-- What is decoded of the letters of some bytes are the bytes. -/
theorem decode_body : ∀ bs : Bytes, decode alphabet (body alphabet bs) = bs
  | a :: b :: c :: rest => by
      rw [body, decode_append rfl, decode_three, decode_body rest]
      rfl
  | [a, b] => decode_two a b
  | [a] => decode_one a
  | [] => rfl

theorem letters_mem {group : Bytes} {c : Byte} (h : c ∈ letters alphabet group) :
    c ∈ alphabet.letters := by
  obtain ⟨d, hd, rfl⟩ := List.mem_map.mp h
  exact letter_mem (digits_lt (List.mem_of_mem_take hd))

theorem body_mem : ∀ (bs : Bytes) {c : Byte}, c ∈ body alphabet bs → c ∈ alphabet.letters
  | a :: b :: d :: rest, _, h => by
      rw [body, List.mem_append] at h
      rcases h with h | h
      · exact letters_mem h
      · exact body_mem rest h
  | [_, _], _, h => letters_mem h
  | [_], _, h => letters_mem h
  | [], _, h => by cases h

end Foundation.Base64
