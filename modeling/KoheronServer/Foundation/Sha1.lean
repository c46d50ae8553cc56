import KoheronServer.Foundation.Blocks
import KoheronServer.Foundation.Bytes

/-!
# The Secure Hash Algorithm

SHA-1 as FIPS 180-1 defines it for a message of bytes: the padded message is taken in
blocks of sixteen words, each of which is expanded to a schedule of eighty words.
-/

namespace Foundation.Sha1

abbrev Word := BitVec 32

structure Registers where
  a : Word
  b : Word
  c : Word
  d : Word
  e : Word

def logical (t : Nat) (b c d : Word) : Word :=
  if t < 20 then (b &&& c) ||| (~~~b &&& d)
  else if t < 40 then b ^^^ c ^^^ d
  else if t < 60 then (b &&& c) ||| (b &&& d) ||| (c &&& d)
  else b ^^^ c ^^^ d

def constant (t : Nat) : Word :=
  if t < 20 then 0x5a827999
  else if t < 40 then 0x6ed9eba1
  else if t < 60 then 0x8f1bbcdc
  else 0xca62c1d6

def schedule (words : Nat → Word) (t : Nat) : Word :=
  if t < 16 then words t
  else
    (schedule words (t - 3) ^^^ schedule words (t - 8) ^^^ schedule words (t - 14) ^^^
      schedule words (t - 16)).rotateLeft 1
termination_by t

def Registers.round (r : Registers) (t : Nat) (w : Word) : Registers where
  a := r.a.rotateLeft 5 + logical t r.b r.c r.d + r.e + w + constant t
  b := r.a
  c := r.b.rotateLeft 30
  d := r.c
  e := r.d

def Registers.rounds (words : Nat → Word) (r : Registers) : Nat → Registers
  | 0 => r
  | t + 1 => (r.rounds words t).round t (schedule words t)

def Registers.add (r r' : Registers) : Registers :=
  ⟨r.a + r'.a, r.b + r'.b, r.c + r'.c, r.d + r'.d, r.e + r'.e⟩

def words (block : Bytes) (t : Nat) : Word :=
  BitVec.ofNat 32 (beValue (slice (4 * t) 4 block))

def compress (h : Registers) (block : Bytes) : Registers :=
  h.add (h.rounds (words block) 80)

def initial : Registers := ⟨0x67452301, 0xefcdab89, 0x98badcfe, 0x10325476, 0xc3d2e1f0⟩

/-- What is appended to a message of `n` bytes: a 1 bit, as many 0 bits as bring the length of
the message with its own length behind it to whole blocks, and the number of its bits. -/
def padding (n : Nat) : Bytes :=
  0x80 :: (List.replicate ((119 - n % 64) % 64) 0 ++ beDigits 8 (8 * n))

def Registers.digest (r : Registers) : Bytes :=
  [r.a, r.b, r.c, r.d, r.e].flatMap fun x => beDigits 4 x.toNat

def digest (message : Bytes) : Bytes :=
  (taken 64 compress initial (message ++ padding message.length)).digest

theorem schedule_of_lt (words : Nat → Word) {t : Nat} (h : t < 16) :
    schedule words t = words t := by
  rw [schedule, if_pos h]

theorem schedule_of_ge (words : Nat → Word) {t : Nat} (h : 16 ≤ t) :
    schedule words t =
      (schedule words (t - 3) ^^^ schedule words (t - 8) ^^^ schedule words (t - 14) ^^^
        schedule words (t - 16)).rotateLeft 1 := by
  rw [schedule, if_neg (by omega)]

@[simp] theorem digest_length (message : Bytes) : (digest message).length = 20 := by
  simp [digest, Registers.digest]

end Foundation.Sha1
