import KoheronServer.Foundation.Loops
import KoheronServer.Foundation.Sha1

/-!
# SHA-1

`sha1.cpp`. The context holds one block, whose bytes are exchanged within the words on a
little-endian machine and whose sixteen words are then overwritten in turn by those of
the schedule. The byte order is a parameter, for the preprocessor chooses between two
versions of three functions.
-/

namespace KoheronServer.Crypto

open Foundation
open Foundation.Sha1 (Word Registers)

/-- `BYTE_ORDER`, where it is supported. -/
inductive ByteOrder where
  | littleEndian
  | bigEndian

/-- The bytes of a number, as they are stored. -/
def ByteOrder.bytes (order : ByteOrder) (width n : Nat) : Bytes :=
  match order with
  | .littleEndian => (beDigits width n).reverse
  | .bigEndian => beDigits width n

def ByteOrder.value (order : ByteOrder) (bytes : Bytes) : Nat :=
  match order with
  | .littleEndian => beValue bytes.reverse
  | .bigEndian => beValue bytes

structure Sha1Ctxt where
  h : Vector Word 5
  c : BitVec 64
  m : Bytes
  count : BitVec 8

def k (t : Nat) : Word :=
  ([0x5a827999, 0x6ed9eba1, 0x8f1bbcdc, 0xca62c1d6][t / 20]?).getD 0

def f0 (b c d : Word) : Word := (b &&& c) ||| (~~~b &&& d)

def f1 (b c d : Word) : Word := (b ^^^ c) ^^^ d

def f2 (b c d : Word) : Word := ((b &&& c) ||| (b &&& d)) ||| (c &&& d)

def f3 (b c d : Word) : Word := (b ^^^ c) ^^^ d

def s (n : Nat) (x : Word) : Word := (x <<< n) ||| (x >>> (32 - n))

/-- The bytes with those of each word the other way round. -/
def exchange (m : Bytes) : Bytes :=
  (List.range m.length).map fun i => (m[4 * (i / 4) + (3 - i % 4)]?).getD 0

section

variable (order : ByteOrder)

def w (m : Bytes) (n : Nat) : Word := BitVec.ofNat 32 (order.value (slice (4 * n) 4 m))

def setW (m : Bytes) (n : Nat) (x : Word) : Bytes := splice (4 * n) (order.bytes 4 x.toNat) m

/-- `W(s)` with its next word of the schedule. -/
def nextW (m : Bytes) (slot : Nat) : Bytes :=
  setW order m slot
    (s 1 (w order m ((slot + 13) &&& 0x0f) ^^^ w order m ((slot + 8) &&& 0x0f) ^^^
      w order m ((slot + 2) &&& 0x0f) ^^^ w order m slot))

/-- What a round does with `W(s)`. -/
def mix (f : Word → Word → Word → Word) (t slot : Nat) (r : Registers) (m : Bytes) : Registers :=
  let tmp := s 5 r.a + f r.b r.c r.d + r.e + w order m slot + k t
  ⟨tmp, r.a, s 30 r.b, r.c, r.d⟩

def firstRound (x : Registers × Bytes) (t : Nat) : Registers × Bytes :=
  let slot := t &&& 0x0f
  let m := if 16 ≤ t then nextW order x.2 slot else x.2
  (mix order f0 t slot x.1 m, m)

def nextRound (f : Word → Word → Word → Word) (x : Registers × Bytes) (t : Nat) :
    Registers × Bytes :=
  let slot := t &&& 0x0f
  let m := nextW order x.2 slot
  (mix order f t slot x.1 m, m)

def sha1Rounds (x : Registers × Bytes) : Registers × Bytes :=
  countFrom (nextRound order f3) 60 80
    (countFrom (nextRound order f2) 40 60
      (countFrom (nextRound order f1) 20 40 (countFrom (firstRound order) 0 20 x)))

def arranged (m : Bytes) : Bytes :=
  match order with
  | .littleEndian => exchange m
  | .bigEndian => m

def sha1Add (ctxt : Sha1Ctxt) (x : Registers × Bytes) : Sha1Ctxt :=
  let h := ctxt.h
  { ctxt with
    h := #v[h[0] + x.1.a, h[1] + x.1.b, h[2] + x.1.c, h[3] + x.1.d, h[4] + x.1.e]
    m := splice 0 (List.replicate 64 0) x.2 }

def sha1Step (ctxt : Sha1Ctxt) : Sha1Ctxt :=
  let h := ctxt.h
  sha1Add ctxt (sha1Rounds order (⟨h[0], h[1], h[2], h[3], h[4]⟩, arranged order ctxt.m))

def sha1Init : Sha1Ctxt where
  h := #v[0x67452301, 0xefcdab89, 0x98badcfe, 0x10325476, 0xc3d2e1f0]
  c := 0
  m := List.replicate 64 0
  count := 0

/-- Bytes are copied to `m.b8[COUNT % 64]`, `COUNT` goes on by their number and is taken
modulo 64. -/
def Sha1Ctxt.copied (ctxt : Sha1Ctxt) (bytes : Bytes) : Sha1Ctxt :=
  { ctxt with
    m := splice (ctxt.count.toNat % 64) bytes ctxt.m
    count := (ctxt.count + BitVec.ofNat 8 bytes.length) % 64 }

/-- `if (COUNT % 64 == 0) sha1_step(ctxt)`. -/
def stepIfFull (ctxt : Sha1Ctxt) : Sha1Ctxt :=
  if ctxt.count.toNat % 64 = 0 then sha1Step order ctxt else ctxt

def putPad (ctxt : Sha1Ctxt) (x : Byte) : Sha1Ctxt := stepIfFull order (ctxt.copied [x])

def Sha1Ctxt.padlen (ctxt : Sha1Ctxt) : Nat := 64 - ctxt.count.toNat % 64

/-- The zeros of `sha1_pad`: up to the end of this block, if there is no room for the bit count,
and up to where the bit count is to be. -/
def putZeros (ctxt : Sha1Ctxt) : Sha1Ctxt :=
  let ctxt :=
    if ctxt.padlen < 8 then sha1Step order (ctxt.copied (List.replicate ctxt.padlen 0)) else ctxt
  ctxt.copied (List.replicate (ctxt.padlen - 8) 0)

def countBytes (c : BitVec 64) : Bytes :=
  match order with
  | .littleEndian => (order.bytes 8 c.toNat).reverse
  | .bigEndian => order.bytes 8 c.toNat

def sha1Pad (ctxt : Sha1Ctxt) : Sha1Ctxt :=
  let ctxt := putZeros order (putPad order ctxt 0x80)
  (countBytes order ctxt.c).foldl (putPad order) ctxt

/-- `copysiz`, when there are `len` bytes behind `off`. -/
def Sha1Ctxt.copysiz (ctxt : Sha1Ctxt) (len : Nat) : Nat :=
  let gaplen := 64 - ctxt.count.toNat % 64
  if gaplen < len then gaplen else len

theorem Sha1Ctxt.copysiz_pos (ctxt : Sha1Ctxt) {len : Nat} (h : 0 < len) :
    0 < ctxt.copysiz len := by
  simp only [copysiz]
  split_ifs <;> omega

/-- `ctxt->c.b64[0] += copysiz * 8`. -/
def Sha1Ctxt.counted (ctxt : Sha1Ctxt) (copysiz : Nat) : Sha1Ctxt :=
  { ctxt with c := ctxt.c + BitVec.ofNat 64 (copysiz * 8) }

/-- The body of `sha1_loop`, with the next `copysiz` bytes. -/
def loopBody (ctxt : Sha1Ctxt) (bytes : Bytes) : Sha1Ctxt :=
  stepIfFull order ((ctxt.copied bytes).counted bytes.length)

/-- `sha1_loop`, from `off` on: `input` is what there is behind it. -/
def sha1Loop (ctxt : Sha1Ctxt) (input : Bytes) : Sha1Ctxt :=
  if 0 < input.length then
    sha1Loop (loopBody order ctxt (input.take (ctxt.copysiz input.length)))
      (input.drop (ctxt.copysiz input.length))
  else ctxt
termination_by input.length
decreasing_by
  have hpos := ctxt.copysiz_pos (show 0 < input.length by assumption)
  rw [List.length_drop]
  omega

def hashBytes (ctxt : Sha1Ctxt) : Bytes := ctxt.h.toList.flatMap fun x => order.bytes 4 x.toNat

/-- `sha1_result`, and the digest that it writes. -/
def sha1Result (ctxt : Sha1Ctxt) : Sha1Ctxt × Bytes :=
  let ctxt := sha1Pad order ctxt
  (ctxt, match order with
    | .littleEndian => exchange (hashBytes order ctxt)
    | .bigEndian => hashBytes order ctxt)

def sha1 (d : Bytes) : Bytes := (sha1Result order (sha1Loop order sha1Init d)).2

end

/-! ## The bytes of words -/

theorem exchange_append {front : Bytes} (h : front.length = 4) (m : Bytes) :
    exchange (front ++ m) = front.reverse ++ exchange m := by
  match front, h with
  | [b0, b1, b2, b3], _ =>
      have hshift : ∀ i, 4 * ((4 + i) / 4) + (3 - (4 + i) % 4) = 4 * (i / 4) + (3 - i % 4) + 4 := by
        intro i
        omega
      rw [exchange, List.length_append, List.range_add, List.map_append, List.map_map]
      refine congrArg₂ (· ++ ·) (by simp [List.range_succ]) (List.map_congr_left fun i _ => ?_)
      simp only [Function.comp_apply, List.length_cons, List.length_nil, hshift]
      rfl

@[simp] theorem exchange_length (m : Bytes) : (exchange m).length = m.length := by
  simp [exchange]

theorem slice_exchange {m : Bytes} {n : Nat} (h : 4 * n + 4 ≤ m.length) :
    slice (4 * n) 4 (exchange m) = (slice (4 * n) 4 m).reverse := by
  induction n generalizing m with
  | zero =>
      have hfront : (m.take 4).length = 4 := by
        rw [List.length_take]
        omega
      have hword := exchange_append hfront (m.drop 4)
      rw [List.take_append_drop] at hword
      rw [hword, slice, slice, Nat.mul_zero, List.drop_zero, List.drop_zero]
      exact List.take_left' (by rw [List.length_reverse, hfront])
  | succ n ih =>
      have hfront : (m.take 4).length = 4 := by
        rw [List.length_take]
        omega
      have hword := exchange_append hfront (m.drop 4)
      rw [List.take_append_drop] at hword
      have hplace : 4 * (n + 1) - 4 = 4 * n := by omega
      have hrest := ih (m := m.drop 4) (by
        rw [List.length_drop]
        omega)
      rw [hword, slice_append_right (by rw [List.length_reverse, hfront]; omega),
        List.length_reverse, hfront, hplace, hrest, slice, slice, List.drop_drop]
      congr 3
      omega

theorem exchange_flatMap (xs : List Word) :
    exchange (xs.flatMap fun x => (beDigits 4 x.toNat).reverse) =
      xs.flatMap fun x => beDigits 4 x.toNat := by
  induction xs with
  | nil => rfl
  | cons x xs ih =>
      rw [List.flatMap_cons, exchange_append (by simp), ih, List.reverse_reverse, List.flatMap_cons]

section

variable (order : ByteOrder)

@[simp] theorem ByteOrder.bytes_length (width n : Nat) :
    (order.bytes width n).length = width := by
  cases order <;> simp [ByteOrder.bytes]

theorem ByteOrder.value_bytes (width n : Nat) :
    order.value (order.bytes width n) = n % 256 ^ width := by
  cases order <;> simp [ByteOrder.bytes, ByteOrder.value, beValue_beDigits]

theorem countBytes_eq (c : BitVec 64) : countBytes order c = beDigits 8 c.toNat := by
  cases order <;> simp [countBytes, ByteOrder.bytes]

/-- The digest is written highest byte first on either machine. -/
theorem sha1Result_eq (ctxt : Sha1Ctxt) :
    (sha1Result order ctxt).2 =
      (sha1Pad order ctxt).h.toList.flatMap fun x => beDigits 4 x.toNat := by
  cases order with
  | littleEndian => simp only [sha1Result, hashBytes, ByteOrder.bytes, exchange_flatMap]
  | bigEndian => simp only [sha1Result, hashBytes, ByteOrder.bytes]

theorem setW_length {m : Bytes} {n : Nat} (hm : m.length = 64) (hn : n < 16) (x : Word) :
    (setW order m n x).length = 64 := by
  rw [setW, splice_length (by rw [ByteOrder.bytes_length]; omega), hm]

theorem w_setW {m : Bytes} {n i : Nat} (hm : m.length = 64) (hn : n < 16) (x : Word) :
    w order (setW order m n x) i = if i = n then x else w order m i := by
  have hlength : (order.bytes 4 x.toNat).length = 4 := order.bytes_length 4 x.toNat
  by_cases hi : i = n
  · subst hi
    rw [if_pos rfl, w, setW, slice_splice_self hlength (by omega), ByteOrder.value_bytes]
    exact BitVec.eq_of_toNat_eq (by rw [BitVec.toNat_ofNat]; omega)
  · rw [if_neg hi, w, w, setW]
    rcases Nat.lt_or_gt_of_ne hi with hbefore | hafter
    · rw [slice_splice_before (by omega) (by omega)]
    · rw [slice_splice_after (by omega) (by omega)]

/-! ## The schedule in sixteen words -/

/-- In front of round `t`, the words are those of the schedule that it goes on from: each of the
last sixteen is in its place. -/
structure Queue (words : Nat → Word) (t : Nat) (m : Bytes) : Prop where
  size : m.length = 64
  word : ∀ j, t ≤ j + 16 → j < t ∨ j < 16 → w order m (j % 16) = Foundation.Sha1.schedule words j

variable {order} {words : Nat → Word} {t : Nat} {m : Bytes}

theorem Queue.first (h : Queue order words t m) (ht : t < 16) : Queue order words (t + 1) m where
  size := h.size
  word j hj hj' := h.word j (by omega) (by omega)

theorem and_mask (i : Nat) : i &&& 0x0f = i % 16 := Nat.and_two_pow_sub_one_eq_mod i 4

theorem s_eq {n : Nat} (hn : n < 32) (x : Word) : s n x = x.rotateLeft n := by
  rw [s, BitVec.rotateLeft, BitVec.rotateLeftAux, Nat.mod_eq_of_lt hn]

/-- A later one takes the place of the oldest. -/
theorem Queue.next (h : Queue order words t m) (ht : 16 ≤ t) :
    Queue order words (t + 1) (nextW order m (t % 16)) := by
  have hplace : t % 16 < 16 := Nat.mod_lt t (by omega)
  have h3 := h.word (t - 3) (by omega) (by omega)
  have h8 := h.word (t - 8) (by omega) (by omega)
  have h14 := h.word (t - 14) (by omega) (by omega)
  have h16 := h.word (t - 16) (by omega) (by omega)
  rw [show (t - 3) % 16 = (t % 16 + 13) % 16 by omega] at h3
  rw [show (t - 8) % 16 = (t % 16 + 8) % 16 by omega] at h8
  rw [show (t - 14) % 16 = (t % 16 + 2) % 16 by omega] at h14
  rw [show (t - 16) % 16 = t % 16 by omega] at h16
  constructor
  · exact setW_length order h.size hplace _
  · intro j hj hj'
    rw [nextW, w_setW order h.size hplace, and_mask, and_mask, and_mask, h3, h8, h14, h16,
      s_eq (by omega)]
    by_cases hlast : j = t
    · subst hlast
      rw [if_pos rfl, Foundation.Sha1.schedule_of_ge words ht]
    · rw [if_neg (by omega), h.word j (by omega) (by omega)]

/-! ## Rounds -/

theorem k_eq (ht : t < 80) : k t = Foundation.Sha1.constant t := by
  have hcases : t / 20 = 0 ∨ t / 20 = 1 ∨ t / 20 = 2 ∨ t / 20 = 3 := by omega
  rw [k, Foundation.Sha1.constant]
  rcases hcases with h | h | h | h
  · rw [h, if_pos (by omega)]
    rfl
  · rw [h, if_neg (by omega), if_pos (by omega)]
    rfl
  · rw [h, if_neg (by omega), if_neg (by omega), if_pos (by omega)]
    rfl
  · rw [h, if_neg (by omega), if_neg (by omega), if_neg (by omega)]
    rfl

theorem mix_eq {f : Word → Word → Word → Word} (hf : f = Foundation.Sha1.logical t) (ht : t < 80)
    (h : Queue order words (t + 1) m) (r : Registers) :
    mix order f t (t % 16) r m = r.round t (Foundation.Sha1.schedule words t) := by
  rw [mix, h.word t (by omega) (by omega), k_eq ht, s_eq (by omega), s_eq (by omega), hf]
  rfl

/-- In front of round `t`. -/
def Mixed (order : ByteOrder) (words : Nat → Word) (r : Registers) (t : Nat)
    (x : Registers × Bytes) : Prop :=
  x.1 = r.rounds words t ∧ Queue order words t x.2

variable {r : Registers} {x : Registers × Bytes}

theorem Mixed.firstRound (h : Mixed order words r t x) (ht : t < 20) :
    Mixed order words r (t + 1) (firstRound order x t) := by
  obtain ⟨hr, hqueue⟩ := h
  have hf : f0 = Foundation.Sha1.logical t := by
    funext b c d
    rw [f0, Foundation.Sha1.logical, if_pos ht]
  rw [Crypto.firstRound, and_mask]
  by_cases hnext : 16 ≤ t
  · have hqueue' := hqueue.next hnext
    simp only [if_pos hnext]
    exact ⟨by rw [mix_eq hf (by omega) hqueue', hr, Registers.rounds], hqueue'⟩
  · have hqueue' := hqueue.first (by omega)
    simp only [if_neg hnext]
    exact ⟨by rw [mix_eq hf (by omega) hqueue', hr, Registers.rounds], hqueue'⟩

theorem Mixed.nextRound {f : Word → Word → Word → Word} (h : Mixed order words r t x)
    (hf : f = Foundation.Sha1.logical t) (ht : 16 ≤ t) (ht' : t < 80) :
    Mixed order words r (t + 1) (nextRound order f x t) := by
  obtain ⟨hr, hqueue⟩ := h
  have hqueue' := hqueue.next ht
  rw [Crypto.nextRound, and_mask]
  exact ⟨by rw [mix_eq hf ht' hqueue', hr, Registers.rounds], hqueue'⟩

/-- The four loops make the eighty rounds. -/
theorem Mixed.sha1Rounds (h : Mixed order words r 0 x) :
    Mixed order words r 80 (sha1Rounds order x) := by
  have h20 : Mixed order words r 20 (countFrom (Crypto.firstRound order) 0 20 x) :=
    countFrom_invariant (P := Mixed order words r) (by omega)
      (fun _ _ _ ht hx => hx.firstRound ht) h
  have h40 : Mixed order words r 40 (countFrom (Crypto.nextRound order f1) 20 40 _) :=
    countFrom_invariant (P := Mixed order words r) (by omega)
      (fun t _ hlo hhi hx => hx.nextRound (by
        funext b c d
        rw [f1, Foundation.Sha1.logical, if_neg (by omega), if_pos hhi]) (by omega) (by omega)) h20
  have h60 : Mixed order words r 60 (countFrom (Crypto.nextRound order f2) 40 60 _) :=
    countFrom_invariant (P := Mixed order words r) (by omega)
      (fun t _ hlo hhi hx => hx.nextRound (by
        funext b c d
        rw [f2, Foundation.Sha1.logical, if_neg (by omega), if_neg (by omega), if_pos hhi])
        (by omega) (by omega)) h40
  exact countFrom_invariant (P := Mixed order words r) (by omega)
    (fun t _ hlo hhi hx => hx.nextRound (by
      funext b c d
      rw [f3, Foundation.Sha1.logical, if_neg (by omega), if_neg (by omega), if_neg (by omega)])
      (by omega) (by omega)) h60

end

end KoheronServer.Crypto
