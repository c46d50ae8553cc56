import KoheronServer.Crypto.Sha1

/-!
# The digest that is computed

A context that is fed piece by piece holds what the blocks of the message so far have
made of the chaining value, and what there is of the next block. `sha1_pad` feeds it the
padding, so what it ends with is the digest of the whole message.
-/

namespace KoheronServer.Crypto

open Foundation
open Foundation.Sha1 (Word Registers compress padding)

def chain (r : Registers) : Vector Word 5 := #v[r.a, r.b, r.c, r.d, r.e]

section

variable {order : ByteOrder} {ctxt : Sha1Ctxt} {r : Registers}

theorem Queue.start {m : Bytes} (hm : m.length = 64) :
    Queue order (Foundation.Sha1.words m) 0 (arranged order m) := by
  constructor
  · cases order with
    | littleEndian => exact (exchange_length m).trans hm
    | bigEndian => exact hm
  · intro j _ hj
    have hj' : j < 16 := by omega
    rw [Nat.mod_eq_of_lt hj', Foundation.Sha1.schedule_of_lt _ hj', w, Foundation.Sha1.words]
    cases order with
    | littleEndian =>
        simp only [ByteOrder.value, arranged]
        rw [slice_exchange (by omega), List.reverse_reverse]
    | bigEndian => rfl

theorem sha1Add_eq {x : Registers × Bytes} (hh : ctxt.h = chain r)
    (h : Mixed order (Foundation.Sha1.words ctxt.m) r 80 x) :
    sha1Add ctxt x =
      { ctxt with h := chain (compress r ctxt.m), m := List.replicate 64 0 } := by
  obtain ⟨hr, hqueue⟩ := h
  have hsum : chain (compress r ctxt.m) = chain (r.add x.1) := by rw [hr, compress]
  simp only [sha1Add, hh, hsum]
  rw [splice_all (by rw [List.length_replicate, hqueue.size])]
  rfl

/-- `sha1_step` takes the block and leaves an empty one. -/
theorem sha1Step_eq (hh : ctxt.h = chain r) (hm : ctxt.m.length = 64) :
    sha1Step order ctxt =
      { ctxt with h := chain (compress r ctxt.m), m := List.replicate 64 0 } := by
  have hregisters : (⟨ctxt.h[0], ctxt.h[1], ctxt.h[2], ctxt.h[3], ctxt.h[4]⟩ : Registers) = r := by
    rw [hh]
    rfl
  rw [sha1Step]
  simp only [hregisters]
  exact sha1Add_eq hh (Mixed.sha1Rounds ⟨rfl, Queue.start hm⟩)

end

/-- What a context has taken, and what it has kept of the next block. -/
structure Holds (ctxt : Sha1Ctxt) (x : Blocks Registers Byte 64) : Prop where
  h : ctxt.h = chain x.state
  size : ctxt.m.length = 64
  count : ctxt.count.toNat = x.part.length
  part : ctxt.m.take x.part.length = x.part

section

variable (order : ByteOrder) {ctxt : Sha1Ctxt} {x : Blocks Registers Byte 64} {text : Bytes}

theorem Holds.start : Holds sha1Init ⟨Foundation.Sha1.initial, [], by decide⟩ where
  h := rfl
  size := List.length_replicate
  count := rfl
  part := rfl

theorem Holds.counted (h : Holds ctxt x) (n : Nat) : Holds (ctxt.counted n) x :=
  ⟨h.h, h.size, h.count, h.part⟩

theorem Holds.count_mod (h : Holds ctxt x) : ctxt.count.toNat % 64 = x.part.length := by
  rw [h.count, Nat.mod_eq_of_lt x.short]

theorem Holds.copied_m (h : Holds ctxt x) (hroom : x.part.length + text.length ≤ 64) :
    (ctxt.copied text).m.length = 64 ∧
      (ctxt.copied text).m.take (x.part.length + text.length) = x.part ++ text := by
  have hsize := h.size
  simp only [Sha1Ctxt.copied, h.count_mod]
  refine ⟨by rw [splice_length (by omega), hsize], ?_⟩
  rw [take_splice (by omega), h.part]

theorem Holds.copied_count (h : Holds ctxt x) :
    (ctxt.copied text).count.toNat = (x.part.length + text.length) % 64 := by
  have hcount := h.count
  have h64 : (64 : BitVec 8).toNat = 64 := rfl
  simp only [Sha1Ctxt.copied, BitVec.toNat_umod, BitVec.toNat_add, BitVec.toNat_ofNat, h64]
  omega

/-- What leaves room in the block is kept. -/
theorem Holds.copy (h : Holds ctxt x) (hroom : x.part.length + text.length < 64) :
    Holds (ctxt.copied text) (text.foldl (Blocks.feed compress) x) := by
  obtain ⟨hstate, hpart⟩ := x.foldl_feed_of_lt compress hroom
  obtain ⟨hsize, htake⟩ := h.copied_m (Nat.le_of_lt hroom)
  constructor
  · rw [hstate]
    exact h.h
  · exact hsize
  · rw [h.copied_count, hpart, List.length_append, Nat.mod_eq_of_lt hroom]
  · rw [hpart, List.length_append, htake]

/-- What fills the block has it taken. -/
theorem Holds.fill (h : Holds ctxt x) (hfull : x.part.length + text.length = 64) :
    Holds (sha1Step order (ctxt.copied text)) (text.foldl (Blocks.feed compress) x) := by
  obtain ⟨hstate, hpart⟩ := x.foldl_feed_of_eq compress hfull
  obtain ⟨hsize, htake⟩ := h.copied_m (Nat.le_of_eq hfull)
  have hwhole : (ctxt.copied text).m = x.part ++ text := by
    rw [← htake, List.take_of_length_le (by omega)]
  rw [sha1Step_eq (show (ctxt.copied text).h = chain x.state from h.h) hsize, hwhole]
  constructor
  · rw [hstate]
  · exact List.length_replicate
  · simp only [hpart]
    rw [h.copied_count, hfull]
    rfl
  · rw [hpart]
    rfl

/-- Either way, when something is copied and the counter decides. -/
theorem Holds.put (h : Holds ctxt x) (hroom : x.part.length + text.length ≤ 64)
    (hnonempty : 0 < text.length) :
    Holds (stepIfFull order (ctxt.copied text)) (text.foldl (Blocks.feed compress) x) := by
  have hcount := @h.copied_count ctxt x text
  rw [stepIfFull]
  by_cases hfull : x.part.length + text.length = 64
  · rw [if_pos (by omega)]
    exact h.fill order hfull
  · rw [if_neg (by omega)]
    exact h.copy (by omega)

theorem stepIfFull_c (ctxt : Sha1Ctxt) : (stepIfFull order ctxt).c = ctxt.c := by
  rw [stepIfFull]
  split_ifs
  · rfl
  · rfl

theorem Holds.putPad (h : Holds ctxt x) (b : Byte) :
    Holds (putPad order ctxt b) (x.feed compress b) :=
  @Holds.put order ctxt x [b] h x.short (Nat.succ_pos 0)

theorem Holds.foldl_putPad (h : Holds ctxt x) (bytes : Bytes) :
    Holds (bytes.foldl (Crypto.putPad order) ctxt) (bytes.foldl (Blocks.feed compress) x) := by
  induction bytes generalizing ctxt x with
  | nil => exact h
  | cons b bytes ih => exact ih (h.putPad order b)

/-! ## `sha1_loop` -/

theorem Holds.copysiz_le (h : Holds ctxt x) (len : Nat) :
    ctxt.copysiz len ≤ len ∧ x.part.length + ctxt.copysiz len ≤ 64 := by
  have hshort := x.short
  have hgap := h.count_mod
  simp only [Sha1Ctxt.copysiz]
  split_ifs <;> omega

theorem sha1Loop_holds (h : Holds ctxt x) (input : Bytes) :
    Holds (sha1Loop order ctxt input) (input.foldl (Blocks.feed compress) x) ∧
      (sha1Loop order ctxt input).c = ctxt.c + BitVec.ofNat 64 (input.length * 8) := by
  fun_induction sha1Loop order ctxt input generalizing x with
  | case1 ctxt input hoff ih =>
      have hpos := ctxt.copysiz_pos hoff
      have hbounds := h.copysiz_le input.length
      generalize ctxt.copysiz input.length = copysiz at hpos hbounds ih ⊢
      have htake : (input.take copysiz).length = copysiz := by
        rw [List.length_take]
        omega
      have hput := @Holds.put order _ x (input.take copysiz) (h.counted copysiz) (by omega)
        (by omega)
      rw [loopBody, htake] at ih ⊢
      obtain ⟨hholds, hc⟩ := ih hput
      rw [← List.foldl_append, List.take_append_drop] at hholds
      refine ⟨hholds, hc.trans ?_⟩
      rw [stepIfFull_c, List.length_drop]
      simp only [Sha1Ctxt.counted, Sha1Ctxt.copied]
      rw [BitVec.add_assoc, ← BitVec.ofNat_add]
      congr 2
      omega
  | case2 ctxt input hoff =>
      obtain rfl : input = [] := List.eq_nil_of_length_eq_zero (by omega)
      exact ⟨h, by simp⟩

theorem foldl_sha1Loop_holds (h : Holds ctxt x) (pieces : List Bytes) :
    Holds (pieces.foldl (sha1Loop order) ctxt) (pieces.flatten.foldl (Blocks.feed compress) x) ∧
      (pieces.foldl (sha1Loop order) ctxt).c =
        ctxt.c + BitVec.ofNat 64 (pieces.flatten.length * 8) := by
  induction pieces generalizing ctxt x with
  | nil => exact ⟨h, by simp⟩
  | cons piece pieces ih =>
      obtain ⟨hpiece, hc⟩ := sha1Loop_holds order h piece
      obtain ⟨hrest, hc'⟩ := ih hpiece
      rw [List.flatten_cons, List.foldl_append]
      refine ⟨hrest, ?_⟩
      rw [List.foldl_cons, hc', hc, List.length_append, Nat.add_mul, BitVec.ofNat_add,
        BitVec.add_assoc]

/-! ## `sha1_pad` -/

theorem Holds.padlen (h : Holds ctxt x) : ctxt.padlen = 64 - x.part.length := by
  rw [Sha1Ctxt.padlen, h.count_mod]

/-- The zeros leave room for the bit count, and no more. -/
theorem Holds.putZeros (h : Holds ctxt x) :
    Holds (putZeros order ctxt)
      ((List.replicate ((120 - x.part.length) % 64) 0).foldl (Blocks.feed compress) x) := by
  have hshort := x.short
  rw [Crypto.putZeros]
  by_cases hroom : ctxt.padlen < 8
  · have hpadlen := h.padlen
    have hlength : (List.replicate ctxt.padlen (0 : Byte)).length = ctxt.padlen :=
      List.length_replicate
    have hfull : x.part.length + (List.replicate ctxt.padlen (0 : Byte)).length = 64 := by omega
    have hempty := (x.foldl_feed_of_eq compress hfull).2
    have hfilled := h.fill order hfull
    have hzeros : (120 - x.part.length) % 64 = ctxt.padlen + 56 := by omega
    simp only [if_pos hroom]
    rw [hfilled.padlen, hempty, hzeros, List.replicate_add, List.foldl_append]
    exact hfilled.copy (by rw [hempty]; decide)
  · have hpadlen := h.padlen
    have hzeros : (120 - x.part.length) % 64 = ctxt.padlen - 8 := by omega
    simp only [if_neg hroom]
    rw [hzeros]
    exact h.copy (by rw [List.length_replicate]; omega)

theorem putZeros_c (ctxt : Sha1Ctxt) : (putZeros order ctxt).c = ctxt.c := by
  rw [putZeros]
  split_ifs
  · rfl
  · rfl

theorem sha1Pad_holds (h : Holds ctxt x) :
    Holds (sha1Pad order ctxt)
      ((0x80 :: (List.replicate ((119 - x.part.length) % 64) 0 ++
        beDigits 8 ctxt.c.toNat)).foldl (Blocks.feed compress) x) := by
  have hone := h.putPad order 0x80
  have hc : (Crypto.putZeros order (Crypto.putPad order ctxt 0x80)).c = ctxt.c := by
    rw [putZeros_c, putPad, stepIfFull_c]
    rfl
  have hzeros : (120 - (x.feed compress 0x80).part.length) % 64 = (119 - x.part.length) % 64 := by
    have hshort := x.short
    rw [Blocks.feed_part]
    split_ifs with hfull
    · rw [List.length_nil]
      omega
    · rw [List.length_append, List.length_singleton]
      omega
  have hzeroed := hone.putZeros order
  rw [hzeros] at hzeroed
  have hdone := hzeroed.foldl_putPad order (beDigits 8 ctxt.c.toNat)
  rw [← List.foldl_append] at hdone
  rw [sha1Pad]
  simp only [hc, countBytes_eq, List.foldl_cons]
  exact hdone

end

/-! ## The digest -/

/-- What is fed piece by piece has the digest of all of it. -/
theorem sha1Result_foldl (order : ByteOrder) (pieces : List Bytes) :
    (sha1Result order (pieces.foldl (sha1Loop order) sha1Init)).2 =
      Foundation.Sha1.digest pieces.flatten := by
  obtain ⟨hholds, hc⟩ := foldl_sha1Loop_holds order Holds.start pieces
  have hpad := sha1Pad_holds order hholds
  have hfed := fun message => Blocks.foldl_feed compress Foundation.Sha1.initial
    (show 0 < 64 by decide) message
  have hpadding : (0x80 :: (List.replicate
      ((119 - (pieces.flatten.foldl (Blocks.feed compress)
        ⟨Foundation.Sha1.initial, [], show 0 < 64 by decide⟩).part.length) % 64) 0 ++
      beDigits 8 (pieces.foldl (sha1Loop order) sha1Init).c.toNat) : Bytes) =
      padding pieces.flatten.length := by
    have hbits : sha1Init.c + BitVec.ofNat 64 (pieces.flatten.length * 8) =
        BitVec.ofNat 64 (8 * pieces.flatten.length) := by
      rw [Nat.mul_comm]
      exact BitVec.zero_add _
    have hlength : (pieces.flatten.drop (64 * (pieces.flatten.length / 64))).length =
        pieces.flatten.length % 64 := by
      rw [List.length_drop]
      omega
    rw [(hfed pieces.flatten).2, hlength, hc, hbits, BitVec.toNat_ofNat, padding]
    exact congrArg (fun n => 0x80 :: (List.replicate _ 0 ++ n))
      (beDigits_mod 8 (8 * pieces.flatten.length))
  rw [hpadding, ← List.foldl_append] at hpad
  rw [sha1Result_eq, hpad.h, (hfed _).1]
  rfl

theorem sha1_eq (order : ByteOrder) (d : Bytes) : sha1 order d = Foundation.Sha1.digest d := by
  have h := sha1Result_foldl order [d]
  rwa [List.flatten_singleton] at h

/-- Whatever the pieces are that a message comes in and whatever the byte order is, the digest is
that of the message, and what is written stays in the block, also while it is padded: a copy that
leaves the block makes it longer, and no step makes it shorter again. -/
theorem sha1_pieces (order : ByteOrder) (pieces : List Bytes) :
    (sha1Result order (pieces.foldl (sha1Loop order) sha1Init)).2 =
        sha1 order pieces.flatten ∧
      sha1 order pieces.flatten = Foundation.Sha1.digest pieces.flatten ∧
      (pieces.foldl (sha1Loop order) sha1Init).m.length = 64 ∧
      (sha1Pad order (pieces.foldl (sha1Loop order) sha1Init)).m.length = 64 := by
  obtain ⟨hholds, -⟩ := foldl_sha1Loop_holds order Holds.start pieces
  refine ⟨?_, sha1_eq order pieces.flatten, hholds.size, (sha1Pad_holds order hholds).size⟩
  rw [sha1Result_foldl, sha1_eq]

end KoheronServer.Crypto
