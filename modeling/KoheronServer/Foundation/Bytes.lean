import Mathlib.Data.List.Induction
import Mathlib.Tactic.Ring

/-!
# Bytes, memories and big-endian numbers

A memory is what a byte pointer sees: one byte at every offset. Blocks are
loaded from it and stored into it; a block that was stored is what a load at the
same place returns. The second half reads a list of bytes as the digits, highest
first, of a number in base 256.
-/

namespace Foundation

abbrev Byte := BitVec 8

abbrev Bytes := List Byte

/-- What a byte pointer sees: the byte at every offset from it. -/
abbrev Memory := Nat → Byte

namespace Memory

def offset (m : Memory) (p : Nat) : Memory := fun i => m (p + i)

def ofBytes (bytes : Bytes) : Memory := fun i => (bytes[i]?).getD 0

/-- The `n` bytes from offset `p` on. -/
def load (m : Memory) : Nat → Nat → Bytes
  | _, 0 => []
  | p, n + 1 => m p :: load m (p + 1) n

/-- The memory after `bytes` have been copied to offset `p`. -/
def store (m : Memory) (p : Nat) (bytes : Bytes) : Memory := fun i =>
  if p ≤ i then (bytes[i - p]?).getD (m i) else m i

@[simp] theorem load_zero (m : Memory) (p : Nat) : m.load p 0 = [] := rfl

theorem load_succ (m : Memory) (p n : Nat) : m.load p (n + 1) = m p :: m.load (p + 1) n := rfl

@[simp] theorem load_length (m : Memory) (p n : Nat) : (m.load p n).length = n := by
  induction n generalizing p with
  | zero => rfl
  | succ n ih => simp [load_succ, ih]

theorem load_append (m : Memory) (p a b : Nat) :
    m.load p (a + b) = m.load p a ++ m.load (p + a) b := by
  induction a generalizing p with
  | zero => simp
  | succ a ih =>
      rw [Nat.succ_add, load_succ, load_succ, ih]
      simp [Nat.add_assoc, Nat.add_comm 1]

theorem load_take (m : Memory) (p : Nat) {a n : Nat} (h : a ≤ n) :
    (m.load p n).take a = m.load p a := by
  obtain ⟨b, rfl⟩ := Nat.exists_eq_add_of_le h
  rw [load_append, List.take_left' (load_length m p a)]

theorem load_drop (m : Memory) (p : Nat) {a n : Nat} (h : a ≤ n) :
    (m.load p n).drop a = m.load (p + a) (n - a) := by
  obtain ⟨b, rfl⟩ := Nat.exists_eq_add_of_le h
  rw [load_append, List.drop_left' (load_length m p a), Nat.add_sub_cancel_left]

theorem load_congr {m m' : Memory} {p n : Nat} (h : ∀ i, p ≤ i → i < p + n → m i = m' i) :
    m.load p n = m'.load p n := by
  induction n generalizing p with
  | zero => rfl
  | succ n ih =>
      rw [load_succ, load_succ, h p (Nat.le_refl p) (by omega)]
      rw [ih (fun i hp hi => h i (by omega) (by omega))]

theorem eq_of_load_eq {m m' : Memory} {p p' n : Nat} (h : m.load p n = m'.load p' n) {i : Nat}
    (hi : i < n) : m (p + i) = m' (p' + i) := by
  induction n generalizing p p' i with
  | zero => omega
  | succ n ih =>
      rw [load_succ, load_succ] at h
      obtain ⟨hhead, htail⟩ := List.cons.inj h
      cases i with
      | zero => exact hhead
      | succ i =>
          have hrest := ih htail (i := i) (by omega)
          rwa [Nat.add_right_comm, Nat.add_right_comm p'] at hrest

@[simp] theorem offset_apply (m : Memory) (p i : Nat) : m.offset p i = m (p + i) := rfl

theorem load_offset (m : Memory) (p q n : Nat) : (m.offset p).load q n = m.load (p + q) n := by
  induction n generalizing q with
  | zero => rfl
  | succ n ih => simp [load_succ, ih, Nat.add_assoc]

@[simp] theorem store_nil (m : Memory) (p : Nat) : m.store p [] = m := by
  funext i
  simp [store]

/-- Storing a byte and then the rest behind it is storing the whole block. -/
theorem store_cons (m : Memory) (p : Nat) (b : Byte) (bytes : Bytes) :
    m.store p (b :: bytes) = (m.store p [b]).store (p + 1) bytes := by
  funext i
  unfold store
  by_cases hp : p + 1 ≤ i
  · obtain ⟨k, rfl⟩ : ∃ k, i = p + (k + 1) := ⟨i - (p + 1), by omega⟩
    have hk : p + (k + 1) - p = k + 1 := by omega
    have hk' : p + (k + 1) - (p + 1) = k := by omega
    simp [hk, hk']
  · by_cases he : p = i
    · subst he
      rw [if_neg hp]
      simp
    · rw [if_neg (by omega), if_neg hp, if_neg (by omega)]

theorem store_append (m : Memory) (p : Nat) (xs ys : Bytes) :
    m.store p (xs ++ ys) = (m.store p xs).store (p + xs.length) ys := by
  induction xs generalizing m p with
  | nil => simp
  | cons b xs ih =>
      rw [List.cons_append, store_cons, ih, ← store_cons, List.length_cons]
      congr 1
      omega

theorem store_of_lt (m : Memory) {p i : Nat} (bytes : Bytes) (h : i < p) :
    m.store p bytes i = m i := by
  simp [store, show ¬ p ≤ i by omega]

theorem store_of_ge (m : Memory) {p i : Nat} (bytes : Bytes) (h : p + bytes.length ≤ i) :
    m.store p bytes i = m i := by
  unfold store
  rw [List.getElem?_eq_none (by omega)]
  simp

/-- The byte at offset `i` matters for what `f` returns. -/
def DependsOn {β : Type} (f : Memory → β) (i : Nat) : Prop :=
  ∃ m m' : Memory, (∀ j, j ≠ i → m j = m' j) ∧ f m ≠ f m'

theorem load_store (m : Memory) (p n : Nat) (bytes : Bytes) :
    (m.store p bytes).load p n = bytes.take n ++ m.load (p + bytes.length) (n - bytes.length) := by
  induction bytes generalizing m p n with
  | nil => simp
  | cons b bytes ih =>
      cases n with
      | zero => simp
      | succ n =>
          have hhead : ((m.store p [b]).store (p + 1) bytes) p = b := by
            rw [store_of_lt _ _ (Nat.lt_succ_self p)]
            simp [store]
          rw [store_cons, load_succ, hhead, ih]
          simp only [List.take_succ_cons, List.length_cons, List.cons_append, List.cons.injEq,
            true_and, Nat.succ_sub_succ_eq_sub, Nat.add_assoc, Nat.add_comm 1]
          congr 1
          apply load_congr
          intro i hi _
          exact store_of_ge m [b] (by simp; omega)

theorem load_store_self (m : Memory) (p : Nat) (bytes : Bytes) :
    (m.store p bytes).load p bytes.length = bytes := by
  simp [load_store]

theorem load_ofBytes (bytes : Bytes) : (ofBytes bytes).load 0 bytes.length = bytes := by
  have hstore : ofBytes bytes = store (fun _ => 0) 0 bytes := by
    funext i
    simp [ofBytes, store]
  rw [hstore, load_store_self]

/-- A load that ends before the block does not see it. -/
theorem load_store_before (m : Memory) {p q n : Nat} (bytes : Bytes) (h : q + n ≤ p) :
    (m.store p bytes).load q n = m.load q n :=
  load_congr fun _ _ hi => store_of_lt m bytes (by omega)

end Memory

/-! ## Big-endian numbers -/

/-- The number whose base-256 digits, highest first, are `bytes`. -/
def beValue (bytes : Bytes) : Nat := bytes.foldl (fun acc b => 256 * acc + b.toNat) 0

/-- The `width` lowest base-256 digits of `n`, highest first. -/
def beDigits : Nat → Nat → Bytes
  | 0, _ => []
  | width + 1, n => beDigits width (n / 256) ++ [BitVec.ofNat 8 n]

@[simp] theorem beValue_nil : beValue [] = 0 := rfl

theorem beValue_concat (bytes : Bytes) (b : Byte) :
    beValue (bytes ++ [b]) = 256 * beValue bytes + b.toNat := by
  simp [beValue]

@[simp] theorem beDigits_length (width n : Nat) : (beDigits width n).length = width := by
  induction width generalizing n with
  | zero => rfl
  | succ width ih => simp [beDigits, ih]

theorem beValue_beDigits (width n : Nat) : beValue (beDigits width n) = n % 256 ^ width := by
  induction width generalizing n with
  | zero => simp [beDigits, Nat.mod_one]
  | succ width ih =>
      have hpow : 256 ^ (width + 1) = 256 * 256 ^ width := by rw [Nat.pow_succ, Nat.mul_comm]
      rw [beDigits, beValue_concat, ih, BitVec.toNat_ofNat, hpow, Nat.mod_mul]
      omega

theorem beValue_append (xs ys : Bytes) :
    beValue (xs ++ ys) = 256 ^ ys.length * beValue xs + beValue ys := by
  induction ys using List.reverseRecOn with
  | nil => simp
  | append_singleton ys y ih =>
      rw [← List.append_assoc, beValue_concat, ih, beValue_concat, List.length_append,
        List.length_singleton, Nat.pow_succ, Nat.mul_add, ← Nat.mul_assoc, Nat.mul_comm 256,
        Nat.add_assoc]

theorem beDigits_add (a b n : Nat) :
    beDigits (a + b) n = beDigits a (n / 256 ^ b) ++ beDigits b n := by
  induction b generalizing n with
  | zero => simp [beDigits]
  | succ b ih =>
      rw [← Nat.add_assoc, beDigits, ih, beDigits, Nat.div_div_eq_div_mul, Nat.pow_succ,
        Nat.mul_comm 256, List.append_assoc]

theorem beDigits_beValue (bytes : Bytes) : beDigits bytes.length (beValue bytes) = bytes := by
  induction bytes using List.reverseRecOn with
  | nil => rfl
  | append_singleton bytes b ih =>
      have hb : b.toNat < 256 := b.isLt
      have hdiv : (256 * beValue bytes + b.toNat) / 256 = beValue bytes := by omega
      have hlow : BitVec.ofNat 8 (256 * beValue bytes + b.toNat) = b := by
        apply BitVec.eq_of_toNat_eq
        rw [BitVec.toNat_ofNat]
        omega
      rw [beValue_concat, List.length_append, List.length_singleton, beDigits, hdiv, hlow, ih]

theorem beValue_lt (bytes : Bytes) : beValue bytes < 256 ^ bytes.length := by
  have h := beValue_beDigits bytes.length (beValue bytes)
  rw [beDigits_beValue] at h
  rw [h]
  exact Nat.mod_lt _ (Nat.pos_of_ne_zero (by simp))

theorem beDigits_mod (width n : Nat) : beDigits width (n % 256 ^ width) = beDigits width n := by
  have h := beDigits_beValue (beDigits width n)
  rwa [beDigits_length, beValue_beDigits] at h

/-- The number of a block with its last digit apart. -/
theorem beValue_load_succ (m : Memory) (p n : Nat) :
    beValue (m.load p (n + 1)) = 256 * beValue (m.load p n) + (m (p + n)).toNat := by
  rw [Memory.load_append]
  exact beValue_concat _ _

theorem beValue_load_le {m m' : Memory} {p n : Nat}
    (h : ∀ i, p ≤ i → i < p + n → (m i).toNat ≤ (m' i).toNat) :
    beValue (m.load p n) ≤ beValue (m'.load p n) := by
  induction n with
  | zero => exact Nat.le_refl _
  | succ n ih =>
      have hrest := ih fun i hi hi' => h i hi (by omega)
      have hlast := h (p + n) (by omega) (by omega)
      rw [beValue_load_succ, beValue_load_succ]
      omega

end Foundation
