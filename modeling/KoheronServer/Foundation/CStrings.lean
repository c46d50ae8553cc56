import KoheronServer.Foundation.Bytes

/-!
# C strings and fields in memory

A C string ends at its first NUL, and `strcpy` stores it with the NUL. The copy stays
in an array exactly when the string is shorter than the array. The second half is about
records: a block that fits in its field changes no other field.
-/

namespace Foundation

def chars (s : List Char) : Bytes := s.map fun c => BitVec.ofNat 8 c.toNat

@[simp] theorem chars_length (s : List Char) : (chars s).length = s.length :=
  List.length_map _

namespace Memory

/-- A reader of a C string at offset `p` finds `s`. -/
structure CStringAt (m : Memory) (p : Nat) (s : Bytes) : Prop where
  chars : m.load p s.length = s
  terminated : m (p + s.length) = 0
  no_nul : 0 ∉ s

def strcpy (m : Memory) (p : Nat) (s : Bytes) : Memory := m.store p (s ++ [0])

/-- The copy of a C string with its NUL stays in an array of `size` bytes, and the bytes around the
array are left alone. -/
structure CopyFits (m : Memory) (p size : Nat) (s : Bytes) : Prop where
  inside : s.length + 1 ≤ size
  around : ∀ i, i < p ∨ p + size ≤ i → m.strcpy p s i = m i

theorem copyFits_iff (m : Memory) (p size : Nat) (s : Bytes) :
    m.CopyFits p size s ↔ s.length < size := by
  constructor
  · intro hfits
    exact hfits.inside
  · intro hlt
    refine ⟨hlt, fun i hi => ?_⟩
    rcases hi with hbefore | hbehind
    · exact store_of_lt m _ hbefore
    · refine store_of_ge m _ ?_
      rw [List.length_append, List.length_singleton]
      omega

theorem strcpy_nul (m : Memory) (p : Nat) (s : Bytes) : m.strcpy p s (p + s.length) = 0 := by
  simp [strcpy, store]

/-- A C string ends at the first NUL. -/
theorem CStringAt.length_le {m : Memory} {p i : Nat} {s : Bytes} (h : m.CStringAt p s)
    (hnul : m (p + i) = 0) : s.length ≤ i := by
  by_contra hlt
  have hi : i < s.length := by omega
  have hbyte : s[i] = 0 := by
    have hsame : (ofBytes s).load 0 s.length = m.load p s.length := by rw [load_ofBytes, h.chars]
    have hget := eq_of_load_eq hsame hi
    rw [hnul, Nat.zero_add] at hget
    simpa [ofBytes, hi] using hget
  exact h.no_nul (hbyte ▸ List.getElem_mem hi)

/-- The C string in an array of `size` bytes, when it ends there. -/
def readCString (m : Memory) (p size : Nat) : Option Bytes :=
  if 0 ∈ m.load p size then some ((m.load p size).takeWhile (· ≠ 0)) else none

theorem load_zeros (p n : Nat) : load (fun _ => 0) p n = List.replicate n 0 := by
  induction n generalizing p with
  | zero => rfl
  | succ n ih => rw [load_succ, ih, List.replicate_succ]

/-- What is read behind a block in an array of zeros ends with the block, or at a NUL in it. -/
theorem readCString_store (bytes : Bytes) {size : Nat} (hlt : bytes.length < size) :
    readCString (store (fun _ => 0) 0 bytes) 0 size = some (bytes.takeWhile (· ≠ 0)) := by
  obtain ⟨k, rfl⟩ := Nat.exists_eq_add_of_lt hlt
  have hload : load (store (fun _ => 0) 0 bytes) 0 (bytes.length + k + 1) =
      bytes ++ 0 :: List.replicate k 0 := by
    rw [load_store, load_zeros, List.take_of_length_le (by omega), ← List.replicate_succ]
    congr 2
    omega
  have hnul : 0 ∈ bytes ++ (0 : Byte) :: List.replicate k 0 := by simp
  rw [readCString, hload, if_pos hnul, List.takeWhile_append]
  split_ifs with hall
  · have hself := (List.takeWhile_prefix _).eq_of_length hall
    rw [hself]
    simp
  · rfl

end Memory

/-! ## Fields of a record -/

structure Layout (F : Type) where
  offset : F → Nat
  size : F → Nat
  disjoint : ∀ f g, f ≠ g → offset f + size f ≤ offset g ∨ offset g + size g ≤ offset f

namespace Layout

variable {F : Type} (l : Layout F)

def read (m : Memory) (f : F) : Bytes := m.load (l.offset f) (l.size f)

def write (m : Memory) (f : F) (bytes : Bytes) : Memory := m.store (l.offset f) bytes

/-- The field starts with the block. -/
def Holds (m : Memory) (f : F) (bytes : Bytes) : Prop := bytes <+: l.read m f

theorem holds_iff {m : Memory} {f : F} {bytes : Bytes} :
    l.Holds m f bytes ↔
      bytes.length ≤ l.size f ∧ m.load (l.offset f) bytes.length = bytes := by
  rw [Holds, List.prefix_iff_eq_take]
  constructor
  · intro heq
    have hlength := congrArg List.length heq
    rw [List.length_take, read, Memory.load_length] at hlength
    have hle : bytes.length ≤ l.size f := by omega
    refine ⟨hle, ?_⟩
    rw [read, Memory.load_take _ _ hle] at heq
    exact heq.symm
  · rintro ⟨hle, hload⟩
    rw [read, Memory.load_take _ _ hle, hload]

theorem read_write_of_ne {f g : F} (hne : g ≠ f) {bytes : Bytes} (hfit : bytes.length ≤ l.size f)
    (m : Memory) : l.read (l.write m f bytes) g = l.read m g := by
  refine Memory.load_congr fun i hlow hhigh => ?_
  rcases l.disjoint g f hne with hbefore | hbehind
  · exact Memory.store_of_lt m bytes (by omega)
  · exact Memory.store_of_ge m bytes (by omega)

theorem holds_write {f : F} {bytes : Bytes} (hfit : bytes.length ≤ l.size f) (m : Memory) :
    l.Holds (l.write m f bytes) f bytes :=
  l.holds_iff.mpr ⟨hfit, Memory.load_store_self m (l.offset f) bytes⟩

end Layout

end Foundation
