import KoheronServer.Foundation.Bytes

/-!
# Byte streams read in pieces

The receiving end of a connection as a process sees it. The bytes of the peer
arrive in non-empty chunks, in between a read may fail, and behind the last
arrival the peer has closed or the connection fails for ever. One read call
returns at most one chunk, so every way in which reads can cut a stream is the
chunking of some stream with the same bytes.
-/

namespace Foundation

/-- The largest number of bytes that one read or write call transfers. -/
def maxTransfer : Nat := 0x7ffff000

/-- What one read call can return: at least one byte and at most `maxTransfer`. -/
structure Chunk where
  bytes : Bytes
  nonempty : bytes ≠ []
  bounded : bytes.length ≤ maxTransfer

def Chunk.drop (c : Chunk) (n : Nat) (h : n < c.bytes.length) : Chunk where
  bytes := c.bytes.drop n
  nonempty := by
    intro he
    have hlen := congrArg List.length he
    simp only [List.length_drop, List.length_nil] at hlen
    omega
  bounded := by
    have hb := c.bounded
    simp only [List.length_drop]
    omega

inductive Arrival where
  | data (c : Chunk)
  | error

/-- What every read behind the last arrival sees. -/
inductive Ending where
  | closed
  | failing
  deriving DecidableEq, Repr

structure ByteStream where
  arrivals : List Arrival
  ending : Ending

/-- The three outcomes of a read call: a positive count, 0 and -1. -/
inductive ReadResult where
  | data (bytes : Bytes)
  | closed
  | error

namespace ByteStream

/-- One read call with count `n`. A count of 0 returns 0 and takes nothing. -/
def read (s : ByteStream) (n : Nat) : ReadResult × ByteStream :=
  if n = 0 then (.closed, s)
  else
    match s.arrivals with
    | [] =>
        match s.ending with
        | .closed => (.closed, s)
        | .failing => (.error, s)
    | .error :: rest => (.error, { s with arrivals := rest })
    | .data c :: rest =>
        if h : n < c.bytes.length then
          (.data (c.bytes.take n), { s with arrivals := .data (c.drop n h) :: rest })
        else (.data c.bytes, { s with arrivals := rest })

/-- A read call with a null buffer: bytes that are there cannot be stored, so they stay on the
stream and the call fails with `EFAULT`. -/
def readNull (s : ByteStream) (n : Nat) : ReadResult × ByteStream :=
  match s.read n with
  | (.data _, _) => (.error, s)
  | (.closed, s) => (.closed, s)
  | (.error, s) => (.error, s)

def bytes (s : ByteStream) : Bytes :=
  s.arrivals.flatMap fun
    | .data c => c.bytes
    | .error => []

/-- No read of the stream fails, and it ends with the peer's close. -/
structure Clean (s : ByteStream) : Prop where
  noError : ∀ a ∈ s.arrivals, a ≠ .error
  closed : s.ending = .closed

/-- The stream that delivers `bytes` one at a time and then closes. -/
def ofBytes (bytes : Bytes) : ByteStream where
  arrivals := bytes.map fun b => .data ⟨[b], by simp, by simp [maxTransfer]⟩
  ending := .closed

@[simp] theorem ofBytes_bytes (bytes : Bytes) : (ofBytes bytes).bytes = bytes := by
  simp [ofBytes, ByteStream.bytes, List.flatMap_map]

theorem ofBytes_clean (bytes : Bytes) : (ofBytes bytes).Clean := by
  refine ⟨?_, rfl⟩
  intro a ha
  simp only [ofBytes, List.mem_map] at ha
  obtain ⟨b, _, rfl⟩ := ha
  simp

def ErrorFree (s : ByteStream) : Prop := ∀ a ∈ s.arrivals, a ≠ .error

theorem Clean.errorFree {s : ByteStream} (hs : s.Clean) : s.ErrorFree := hs.noError

theorem ErrorFree.arrivals_eq_nil {s : ByteStream} (hs : s.ErrorFree) (h : s.bytes = []) :
    s.arrivals = [] := by
  cases ha : s.arrivals with
  | nil => rfl
  | cons a rest =>
      cases a with
      | error => exact absurd rfl (hs .error (by simp [ha]))
      | data c => exact absurd (by simpa [ByteStream.bytes, ha] using h) (by simp [c.nonempty])

theorem read_closed {s : ByteStream} (hs : s.Clean) (n : Nat) (h : s.bytes = []) :
    s.read n = (.closed, s) := by
  unfold read
  split
  · rfl
  · simp [hs.errorFree.arrivals_eq_nil h, hs.closed]

/-- In front of its end a read of an error-free stream returns a non-empty prefix of what is left,
of at most `n` bytes. -/
theorem ErrorFree.read_data {s : ByteStream} (hs : s.ErrorFree) {n : Nat} (hn : 0 < n)
    (h : s.bytes ≠ []) :
    ∃ bs s', s.read n = (.data bs, s') ∧ bs ≠ [] ∧ bs.length ≤ n ∧
      s.bytes = bs ++ s'.bytes ∧ s'.ErrorFree ∧ s'.ending = s.ending := by
  obtain ⟨arrivals, ending⟩ := s
  cases arrivals with
  | nil => exact absurd rfl h
  | cons a rest =>
      cases a with
      | error => exact absurd rfl (hs .error (by simp))
      | data c =>
          have hrest : ∀ a ∈ rest, a ≠ .error := fun a ha => hs a (by simp [ha])
          by_cases hc : n < c.bytes.length
          · refine ⟨c.bytes.take n, ⟨.data (c.drop n hc) :: rest, ending⟩, ?_, ?_, ?_, ?_, ?_, rfl⟩
            · simp [read, hc, show n ≠ 0 by omega]
            · simp [c.nonempty, show n ≠ 0 by omega]
            · exact List.length_take_le n c.bytes
            · simp [ByteStream.bytes, Chunk.drop, ← List.append_assoc]
            · intro a ha
              rcases List.mem_cons.mp ha with rfl | ha
              · simp
              · exact hrest a ha
          · refine ⟨c.bytes, ⟨rest, ending⟩, ?_, c.nonempty, by omega, ?_, hrest, rfl⟩
            · simp [read, hc, show n ≠ 0 by omega]
            · simp [ByteStream.bytes]

theorem read_data {s : ByteStream} (hs : s.Clean) {n : Nat} (hn : 0 < n) (h : s.bytes ≠ []) :
    ∃ bs s', s.read n = (.data bs, s') ∧ bs ≠ [] ∧ bs.length ≤ n ∧
      s.bytes = bs ++ s'.bytes ∧ s'.Clean := by
  obtain ⟨bs, s', hread, hne, hle, hbytes, hfree, hending⟩ := hs.errorFree.read_data hn h
  exact ⟨bs, s', hread, hne, hle, hbytes, hfree, hending.trans hs.closed⟩

theorem readNull_closed {s : ByteStream} (hs : s.Clean) (n : Nat) (h : s.bytes = []) :
    s.readNull n = (.closed, s) := by
  simp only [readNull, read_closed hs n h]

/-- Bytes that are there fail a read with a null buffer and stay. -/
theorem readNull_error {s : ByteStream} (hs : s.Clean) {n : Nat} (hn : 0 < n) (h : s.bytes ≠ []) :
    s.readNull n = (.error, s) := by
  obtain ⟨bs, s', hread, -⟩ := read_data hs hn h
  simp only [readNull, hread]

/-- The next arrivals are chunks whose bytes begin with `bytes`, whatever comes behind them. -/
def Delivers (s : ByteStream) (bytes : Bytes) : Prop :=
  ∃ (chunks : List Chunk) (later : List Arrival),
    s.arrivals = chunks.map .data ++ later ∧ bytes <+: chunks.flatMap Chunk.bytes

theorem ofBytes_delivers (bytes : Bytes) : (ofBytes bytes).Delivers bytes := by
  refine ⟨bytes.map fun b => ⟨[b], by simp, by simp [maxTransfer]⟩, [], ?_, ?_⟩
  · simp [ofBytes]
  · simp [List.flatMap_map]

/-- An error-free stream delivers all of its bytes. -/
theorem ErrorFree.delivers {s : ByteStream} (hs : s.ErrorFree) : s.Delivers s.bytes := by
  obtain ⟨arrivals, ending⟩ := s
  have hchunks : ∀ arrivals : List Arrival, (∀ a ∈ arrivals, a ≠ .error) →
      ∃ chunks : List Chunk, arrivals = chunks.map .data := by
    intro arrivals h
    induction arrivals with
    | nil => exact ⟨[], rfl⟩
    | cons a rest ih =>
        cases a with
        | error => exact absurd rfl (h .error (by simp))
        | data c =>
            obtain ⟨chunks, rfl⟩ := ih fun a ha => h a (by simp [ha])
            exact ⟨c :: chunks, rfl⟩
  obtain ⟨chunks, rfl⟩ := hchunks arrivals hs
  exact ⟨chunks, [], by simp, by simp [ByteStream.bytes, List.flatMap_map]⟩

theorem Delivers.isPrefix {s : ByteStream} {bytes : Bytes} (h : s.Delivers bytes) :
    bytes <+: s.bytes := by
  obtain ⟨chunks, later, harrivals, hbegins⟩ := h
  refine hbegins.trans ?_
  simp [ByteStream.bytes, harrivals, List.flatMap_map]

/-- A read inside the delivered bytes returns a non-empty piece of their front. -/
theorem read_delivers {s : ByteStream} {bytes : Bytes} (h : s.Delivers bytes) {n : Nat} (hn : 0 < n)
    (hle : n ≤ bytes.length) :
    ∃ bs s', s.read n = (.data bs, s') ∧ 0 < bs.length ∧ bs.length ≤ n ∧
      bs = bytes.take bs.length ∧ s'.Delivers (bytes.drop bs.length) ∧
      s.bytes = bs ++ s'.bytes := by
  obtain ⟨chunks, later, harrivals, hbegins⟩ := h
  obtain ⟨arrivals, ending⟩ := s
  cases chunks with
  | nil =>
      have hnil : bytes = [] := by simpa using hbegins
      rw [hnil] at hle
      simp only [List.length_nil] at hle
      omega
  | cons c chunks =>
      obtain rfl : arrivals = .data c :: (chunks.map .data ++ later) := by simpa using harrivals
      rw [List.flatMap_cons] at hbegins
      have hpos : 0 < c.bytes.length := List.length_pos_iff.mpr c.nonempty
      have hdrop : ∀ k, k ≤ bytes.length → k ≤ c.bytes.length →
          bytes.drop k <+: c.bytes.drop k ++ chunks.flatMap Chunk.bytes := by
        intro k hk hkc
        obtain ⟨rest, hrest⟩ := hbegins
        refine ⟨rest, ?_⟩
        rw [← List.drop_append_of_le_length hk, hrest, List.drop_append_of_le_length hkc]
      have htake : ∀ k, k ≤ bytes.length → k ≤ c.bytes.length → c.bytes.take k = bytes.take k := by
        intro k hk hkc
        rw [List.prefix_iff_eq_take.mp hbegins, List.take_take, Nat.min_eq_left hk,
          List.take_append_of_le_length hkc]
      by_cases hc : n < c.bytes.length
      · have hlen : (c.bytes.take n).length = n := by rw [List.length_take]; omega
        refine ⟨c.bytes.take n, ⟨.data (c.drop n hc) :: (chunks.map .data ++ later), ending⟩, ?_, ?_,
          ?_, ?_, ⟨c.drop n hc :: chunks, later, rfl, ?_⟩, ?_⟩
        · simp [read, hc, show n ≠ 0 by omega]
        · omega
        · omega
        · rw [hlen]
          exact htake n hle (by omega)
        · rw [hlen]
          exact hdrop n hle (by omega)
        · simp [ByteStream.bytes, Chunk.drop, ← List.append_assoc]
      · refine ⟨c.bytes, ⟨chunks.map .data ++ later, ending⟩, ?_, hpos, by omega, ?_,
          ⟨chunks, later, rfl, ?_⟩, ?_⟩
        · simp [read, hc, show n ≠ 0 by omega]
        · simpa using htake c.bytes.length (by omega) (Nat.le_refl _)
        · simpa using hdrop c.bytes.length (by omega) (Nat.le_refl _)
        · simp [ByteStream.bytes]

end ByteStream

end Foundation
