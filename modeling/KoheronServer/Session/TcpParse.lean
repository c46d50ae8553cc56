import KoheronServer.Session.Execute
import KoheronServer.Session.TcpReceive

/-!
# Parsing over TCP

What the generated parsers do on a clean stream, pack by pack: a pack whose bytes
are all there is recovered, and one that the end of the stream cuts off is taken
with a result of 0, which no parser rejects.
-/

namespace KoheronServer.Session.Tcp

open Foundation Wire

/-- The byte count of the argument is negative once `rcv_n_bytes` returns it. -/
def Overlong (a : Arg) : Prop := 2 ^ 31 ≤ a.contents.length % 2 ^ 32

theorem not_overlong_of_lt {a : Arg} (h : a.contents.length < 2 ^ 31) : ¬ Overlong a := by
  unfold Overlong
  omega

theorem not_overlong_scalar (s : Scalar) : ¬ Overlong s.toArg := by
  simp [Overlong, Scalar.toArg, Arg.contents]

/-! ## One pack -/

/-- A receive of a pack whose arguments `seg` are on the stream with all their bytes. -/
structure ReceivesWhole (result : Except Abort (Received ByteStream)) (seg : List Arg)
    (rest : Bytes) : Prop where
  ok : ∃ ret args session, result = .ok ⟨ret, args, session⟩ ∧ (ret < 0 ↔ ∃ a ∈ seg, Overlong a) ∧
    ((∀ a ∈ seg, a.contents.length < 2 ^ 32) → args = seg) ∧ session.bytes = rest ∧ session.Clean

theorem prefix_containerWire (slot : Slot) (bytes rest : Bytes) :
    prefixValue slot (Arg.containerWire bytes ++ rest) = bytes.length % 2 ^ 32 ∧
      (Arg.containerWire bytes ++ rest).drop 4 = bytes.take (bytes.length % 2 ^ 32) ++ rest := by
  constructor
  · rw [Arg.containerWire, List.append_assoc, prefixValue_append, BitVec.toNat_ofNat]
  · rw [Arg.containerWire, List.append_assoc, List.drop_left' (by simp [appendUint32])]

theorem deserializePack_whole {ts : List ScalarType} (slot : Slot) {s : ByteStream} (hs : s.Clean)
    {t : List Scalar} (htypes : t.map Scalar.type = ts)
    (hfit : requiredBufferSize ts ≤ cmdPayloadBufferLen) {rest : Bytes}
    (hbytes : s.bytes = tupleWire t ++ rest) :
    ReceivesWhole (.ok (deserializePack ts slot s)) (t.map Scalar.toArg) rest := by
  subst htypes
  have hlen := tupleWire_length t
  obtain ⟨session, hresult, hrest, hclean⟩ := (deserializePack_clean (t.map Scalar.type) slot hs).ok
  rw [hbytes, List.drop_left' hlen] at hrest
  rw [hbytes, List.take_left' hlen] at hresult
  have hload : (slot.raw.store 0 (tupleWire t)).load 0 (requiredBufferSize (t.map Scalar.type)) =
      tupleWire t := by
    rw [← hlen]
    exact Memory.load_store_self _ _ _
  rw [deserialize_of_load t hload] at hresult
  refine ⟨_, _, session, hresult, ?_, fun _ => rfl, hrest, hclean⟩
  have hpos : ¬ rcvRet (requiredBufferSize (t.map Scalar.type)) (tupleWire t ++ rest) < 0 := by
    have hle : requiredBufferSize (t.map Scalar.type) ≤ (tupleWire t ++ rest).length := by
      rw [List.length_append, hlen]
      exact Nat.le_add_right _ _
    rw [rcvRet, if_pos hle, toInt_of_lt (Nat.lt_of_le_of_lt hfit (by decide))]
    omega
  constructor
  · intro h
    exact absurd h hpos
  · rintro ⟨a, ha, hover⟩
    obtain ⟨sc, _, rfl⟩ := List.mem_map.mp ha
    exact absurd hover (not_overlong_scalar sc)

theorem recvArray_whole (t : ScalarType) (n : Nat) (bytes : Bytes)
    (size : bytes.length = n * t.sizeOf)
    (slot : Slot) {s : ByteStream} (hs : s.Clean) {rest : Bytes} (hbytes : s.bytes = bytes ++ rest)
    (hempty : n = 0 → rest = []) :
    ReceivesWhole (.ok (recvArray t n slot s)) [.array t n bytes size] rest := by
  obtain ⟨hsize, session, hresult, hrest, hclean⟩ := recvArray_clean t n slot hs (by
    rintro rfl
    have hnil : bytes = [] := List.eq_nil_of_length_eq_zero (by simpa using size)
    rw [hbytes, hnil, hempty rfl]
    rfl)
  rw [hbytes, List.drop_left' size] at hrest
  refine ⟨_, _, session, hresult, ?_, ?_, hrest, hclean⟩
  · rw [hbytes, rcvRet, if_pos (by simp [← size]), toInt_neg_iff, ← size]
    simp [Overlong, Arg.contents]
  · intro _
    have hfill : refill slot.raw (n * t.sizeOf) bytes = bytes := by
      rw [← size]
      exact refill_all slot.raw bytes
    simp only [hbytes, List.take_left' size, hfill]

theorem recvVector_whole (t : ScalarType) (bytes : Bytes) (whole : t.sizeOf ∣ bytes.length)
    (slot : Slot) {s : ByteStream} (hs : s.Clean) {rest : Bytes}
    (hbytes : s.bytes = Arg.containerWire bytes ++ rest) :
    ReceivesWhole (recvVector t slot s) [.vector t bytes whole] rest := by
  obtain ⟨hbegins, hdata⟩ := prefix_containerWire slot bytes rest
  have hdvd : t.sizeOf ∣ bytes.length % 2 ^ 32 :=
    (Nat.dvd_mod_iff t.sizeOf_dvd).mpr whole
  have hle := Nat.mod_le bytes.length (2 ^ 32)
  have hlen : (bytes.take (bytes.length % 2 ^ 32)).length = bytes.length % 2 ^ 32 := by
    rw [List.length_take, Nat.min_eq_left hle]
  obtain ⟨hsize, session, hresult, hrest, hclean⟩ := recvVector_clean t slot hs
  simp only [hbytes, hbegins, hdata, Nat.div_mul_cancel hdvd, List.drop_left' hlen,
    List.take_left' hlen] at hresult hrest
  refine ⟨_, _, session, hresult, ?_, ?_, hrest, hclean⟩
  · have hroom : bytes.length % 2 ^ 32 ≤
        (bytes.take (bytes.length % 2 ^ 32) ++ rest).length := by
      rw [List.length_append, hlen]
      exact Nat.le_add_right _ _
    rw [rcvRet, if_pos hroom, toInt_neg_iff, Nat.mod_mod]
    simp [Overlong, Arg.contents]
  · intro hall
    have hlt : bytes.length < 2 ^ 32 := hall (.vector t bytes whole) (by simp)
    simp only [Nat.mod_eq_of_lt hlt, List.take_length, refill_all]

theorem recvString_whole (bytes : Bytes) (slot : Slot) {s : ByteStream} (hs : s.Clean)
    {rest : Bytes}
    (hbytes : s.bytes = Arg.containerWire bytes ++ rest) :
    ReceivesWhole (.ok (recvString slot s)) [.string bytes] rest := by
  obtain ⟨hbegins, hdata⟩ := prefix_containerWire slot bytes rest
  have hle := Nat.mod_le bytes.length (2 ^ 32)
  have hlen : (bytes.take (bytes.length % 2 ^ 32)).length = bytes.length % 2 ^ 32 := by
    rw [List.length_take, Nat.min_eq_left hle]
  obtain ⟨session, hresult, hrest, hclean⟩ := (recvString_clean slot hs).ok
  simp only [hbytes, hbegins, hdata, List.drop_left' hlen, List.take_left' hlen] at hresult hrest
  refine ⟨_, _, session, hresult, ?_, ?_, hrest, hclean⟩
  · have hroom : bytes.length % 2 ^ 32 ≤
        (bytes.take (bytes.length % 2 ^ 32) ++ rest).length := by
      rw [List.length_append, hlen]
      exact Nat.le_add_right _ _
    rw [rcvRet, if_pos hroom, toInt_neg_iff, Nat.mod_mod]
    simp [Overlong, Arg.contents]
  · intro hall
    have hlt : bytes.length < 2 ^ 32 := hall (.string bytes) (by simp)
    simp only [Nat.mod_eq_of_lt hlt, List.take_length, refill_all]

theorem receive_whole {p : Pack} (hfit : p.Fits) (slot : Slot) {s : ByteStream} (hs : s.Clean)
    {seg : List Arg} {rest : Bytes} (htypes : seg.map Arg.type = p.types)
    (hbytes : s.bytes = argsWire seg ++ rest) (hlast : EmptyArraysLast seg rest) :
    ReceivesWhole (session.receive p slot s) seg rest := by
  cases p with
  | scalar ts =>
      obtain ⟨t, rfl, ht⟩ := exists_tuple htypes
      rw [argsWire_map_toArg] at hbytes
      exact deserializePack_whole slot hs ht hfit hbytes
  | array t n =>
      obtain ⟨a, rfl, ha⟩ := List.map_eq_singleton_iff.mp htypes
      cases a with
      | array t' n' bytes size =>
          simp only [Arg.type, ArgType.array.injEq] at ha
          obtain ⟨rfl, rfl⟩ := ha
          refine recvArray_whole t' n' bytes size slot hs (by simpa [Arg.wire] using hbytes) ?_
          rintro rfl
          exact hlast [] _ [] rfl ⟨t', rfl⟩
      | scalar | vector | string => cases ha
  | vector t =>
      obtain ⟨a, rfl, ha⟩ := List.map_eq_singleton_iff.mp htypes
      cases a with
      | vector t' bytes whole =>
          obtain rfl : t' = t := by simpa [Arg.type] using ha
          exact recvVector_whole t' bytes whole slot hs (by simpa [Arg.wire] using hbytes)
      | scalar | array | string => cases ha
  | string =>
      obtain ⟨a, rfl, ha⟩ := List.map_eq_singleton_iff.mp htypes
      cases a with
      | string bytes => exact recvString_whole bytes slot hs (by simpa [Arg.wire] using hbytes)
      | scalar | array | vector => cases ha

/-- A receive that meets the end of the stream: whatever it returns as arguments, its
result is 0. -/
structure ReceivesShort (result : Except Abort (Received ByteStream)) : Prop where
  ok : ∃ args session, result = .ok ⟨0, args, session⟩ ∧ session.bytes = [] ∧ session.Clean

theorem rcvRet_of_lt {n : Nat} {bytes : Bytes} (h : bytes.length < n) : rcvRet n bytes = 0 := by
  rw [rcvRet, if_neg (by omega)]

theorem ReceivedClean.short {result : Except Abort (Received ByteStream)} {ret : Int}
    {args : List Arg} {rest : Bytes} (h : ReceivedClean result ret args rest) (hret : ret = 0)
    (hrest : rest = []) : ReceivesShort result := by
  obtain ⟨session, hresult, hbytes, hclean⟩ := h.ok
  exact ⟨args, session, by rw [hresult, hret], by rw [hbytes, hrest], hclean⟩

theorem receive_eof (p : Pack) (slot : Slot) {s : ByteStream} (hs : s.Clean) (hend : s.bytes = []) :
    ReceivesShort (session.receive p slot s) := by
  cases p with
  | scalar ts =>
      exact (deserializePack_clean ts slot hs).short (by rw [hend, rcvRet_nil]) (by simp [hend])
  | array t n =>
      obtain ⟨_, h⟩ := recvArray_clean t n slot hs fun _ => hend
      exact h.short (by rw [hend, rcvRet_nil]) (by simp [hend])
  | vector t =>
      obtain ⟨_, h⟩ := recvVector_clean t slot hs
      exact h.short (by rw [hend, List.drop_nil, rcvRet_nil]) (by simp [hend])
  | string => exact (recvString_clean slot hs).short (by simp [hend]) (by simp [hend])

/-- The bytes of a dynamic container, cut off: the prefix is incomplete or too large. -/
theorem containerWire_cut (slot : Slot) {bytes cut : Bytes} (hcut : cut <+: Arg.containerWire bytes)
    (hlt : cut.length < (Arg.containerWire bytes).length) :
    cut.drop 4 = [] ∨
      prefixValue slot cut = bytes.length % 2 ^ 32 ∧
      (cut.drop 4).length < bytes.length % 2 ^ 32 := by
  by_cases hlen : 4 ≤ cut.length
  · right
    rw [Arg.containerWire_length] at hlt
    refine ⟨?_, by rw [List.length_drop]; omega⟩
    have hwhole := (prefix_containerWire slot bytes []).1
    rw [List.append_nil] at hwhole
    rw [← hwhole, prefixValue_eq slot hlen, prefixValue_eq slot (by simp)]
    obtain ⟨rest, hrest⟩ := hcut
    rw [← hrest, List.take_append_of_le_length hlen]
  · left
    exact List.drop_eq_nil_of_le (by omega)

theorem receive_short {p : Pack} (slot : Slot) {s : ByteStream} (hs : s.Clean) {seg : List Arg}
    (htypes : seg.map Arg.type = p.types) (hcut : s.bytes <+: argsWire seg)
    (hlt : s.bytes.length < (argsWire seg).length) : ReceivesShort (session.receive p slot s) := by
  -- A container whose count is known but not reached, or whose count comes from the stack.
  have hcontainer : ∀ bytes, argsWire seg = Arg.containerWire bytes → ∀ m,
      (prefixValue slot s.bytes = bytes.length % 2 ^ 32 → m = bytes.length % 2 ^ 32) →
      rcvRet m (s.bytes.drop 4) = 0 ∧ (s.bytes.drop 4).drop m = [] := by
    intro bytes hwire m hm
    rw [hwire] at hcut hlt
    rcases containerWire_cut slot hcut hlt with hnil | ⟨hvalue, hless⟩
    · rw [hnil]
      exact ⟨rcvRet_nil m, List.drop_nil⟩
    · rw [hm hvalue]
      exact ⟨rcvRet_of_lt hless, List.drop_eq_nil_of_le (by omega)⟩
  cases p with
  | scalar ts =>
      obtain ⟨t, rfl, rfl⟩ := exists_tuple htypes
      rw [argsWire_map_toArg, tupleWire_length] at hlt
      exact (deserializePack_clean _ slot hs).short (rcvRet_of_lt hlt)
        (List.drop_eq_nil_of_le (by omega))
  | array t n =>
      obtain ⟨a, rfl, ha⟩ := List.map_eq_singleton_iff.mp htypes
      cases a with
      | array t' n' bytes size =>
          simp only [Arg.type, ArgType.array.injEq] at ha
          obtain ⟨rfl, rfl⟩ := ha
          rw [argsWire_cons, argsWire_nil, List.append_nil, Arg.wire, size] at hlt
          obtain ⟨_, h⟩ := recvArray_clean t' n' slot hs (by rintro rfl; omega)
          exact h.short (rcvRet_of_lt hlt) (List.drop_eq_nil_of_le (by omega))
      | scalar | vector | string => cases ha
  | vector t =>
      obtain ⟨a, rfl, ha⟩ := List.map_eq_singleton_iff.mp htypes
      cases a with
      | vector t' bytes whole =>
          obtain rfl : t' = t := by simpa [Arg.type] using ha
          obtain ⟨_, h⟩ := recvVector_clean t' slot hs
          have hdvd : t'.sizeOf ∣ bytes.length % 2 ^ 32 := (Nat.dvd_mod_iff t'.sizeOf_dvd).mpr whole
          obtain ⟨hret, hrest⟩ := hcontainer bytes (by simp [Arg.wire])
            (prefixValue slot s.bytes / t'.sizeOf * t'.sizeOf)
            (fun hvalue => by rw [hvalue]; exact Nat.div_mul_cancel hdvd)
          exact h.short hret hrest
      | scalar | array | string => cases ha
  | string =>
      obtain ⟨a, rfl, ha⟩ := List.map_eq_singleton_iff.mp htypes
      cases a with
      | string bytes =>
          obtain ⟨hret, hrest⟩ := hcontainer bytes (by simp [Arg.wire]) _ id
          exact (recvString_clean slot hs).short hret hrest
      | scalar | array | vector => cases ha

/-! ## A whole parser -/

/-- The arguments of the first pack, and the others. -/
theorem split_packs {p : Pack} {packs : List Pack} {args : List Arg}
    (h : args.map Arg.type = (p :: packs).flatMap Pack.types) :
    ∃ seg args', args = seg ++ args' ∧ seg.map Arg.type = p.types ∧
      args'.map Arg.type = packs.flatMap Pack.types := by
  rw [List.flatMap_cons] at h
  exact List.map_eq_append_iff.mp h

theorem segment_cases {p : Pack} {seg : List Arg} (htypes : seg.map Arg.type = p.types) :
    (∀ a ∈ seg, ¬ a.IsEmptyArray) ∨ ∃ t a, seg = [a] ∧ a.IsEmptyArray ∧ p = .array t 0 := by
  cases p with
  | scalar ts =>
      left
      obtain ⟨t, rfl, rfl⟩ := exists_tuple htypes
      rintro a ha ⟨_, hempty⟩
      obtain ⟨sc, _, rfl⟩ := List.mem_map.mp ha
      cases hempty
  | array t n =>
      obtain ⟨a, rfl, ha⟩ := List.map_eq_singleton_iff.mp htypes
      cases n with
      | zero => exact .inr ⟨t, a, rfl, ⟨t, ha⟩, rfl⟩
      | succ n => exact .inl (by simp [Arg.IsEmptyArray, ha])
  | vector t =>
      obtain ⟨a, rfl, ha⟩ := List.map_eq_singleton_iff.mp htypes
      exact .inl (by simp [Arg.IsEmptyArray, ha])
  | string =>
      obtain ⟨a, rfl, ha⟩ := List.map_eq_singleton_iff.mp htypes
      exact .inl (by simp [Arg.IsEmptyArray, ha])

theorem emptyArray_wire {a : Arg} (h : a.IsEmptyArray) : a.wire = [] := a.wire_eq_nil_iff.mpr h

/-- The receive of an empty array with a byte of the stream behind it. -/
theorem receive_overrun (t : ScalarType) (slot : Slot) {s : ByteStream} (hs : s.Clean)
    (h : s.bytes ≠ []) :
    ∃ r, session.receive (.array t 0) slot s = .ok r ∧ r.ret < 0 ∧ r.session = s := by
  obtain ⟨hret, hsession⟩ := recvArray_empty_fails t slot hs h
  refine ⟨_, rfl, ?_, hsession⟩
  rw [hret]
  decide

/-- On the bytes of its arguments a parser calls the device function with these arguments
and leaves what is behind them; with an empty array that is not the last thing on the stream it
rejects the command. -/
theorem parsePacks_whole (slots : Nat → Slot) {packs : List Pack} (hfit : ∀ p ∈ packs, p.Fits)
    {args : List Arg} {rest : Bytes} (idx : Nat) {s : ByteStream} (hs : s.Clean)
    (htypes : args.map Arg.type = packs.flatMap Pack.types)
    (hsize : ∀ a ∈ args, a.contents.length < 2 ^ 31) (hbytes : s.bytes = argsWire args ++ rest) :
    (EmptyArraysLast args rest → ∃ s', parsePacks session slots idx packs s = .ok (.called args, s') ∧
        s'.bytes = rest ∧ s'.Clean) ∧
      (¬ EmptyArraysLast args rest →
        ∃ s', parsePacks session slots idx packs s = .ok (.rejected, s')) := by
  induction packs generalizing args idx s with
  | nil =>
      obtain rfl : args = [] := by simpa using htypes
      refine ⟨fun _ => ⟨s, rfl, by simpa using hbytes, hs⟩, fun h => ?_⟩
      exact absurd (emptyArraysLast_nil rest) h
  | cons p packs ih =>
      obtain ⟨seg, args', rfl, hseg, hargs'⟩ := split_packs htypes
      have hfits : p.Fits ∧ ∀ p ∈ packs, p.Fits := by simpa using hfit
      have hsizes : (∀ a ∈ seg, a.contents.length < 2 ^ 31) ∧
          ∀ a ∈ args', a.contents.length < 2 ^ 31 := by
        constructor <;> intro a ha <;> exact hsize a (by simp [ha])
      rw [argsWire_append, List.append_assoc] at hbytes
      -- Where the first pack is not overrun, the others decide.
      have hgo : EmptyArraysLast seg (argsWire args' ++ rest) →
          (EmptyArraysLast args' rest →
            ∃ s', parsePacks session slots idx (p :: packs) s = .ok (.called (seg ++ args'), s') ∧
              s'.bytes = rest ∧ s'.Clean) ∧
          (¬ EmptyArraysLast args' rest →
            ∃ s', parsePacks session slots idx (p :: packs) s = .ok (.rejected, s')) := by
        intro hlast
        obtain ⟨ret, got, s₁, hreceive, hret, hgot, hbytes₁, hs₁⟩ :=
          (receive_whole hfits.1 (slots idx) hs hseg hbytes hlast).ok
        have hpos : ¬ ret < 0 := by
          rw [hret]
          rintro ⟨a, ha, hover⟩
          exact not_overlong_of_lt (hsizes.1 a ha) hover
        obtain rfl : got = seg := hgot fun a ha => Nat.lt_trans (hsizes.1 a ha) (by decide)
        obtain ⟨hok, hreject⟩ := ih hfits.2 (idx + 1) hs₁ hargs' hsizes.2 hbytes₁
        have hcontinues := parsePacks_received packs hreceive hpos
        constructor
        · intro h
          obtain ⟨s', hparse, hrest⟩ := hok h
          exact ⟨s', hcontinues.called args' s' hparse, hrest⟩
        · intro h
          exact hcontinues.rejected_iff.mpr (hreject h)
      rcases segment_cases hseg with hnone | ⟨t, a, rfl, ha, rfl⟩
      · rw [emptyArraysLast_append rest hnone]
        apply hgo
        rintro pre a post rfl ha
        exact absurd ha (hnone a (by simp))
      · rw [List.singleton_append, emptyArraysLast_cons]
        by_cases hend : argsWire args' ++ rest = []
        · simp only [hend, implies_true, true_and]
          apply hgo
          rw [emptyArraysLast_cons]
          exact ⟨fun _ => by simpa using hend, emptyArraysLast_nil _⟩
        · have hbehind : s.bytes ≠ [] := by
            rw [hbytes]
            simpa [emptyArray_wire ha] using hend
          obtain ⟨r, hr, hret, -⟩ := receive_overrun t (slots idx) hs hbehind
          constructor
          · intro h
            exact absurd (h.1 ha) hend
          · intro _
            exact ⟨r.session, parsePacks_rejected packs hr hret⟩

/-- The arguments at which a parser stops: an empty array, as far as a byte is behind it, and a
byte count that is negative as an `int`. -/
def Stops (a : Arg) : Prop := a.IsEmptyArray ∨ Overlong a

instance (a : Arg) : Decidable (Stops a) :=
  inferInstanceAs (Decidable (a.IsEmptyArray ∨ 2 ^ 31 ≤ a.contents.length % 2 ^ 32))

/-- The arguments behind the first one at which the parser stops. -/
def behindStop : List Arg → List Arg
  | [] => []
  | a :: args => if Stops a then args else behindStop args

theorem behindStop_append {xs : List Arg} (h : ∀ a ∈ xs, ¬ Stops a) (ys : List Arg) :
    behindStop (xs ++ ys) = behindStop ys := by
  induction xs with
  | nil => rfl
  | cons a xs ih =>
      have hboth : ¬ Stops a ∧ ∀ b ∈ xs, ¬ Stops b := by simpa using h
      rw [List.cons_append, behindStop, if_neg hboth.1, ih hboth.2]

theorem argsWire_behindStop_nil {args : List Arg} (h : argsWire args = []) :
    argsWire (behindStop args) = [] := by
  induction args with
  | nil => rfl
  | cons a args ih =>
      have hrest : argsWire args = [] := (List.append_eq_nil_iff.mp h).2
      unfold behindStop
      split
      · exact hrest
      · exact ih hrest

theorem parsePacks_eof (slots : Nat → Slot) (packs : List Pack) (idx : Nat) {s : ByteStream}
    (hs : s.Clean) (hend : s.bytes = []) :
    ∃ args s', parsePacks session slots idx packs s = .ok (.called args, s') := by
  induction packs generalizing idx s with
  | nil => exact ⟨[], s, rfl⟩
  | cons p packs ih =>
      obtain ⟨got, s₁, hreceive, hend₁, hs₁⟩ := (receive_eof p (slots idx) hs hend).ok
      obtain ⟨args, s', hparse⟩ := ih (idx + 1) hs₁ hend₁
      have hcontinues := parsePacks_received packs hreceive (Int.lt_irrefl 0)
      exact ⟨got ++ args, s', hcontinues.called args s' hparse⟩

theorem split_append {xs ys pre post : List Arg} {a : Arg} (h : xs ++ ys = pre ++ a :: post) :
    (∃ post', xs = pre ++ a :: post') ∨ ∃ pre', pre = xs ++ pre' ∧ ys = pre' ++ a :: post := by
  rcases List.append_eq_append_iff.mp h with ⟨as, hpre, hys⟩ | ⟨bs, hxs, hcons⟩
  · exact .inr ⟨as, hpre, hys⟩
  · rcases List.cons_eq_append_iff.mp hcons with ⟨rfl, hys⟩ | ⟨post', rfl, hpost⟩
    · exact .inr ⟨[], by simpa using hxs.symm, by simpa using hys⟩
    · exact .inl ⟨post', hxs⟩

theorem segment_overlong {p : Pack} {seg : List Arg} (htypes : seg.map Arg.type = p.types) {a : Arg}
    (ha : a ∈ seg) (hover : Overlong a) : seg = [a] := by
  cases p with
  | scalar ts =>
      obtain ⟨t, rfl, rfl⟩ := exists_tuple htypes
      obtain ⟨sc, _, rfl⟩ := List.mem_map.mp ha
      exact absurd hover (not_overlong_scalar sc)
  | array | vector | string =>
      obtain ⟨b, rfl, _⟩ := List.map_eq_singleton_iff.mp htypes
      rw [List.mem_singleton.mp ha]

theorem not_overlong_emptyArray {a : Arg} (ha : a.IsEmptyArray) : ¬ Overlong a := by
  obtain ⟨t, ht⟩ := ha
  cases a with
  | array t' n bytes size =>
      simp only [Arg.type, ArgType.array.injEq] at ht
      simp [Overlong, Arg.contents, size, ht.2]
  | scalar | vector | string => cases ht

/-- A parser on the bytes of its arguments takes them up to the first one at which it stops. -/
theorem parsePacks_leaves (slots : Nat → Slot) {packs : List Pack} (hfit : ∀ p ∈ packs, p.Fits)
    {args : List Arg} {rest : Bytes} (idx : Nat) {s : ByteStream} (hs : s.Clean)
    (htypes : args.map Arg.type = packs.flatMap Pack.types)
    (hbytes : s.bytes = argsWire args ++ rest) :
    ∃ parsed s', parsePacks session slots idx packs s = .ok (parsed, s') ∧
      s'.bytes = argsWire (behindStop args) ++ rest ∧ s'.Clean := by
  induction packs generalizing args idx s with
  | nil =>
      obtain rfl : args = [] := by simpa using htypes
      exact ⟨.called [], s, rfl, hbytes, hs⟩
  | cons p packs ih =>
      obtain ⟨seg, args', rfl, hseg, hargs'⟩ := split_packs htypes
      have hfits : p.Fits ∧ ∀ p ∈ packs, p.Fits := by simpa using hfit
      rw [argsWire_append, List.append_assoc] at hbytes
      -- A pack that is received leaves the others to the rest of the parser.
      have hnext : ∀ r, session.receive p (slots idx) s = .ok r → ¬ r.ret < 0 →
          r.session.bytes = argsWire args' ++ rest → r.session.Clean →
          ∃ parsed s', parsePacks session slots idx (p :: packs) s = .ok (parsed, s') ∧
            s'.bytes = argsWire (behindStop args') ++ rest ∧ s'.Clean := by
        intro r hr hret hbytes₁ hs₁
        have hcontinues := parsePacks_received packs hr hret
        obtain ⟨parsed, s', hparse, hrest⟩ := ih hfits.2 (idx + 1) hs₁ hargs' hbytes₁
        cases parsed with
        | rejected => exact ⟨_, s', hcontinues.rejected s' hparse, hrest⟩
        | called args => exact ⟨_, s', hcontinues.called args s' hparse, hrest⟩
      rcases segment_cases hseg with hnone | ⟨t, a, rfl, ha, rfl⟩
      · have hlast : EmptyArraysLast seg (argsWire args' ++ rest) := by
          rintro pre a post rfl ha
          exact absurd ha (hnone a (by simp))
        obtain ⟨ret, got, s₁, hreceive, hret, _, hbytes₁, hs₁⟩ :=
          (receive_whole hfits.1 (slots idx) hs hseg hbytes hlast).ok
        by_cases hover : ∃ a ∈ seg, Overlong a
        · have hneg : ret < 0 := hret.mpr hover
          obtain ⟨a, ha, hover⟩ := hover
          obtain rfl := segment_overlong hseg ha hover
          refine ⟨.rejected, s₁, parsePacks_rejected packs hreceive hneg, ?_, hs₁⟩
          rw [List.singleton_append, behindStop, if_pos (.inr hover), hbytes₁]
        · have hstops : ∀ a ∈ seg, ¬ Stops a := by
            intro a ha hstops
            rcases hstops with hempty | hlong
            · exact hnone a ha hempty
            · exact hover ⟨a, ha, hlong⟩
          rw [behindStop_append hstops]
          exact hnext ⟨ret, got, s₁⟩ hreceive (fun h => hover (hret.mp h)) hbytes₁ hs₁
      · rw [List.singleton_append, behindStop, if_pos (.inl ha)]
        rw [argsWire_cons, argsWire_nil, emptyArray_wire ha, List.nil_append,
          List.nil_append] at hbytes
        by_cases hend : s.bytes = []
        · obtain ⟨got, s₁, hreceive, hend₁, hs₁⟩ :=
            (receive_eof (.array t 0) (slots idx) hs hend).ok
          have hnil := List.append_eq_nil_iff.mp (hbytes.symm.trans hend)
          obtain ⟨parsed, s', hparse, hrest, hs'⟩ :=
            hnext _ hreceive (Int.lt_irrefl 0) (by rw [hend₁, ← hbytes, hend]) hs₁
          refine ⟨parsed, s', hparse, ?_, hs'⟩
          rw [hrest, argsWire_behindStop_nil hnil.1, hnil.1]
        · obtain ⟨r, hr, hret, hsession⟩ := receive_overrun t (slots idx) hs hend
          exact ⟨.rejected, r.session, parsePacks_rejected packs hr hret, by rw [hsession, hbytes],
            hsession ▸ hs⟩

/-- With `len` bytes of the arguments on the stream the parser gets to `a`, behind `pre`, and stops
there: `a` came whole and its byte count is negative as an `int`, or it is an empty array with a
byte behind it. -/
def StopsWithin (len : Nat) (pre : List Arg) (a : Arg) : Prop :=
  (2 ^ 31 ≤ a.contents.length % 2 ^ 32 ∧ (argsWire (pre ++ [a])).length ≤ len) ∨
    (a.IsEmptyArray ∧ (argsWire pre).length < len)

theorem stopsWithin_append (seg pre : List Arg) (a : Arg) (len : Nat) :
    StopsWithin ((argsWire seg).length + len) (seg ++ pre) a ↔ StopsWithin len pre a := by
  simp only [StopsWithin, List.append_assoc, argsWire_append seg,
    @List.length_append _ (argsWire seg),
    Nat.add_le_add_iff_left, Nat.add_lt_add_iff_left]

theorem StopsWithin.stops {len : Nat} {pre : List Arg} {a : Arg} (h : StopsWithin len pre a) :
    Stops a := by
  rcases h with hlong | hempty
  · exact .inr hlong.1
  · exact .inl hempty.1

/-- A stream that ends before the arguments do not stop any. -/
theorem not_stopsWithin_zero (pre : List Arg) (a : Arg) : ¬ StopsWithin 0 pre a := by
  intro h
  rcases h with ⟨hover, hlen⟩ | ⟨_, hlen⟩
  · rw [argsWire_append, argsWire_cons, argsWire_nil, List.append_nil, List.length_append] at hlen
    have hnil : a.wire = [] := List.eq_nil_of_length_eq_zero (by omega)
    exact not_overlong_emptyArray (a.wire_eq_nil_iff.mp hnil) hover
  · omega

/-- A parser on a stream that stops somewhere in the bytes of its arguments rejects exactly
when it gets to an argument at which it stops. -/
theorem parsePacks_cut (slots : Nat → Slot) {packs : List Pack} (hfit : ∀ p ∈ packs, p.Fits)
    {args : List Arg} (idx : Nat) {s : ByteStream} (hs : s.Clean)
    (htypes : args.map Arg.type = packs.flatMap Pack.types) (hcut : s.bytes <+: argsWire args) :
    (∃ s', parsePacks session slots idx packs s = .ok (.rejected, s')) ↔
      ∃ pre a post, args = pre ++ a :: post ∧ StopsWithin s.bytes.length pre a := by
  induction packs generalizing args idx s with
  | nil =>
      obtain rfl : args = [] := by simpa using htypes
      simp [parsePacks]
  | cons p packs ih =>
      obtain ⟨seg, args', rfl, hseg, hargs'⟩ := split_packs htypes
      have hfits : p.Fits ∧ ∀ p ∈ packs, p.Fits := by simpa using hfit
      rw [argsWire_append] at hcut
      by_cases hwhole : (argsWire seg).length ≤ s.bytes.length
      · obtain ⟨left, hleft⟩ := List.prefix_of_prefix_length_le (List.prefix_append _ _) hcut hwhole
        have hcut' : left <+: argsWire args' := by
          rwa [← hleft, List.prefix_append_right_inj] at hcut
        rcases segment_cases hseg with hnone | ⟨t, a, rfl, ha, rfl⟩
        · have hlast : EmptyArraysLast seg left := by
            rintro pre a post rfl ha
            exact absurd ha (hnone a (by simp))
          obtain ⟨ret, got, s₁, hreceive, hret, _, hbytes₁, hs₁⟩ :=
            (receive_whole hfits.1 (slots idx) hs hseg hleft.symm hlast).ok
          by_cases hover : ∃ a ∈ seg, Overlong a
          · have hneg : ret < 0 := hret.mpr hover
            obtain ⟨a, ha, hover⟩ := hover
            obtain rfl := segment_overlong hseg ha hover
            constructor
            · intro _
              exact ⟨[], a, args', rfl, .inl ⟨hover, hwhole⟩⟩
            · intro _
              exact ⟨s₁, parsePacks_rejected packs hreceive hneg⟩
          · have hpos : ¬ ret < 0 := fun h => hover (hret.mp h)
            have hcontinues := parsePacks_received packs hreceive hpos
            have hlen : s.bytes.length = (argsWire seg).length + left.length := by
              rw [← hleft, List.length_append]
            rw [hcontinues.rejected_iff, ih hfits.2 (idx + 1) hs₁ hargs' (by rwa [hbytes₁]), hbytes₁,
              hlen]
            constructor
            · rintro ⟨pre, a, post, rfl, hstop⟩
              exact ⟨seg ++ pre, a, post, by simp, (stopsWithin_append seg pre a _).mpr hstop⟩
            · rintro ⟨pre, a, post, heq, hstop⟩
              rcases split_append heq with ⟨post', rfl⟩ | ⟨pre', rfl, rfl⟩
              · rcases hstop.stops with hempty | hlong
                · exact absurd hempty (hnone a (by simp))
                · exact absurd ⟨a, by simp, hlong⟩ hover
              · exact ⟨pre', a, post, rfl, (stopsWithin_append seg pre' a _).mp hstop⟩
        · -- At an empty array either everything has ended or the receive fails.
          by_cases hend : s.bytes = []
          · obtain ⟨got, s', hparse⟩ := parsePacks_eof slots (.array t 0 :: packs) idx hs hend
            constructor
            · rintro ⟨s'', hreject⟩
              rw [hparse] at hreject
              cases hreject
            · rintro ⟨pre, b, post, _, hstop⟩
              rw [hend] at hstop
              exact absurd hstop (not_stopsWithin_zero pre b)
          · obtain ⟨r, hr, hret, -⟩ := receive_overrun t (slots idx) hs hend
            constructor
            · intro _
              exact ⟨[], a, args', rfl, .inr ⟨ha, List.length_pos_iff.mpr hend⟩⟩
            · intro _
              exact ⟨r.session, parsePacks_rejected packs hr hret⟩
      · have hshort : s.bytes <+: argsWire seg :=
          List.prefix_of_prefix_length_le hcut (List.prefix_append _ _) (by omega)
        obtain ⟨got, s₁, hreceive, hend, hs₁⟩ :=
          (receive_short (slots idx) hs hseg hshort (by omega)).ok
        obtain ⟨more, s', hparse⟩ := parsePacks_eof slots packs (idx + 1) hs₁ hend
        constructor
        · rintro ⟨s'', hreject⟩
          have hcontinues := parsePacks_received packs hreceive (Int.lt_irrefl 0)
          rw [hcontinues.called more s' hparse] at hreject
          cases hreject
        · rintro ⟨pre, a, post, heq, hstop⟩
          rcases split_append heq with ⟨post', hin⟩ | ⟨pre', rfl, rfl⟩
          · rcases hstop with ⟨hlong, hlen⟩ | ⟨hempty, _⟩
            · have hsingle := segment_overlong hseg (a := a) (by simp [hin]) hlong
              rw [hsingle] at hwhole
              rw [argsWire_append, List.length_append] at hlen
              omega
            · rcases segment_cases hseg with hnone | ⟨_, b, rfl, hb, _⟩
              · exact absurd hempty (hnone a (by simp [hin]))
              · rw [argsWire_cons, argsWire_nil, emptyArray_wire hb] at hwhole
                exact absurd (Nat.zero_le _) hwhole
          · unfold StopsWithin at hstop
            rw [List.append_assoc, argsWire_append seg, argsWire_append seg, List.length_append,
              List.length_append] at hstop
            omega

/-! ## Commands cut off by the end of the stream -/

theorem execute_rejected_iff {devices : DeviceTable} {device operation : Nat}
    {arguments : Signature}
    (h : signatureOf devices device operation = some arguments) (slots : Nat → Slot)
    (s : ByteStream) :
    (∃ s', execute session devices slots device operation s = .ok (.rejected, s')) ↔
      ∃ s', executeOp session slots arguments s = .ok (.rejected, s') := by
  rw [execute_known session h]
  cases executeOp session slots arguments s with
  | error e => simp
  | ok result =>
      obtain ⟨parsed, s'⟩ := result
      cases parsed <;> simp [Parsed.outcome]

/-- An operation on a stream that stops in its arguments, or right behind them, is rejected
in two cases only: some container came whole and its byte count is negative as an `int`, or a
byte came behind an array of no elements. -/
theorem cut_arguments_rejected_iff {devices : DeviceTable} {device operation : Nat}
    {args : List Arg}
    (hsig : signatureOf devices device operation = some (args.map Arg.type)) (slots : Nat → Slot)
    {s : ByteStream} (hs : s.Clean) (hcut : s.bytes <+: argsWire args) :
    (∃ s', execute session devices slots device operation s = .ok (.rejected, s')) ↔
      ∃ pre a post, args = pre ++ a :: post ∧ StopsWithin s.bytes.length pre a := by
  rw [execute_rejected_iff hsig]
  exact parsePacks_cut slots (signatureOf_fits hsig) 0 hs (buildArgsPacks_types _).symm hcut

/-- Three of the four bytes of a channel: the operation goes on with a byte of its stack. -/
theorem cut_subscribe_called :
    let s := ByteStream.ofBytes [0, 0, 0]
    s.Clean ∧ s.bytes <+: argsWire [.scalar .uint32 (1 : BitVec 32)] ∧
      s.bytes.length < (argsWire [.scalar .uint32 (1 : BitVec 32)]).length ∧
      ∃ s', execute session [] (fun _ => ⟨fun _ => 2, []⟩) 1 5 s =
        .ok (.called [.scalar .uint32 (2 : BitVec 32)], s') :=
  ⟨ByteStream.ofBytes_clean _, ⟨[1], rfl⟩, by decide, _, rfl⟩

theorem cut_arguments_rejected_iff_subscribe :
    (∃ s', execute session [] (fun _ => ⟨fun _ => 2, []⟩) 1 5 (ByteStream.ofBytes [0, 0, 0]) =
        .ok (.rejected, s')) ↔
      ∃ pre a post, [Arg.scalar .uint32 (1 : BitVec 32)] = pre ++ a :: post ∧
        StopsWithin (ByteStream.ofBytes [0, 0, 0]).bytes.length pre a :=
  cut_arguments_rejected_iff rfl _ (ByteStream.ofBytes_clean _) ⟨[1], rfl⟩

end KoheronServer.Session.Tcp
