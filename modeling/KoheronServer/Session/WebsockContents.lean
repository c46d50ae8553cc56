import KoheronServer.Session.WebsockCursor
import KoheronServer.Websocket.Accept
import KoheronServer.Websocket.Frame

/-!
# What the arguments of a WebSocket command depend on

A `Command` is made anew for every message and its payload buffer is not cleared, so
behind the bytes of the message it holds what was on the stack. The parser is not told
how many bytes have come: an argument that goes beyond them has what is found there.
-/

namespace KoheronServer.Session.Websock

open Foundation Wire

/-- The buffer begins with the received bytes. -/
def BeginsWith (data : Memory) (bytes : Bytes) : Prop :=
  ∀ i < bytes.length, data i = Memory.ofBytes bytes i

theorem beginsWith_of_load {data : Memory} {bytes : Bytes} (h : data.load 0 bytes.length = bytes) :
    BeginsWith data bytes := by
  intro i hi
  have hbyte := Memory.eq_of_load_eq (h.trans (Memory.load_ofBytes bytes).symm) hi
  rwa [Nat.zero_add] at hbyte

theorem beginsWith_store (data : Memory) (bytes : Bytes) : BeginsWith (data.store 0 bytes) bytes :=
  beginsWith_of_load (Memory.load_store_self data 0 bytes)

theorem BeginsWith.store_eq {data : Memory} {bytes : Bytes} (h : BeginsWith data bytes) :
    data.store 0 bytes = data := by
  funext i
  by_cases hi : i < bytes.length
  · rw [h i hi]
    simp [Memory.store, Memory.ofBytes, hi]
  · exact Memory.store_of_ge data bytes (by omega)

theorem ofBytes_behind {bytes : Bytes} {i : Nat} (h : bytes.length ≤ i) :
    Memory.ofBytes bytes i = 0 := by
  unfold Memory.ofBytes
  rw [List.getElem?_eq_none h]
  rfl

/-! ## Packs on different contents -/

theorem declaredLength_eq (payload : Buffer) :
    declaredLength payload = beValue (payload.data.load payload.position 4) := by
  unfold declaredLength
  rw [extractUint32_toNat, Buffer.begin, Memory.load_offset]
  rfl

theorem declaredLength_congr {data data' : Memory} {p : Nat}
    (h : ∀ i, p ≤ i → i < p + 4 → data i = data' i) :
    declaredLength ⟨data, p⟩ = declaredLength ⟨data', p⟩ := by
  rw [declaredLength_eq, declaredLength_eq]
  exact congrArg beValue (Memory.load_congr h)

theorem load_begin_congr {data data' : Memory} {p q n : Nat}
    (h : ∀ i, p ≤ i → i < p + q + n → data i = data' i) :
    (Buffer.begin ⟨data, p + q⟩).load 0 n = (Buffer.begin ⟨data', p + q⟩).load 0 n := by
  simp only [Buffer.begin, Memory.load_offset]
  exact Memory.load_congr fun i hi hi' => h i (by omega) (by omega)

structure SamePack (pack : Pack) (payload payload' : Buffer) : Prop where
  overflows : Overflows pack (declaredLength payload) ↔ Overflows pack (declaredLength payload')
  bytesRead : bytesRead pack (declaredLength payload) = bytesRead pack (declaredLength payload')
  span : span pack (declaredLength payload) = span pack (declaredLength payload')
  contents : contents payload pack = contents payload' pack

theorem samePack {pack : Pack} {data data' : Memory} {p : Nat}
    (h : ∀ i, p ≤ i → i < p + bytesRead pack (declaredLength ⟨data, p⟩) → data i = data' i) :
    SamePack pack ⟨data, p⟩ ⟨data', p⟩ := by
  cases pack with
  | scalar ts =>
      refine ⟨by simp only [Overflows], by simp only [Websock.bytesRead],
        by simp only [Websock.span], ?_⟩
      have hvalues : deserialize 0 ts (Buffer.begin ⟨data, p⟩) =
        deserialize 0 ts (Buffer.begin ⟨data', p⟩) := by
        apply deserialize_congr
        intro i hi
        rw [Nat.zero_add]
        exact h (p + i) (by omega) (Nat.add_lt_add_left hi p)
      exact congrArg (List.map Scalar.toArg) hvalues
  | array t n =>
      refine ⟨by simp only [Overflows], by simp only [Websock.bytesRead],
        by simp only [Websock.span], ?_⟩
      have hbytes : (Buffer.begin ⟨data, p⟩).load 0 (n * t.sizeOf) =
          (Buffer.begin ⟨data', p⟩).load 0 (n * t.sizeOf) := load_begin_congr (q := 0) h
      simp only [contents, arrayArg, hbytes]
  | vector t =>
      have hlength : declaredLength ⟨data, p⟩ = declaredLength ⟨data', p⟩ :=
        declaredLength_congr fun i hi hi' => h i hi (by rw [bytesRead]; omega)
      refine ⟨by rw [hlength], by rw [hlength], by rw [hlength], ?_⟩
      have hbytes : (Buffer.skip ⟨data, p⟩ 4).begin.load 0
        (declaredLength ⟨data, p⟩ / t.sizeOf * t.sizeOf) =
          (Buffer.skip ⟨data', p⟩ 4).begin.load 0
            (declaredLength ⟨data, p⟩ / t.sizeOf * t.sizeOf) :=
        load_begin_congr (p := p) (q := 4) fun i hi hi' => h i hi (by rw [bytesRead]; omega)
      simp only [contents, vectorArg, ← hlength, hbytes]
  | string =>
      have hlength : declaredLength ⟨data, p⟩ = declaredLength ⟨data', p⟩ :=
        declaredLength_congr fun i hi hi' => h i hi (by rw [bytesRead]; omega)
      refine ⟨by rw [hlength], by rw [hlength], by rw [hlength], ?_⟩
      have hbytes : (Buffer.skip ⟨data, p⟩ 4).begin.load 0 (declaredLength ⟨data, p⟩) =
          (Buffer.skip ⟨data', p⟩ 4).begin.load 0 (declaredLength ⟨data, p⟩) :=
        load_begin_congr (p := p) (q := 4) fun i hi hi' => h i hi (by rw [bytesRead]; omega)
      simp only [contents, ← hlength, hbytes]

/-! ## Parsers on different contents -/

/-- Both runs reject the command, or both have the same arguments. -/
def SameResult (result result' : Except Abort (Parsed × Buffer)) : Prop :=
  (∃ s s', result = .ok (.rejected, s) ∧ result' = .ok (.rejected, s')) ∨
    ∃ args s s', result = .ok (.called args, s) ∧ result' = .ok (.called args, s')

theorem sameResult_iff {args : List Arg} {rest rest' result result' : Except Abort (Parsed × Buffer)}
    (h : Continues args rest result) (h' : Continues args rest' result') :
    SameResult result result' ↔ SameResult rest rest' := by
  constructor
  · intro hsame
    rcases hsame with ⟨s, s', hr, hr'⟩ | ⟨all, s, s', hr, hr'⟩
    · exact .inl ⟨s, s', h.of_rejected hr, h'.of_rejected hr'⟩
    · obtain ⟨args₁, hrest, hall⟩ := h.of_called hr
      obtain ⟨args₂, hrest', hall'⟩ := h'.of_called hr'
      have heq : args₁ = args₂ := List.append_cancel_left (hall.symm.trans hall')
      exact .inr ⟨args₁, s, s', hrest, heq ▸ hrest'⟩
  · intro hsame
    rcases hsame with ⟨s, s', hr, hr'⟩ | ⟨args', s, s', hr, hr'⟩
    · exact .inl ⟨s, s', h.rejected s hr, h'.rejected s' hr'⟩
    · exact .inr ⟨args ++ args', s, s', h.called args' s hr, h'.called args' s' hr'⟩

/-! ## Arguments inside the message -/

/-- The bytes of every argument, up to the first container that is rejected for its length, are
among the received ones. Lengths are read with zeros behind `bytes`: a prefix that is cut is
rejected, whatever stands behind, when its least value is. -/
def Covered (bytes : Bytes) : Nat → List Pack → Prop
  | _, [] => True
  | p, pack :: packs =>
      let length := declaredLength ⟨Memory.ofBytes bytes, p⟩
      Overflows pack length ∨
        (p + bytesRead pack length ≤ bytes.length ∨
            bytesRead pack length = 0 ∧ p ≤ cmdPayloadBufferLen) ∧
          Covered bytes (p + span pack length) packs

section

variable {bytes : Bytes} {data : Memory} {p : Nat} {pack : Pack}

theorem declaredLength_least (h : BeginsWith data bytes) :
    declaredLength ⟨Memory.ofBytes bytes, p⟩ ≤ declaredLength ⟨data, p⟩ := by
  rw [declaredLength_eq, declaredLength_eq]
  apply beValue_load_le
  intro i _ _
  dsimp only
  by_cases hi : i < bytes.length
  · rw [h i hi]
  · rw [ofBytes_behind (Nat.le_of_not_lt hi)]
    exact Nat.zero_le _

theorem declaredLength_behind (hp : bytes.length ≤ p) :
    declaredLength ⟨Memory.ofBytes bytes, p⟩ = 0 := by
  have hzero : (Memory.ofBytes bytes).load p 4 = Memory.load (fun _ => 0) p 4 :=
    Memory.load_congr fun i hi _ => ofBytes_behind (Nat.le_trans hp hi)
  rw [declaredLength_eq, hzero]
  rfl

theorem not_overflows_zero (pack : Pack) : ¬Overflows pack 0 := by
  cases pack <;> simp [Overflows]

theorem Overflows.mono {length length' : Nat} (h : Overflows pack length) (hle : length ≤ length') :
    Overflows pack length' := by
  cases pack with
  | scalar ts => exact h
  | array t n => exact h
  | vector t => exact Nat.lt_of_lt_of_le h hle
  | string => exact Nat.lt_of_lt_of_le h hle

/-- A container that is too long for every content is rejected on every content. -/
theorem receive_over (hframe : bytes.length ≤ cmdPayloadBufferLen - 64)
    (hover : Overflows pack (declaredLength ⟨Memory.ofBytes bytes, p⟩)) (h : BeginsWith data bytes)
    (slot : Slot) : session.receive pack slot ⟨data, p⟩ = .ok ⟨-1, [], ⟨data, p + 4⟩⟩ := by
  have hp : p < bytes.length := by
    apply Nat.lt_of_not_le
    intro hp
    rw [declaredLength_behind hp] at hover
    exact not_overflows_zero pack hover
  have hover' := hover.mono (declaredLength_least (p := p) h)
  unfold cmdPayloadBufferLen at hframe
  have hreceive := receive_cursor pack slot ⟨data, p⟩
  generalize session.receive pack slot ⟨data, p⟩ = result at hreceive
  cases hreceive with
  | rejected _ _ => rfl
  | received hsmall _ => exact absurd hover' hsmall
  | overreadPrefix _ hpast =>
      unfold cmdPayloadBufferLen at hpast
      dsimp only at hpast
      omega
  | overread hsmall _ => exact absurd hover' hsmall

theorem samePack_of_covered
    (hin : p + bytesRead pack (declaredLength ⟨Memory.ofBytes bytes, p⟩) ≤ bytes.length ∨
      bytesRead pack (declaredLength ⟨Memory.ofBytes bytes, p⟩) = 0) (h : BeginsWith data bytes) :
    SamePack pack ⟨Memory.ofBytes bytes, p⟩ ⟨data, p⟩ := by
  apply samePack
  intro i hi hi'
  exact (h i (by omega)).symm

theorem receive_covered
    (hsmall : ¬Overflows pack (declaredLength ⟨Memory.ofBytes bytes, p⟩))
    (hin : p + bytesRead pack (declaredLength ⟨Memory.ofBytes bytes, p⟩) ≤ bytes.length ∨
      bytesRead pack (declaredLength ⟨Memory.ofBytes bytes, p⟩) = 0)
    (hroom : p + bytesRead pack (declaredLength ⟨Memory.ofBytes bytes, p⟩) ≤ cmdPayloadBufferLen)
    (h : BeginsWith data bytes) (slot : Slot) :
    session.receive pack slot ⟨data, p⟩ =
      .ok ⟨0, contents ⟨Memory.ofBytes bytes, p⟩ pack,
        ⟨data, p + span pack (declaredLength ⟨Memory.ofBytes bytes, p⟩)⟩⟩ := by
  have hsame := samePack_of_covered hin h
  have hreceive := receive_cursor pack slot ⟨data, p⟩
  generalize session.receive pack slot ⟨data, p⟩ = result at hreceive
  cases hreceive with
  | rejected hover _ => exact absurd (hsame.overflows.mpr hover) hsmall
  | received _ _ =>
      rw [hsame.contents, hsame.span]
      rfl
  | overreadPrefix hover _ => exact absurd (hsame.overflows.mpr hover) hsmall
  | overread _ hpast =>
      rw [← hsame.bytesRead] at hpast
      exact absurd hpast (Nat.not_lt.mpr hroom)

theorem continues_covered
    (hsmall : ¬Overflows pack (declaredLength ⟨Memory.ofBytes bytes, p⟩))
    (hin : p + bytesRead pack (declaredLength ⟨Memory.ofBytes bytes, p⟩) ≤ bytes.length ∨
      bytesRead pack (declaredLength ⟨Memory.ofBytes bytes, p⟩) = 0)
    (hroom : p + bytesRead pack (declaredLength ⟨Memory.ofBytes bytes, p⟩) ≤ cmdPayloadBufferLen)
    (h : BeginsWith data bytes) (slots : Nat → Slot) (idx : Nat) (packs : List Pack) :
    Continues (contents ⟨Memory.ofBytes bytes, p⟩ pack)
      (parsePacks session slots (idx + 1) packs
        ⟨data, p + span pack (declaredLength ⟨Memory.ofBytes bytes, p⟩)⟩)
      (parsePacks session slots idx (pack :: packs) ⟨data, p⟩) :=
  parsePacks_received packs (receive_covered hsmall hin hroom h (slots idx)) (Int.lt_irrefl 0)

end

theorem sameResult_of_covered {bytes : Bytes} (hframe : bytes.length ≤ cmdPayloadBufferLen - 64)
    {data data' : Memory} (h : BeginsWith data bytes) (h' : BeginsWith data' bytes)
    (slots slots' : Nat → Slot) {packs : List Pack} {p : Nat} (hcovered : Covered bytes p packs)
    (idx : Nat) :
    SameResult (parsePacks session slots idx packs ⟨data, p⟩)
      (parsePacks session slots' idx packs ⟨data', p⟩) := by
  induction packs generalizing p idx with
  | nil => exact .inr ⟨[], _, _, rfl, rfl⟩
  | cons pack packs ih =>
      by_cases hover : Overflows pack (declaredLength ⟨Memory.ofBytes bytes, p⟩)
      · have hret : (-1 : Int) < 0 := by decide
        exact .inl ⟨_, _, parsePacks_rejected packs (receive_over hframe hover h (slots idx)) hret,
          parsePacks_rejected packs (receive_over hframe hover h' (slots' idx)) hret⟩
      · obtain ⟨hin, hrest⟩ := hcovered.resolve_left hover
        have hread := hin.imp_right And.left
        have hroom : p + bytesRead pack (declaredLength ⟨Memory.ofBytes bytes, p⟩) ≤
            cmdPayloadBufferLen := by
          rcases hin with hin | ⟨hzero, hp⟩
          · exact Nat.le_trans hin (Nat.le_trans hframe (Nat.sub_le _ _))
          · rwa [hzero]
        rw [sameResult_iff (continues_covered hover hread hroom h slots idx packs)
          (continues_covered hover hread hroom h' slots' idx packs)]
        exact ih hrest (idx + 1)

/-! ## Arguments beyond the message -/

section

variable {bytes : Bytes} {p : Nat}

theorem store_at (m : Memory) (j : Nat) (v : Byte) : m.store j [v] j = v := by
  simp [Memory.store]

theorem beginsWith_changed {j : Nat} (hj : bytes.length ≤ j) (v : Byte) :
    BeginsWith ((Memory.ofBytes bytes).store j [v]) bytes :=
  fun _ hi => Memory.store_of_lt _ _ (Nat.lt_of_lt_of_le hi hj)

theorem load_changed_ne (m : Memory) (q k : Nat) (hzero : m (q + k) = 0) :
    (m.store (q + k) [1]).load q (k + 1) ≠ m.load q (k + 1) := by
  intro h
  have hlast := Memory.eq_of_load_eq h (Nat.lt_succ_self k)
  rw [store_at, hzero] at hlast
  exact absurd hlast (by decide)

theorem declaredLength_changed (hcut : bytes.length < p + 4) (v : Byte) :
    declaredLength ⟨(Memory.ofBytes bytes).store (p + 3) [v], p⟩ =
      declaredLength ⟨Memory.ofBytes bytes, p⟩ + v.toNat := by
  rw [declaredLength_eq, declaredLength_eq]
  dsimp only
  rw [beValue_load_succ _ p 3, beValue_load_succ _ p 3, store_at,
    ofBytes_behind (show bytes.length ≤ p + 3 by omega),
    Memory.load_store_before _ _ (Nat.le_refl (p + 3))]
  rfl

theorem declaredLength_kept {j : Nat} (hj : p + 4 ≤ j) (v : Byte) :
    declaredLength ⟨(Memory.ofBytes bytes).store j [v], p⟩ =
    declaredLength ⟨Memory.ofBytes bytes, p⟩ :=
  declaredLength_congr fun _ _ hi => Memory.store_of_lt _ _ (by omega)

theorem toArg_injective (s s' : Scalar) (h : s.toArg = s'.toArg) : s = s' := by
  cases s
  cases s'
  cases h
  rfl

theorem load_data_ne {k : Nat} (hk : 0 < k) (hpast : bytes.length < p + 4 + k) :
    (Buffer.skip ⟨(Memory.ofBytes bytes).store (p + 4 + k - 1) [1], p⟩ 4).begin.load 0 k ≠
      (Buffer.skip ⟨Memory.ofBytes bytes, p⟩ 4).begin.load 0 k := by
  obtain ⟨k, rfl⟩ : ∃ m, k = m + 1 := ⟨k - 1, by omega⟩
  have hlast : p + 4 + (k + 1) - 1 = p + 4 + k := by omega
  rw [hlast, Buffer.begin, Buffer.begin, Memory.load_offset, Memory.load_offset]
  exact load_changed_ne _ (p + 4) k (ofBytes_behind (by omega))

/-- A pack that goes beyond the received bytes has other contents when the last of its bytes is
another one. -/
theorem exists_other_contents {pack : Pack} (hpack : pack ≠ .scalar [])
    (hpast : bytes.length < p + bytesRead pack (declaredLength ⟨Memory.ofBytes bytes, p⟩))
    (hpos : 0 < bytesRead pack (declaredLength ⟨Memory.ofBytes bytes, p⟩)) :
    ∃ data, BeginsWith data bytes ∧
      contents ⟨data, p⟩ pack ≠ contents ⟨Memory.ofBytes bytes, p⟩ pack := by
  cases pack with
  | scalar ts =>
      have hts : ts ≠ [] := fun h => hpack (by rw [h])
      rw [bytesRead] at hpast hpos
      obtain ⟨k, hk⟩ : ∃ k, requiredBufferSize ts = k + 1 := ⟨requiredBufferSize ts - 1, by omega⟩
      have hbehind : bytes.length ≤ p + k := by omega
      refine ⟨_, beginsWith_changed hbehind 1, ?_⟩
      intro h
      refine deserialize_ne hts hk ?_ ?_ ?_ ((List.map_inj_right toArg_injective).mp h).symm
      · rw [Buffer.begin, Buffer.begin, Memory.load_offset, Memory.load_offset]
        exact (Memory.load_store_before _ _ (Nat.le_refl (p + k))).symm
      · rw [Buffer.begin, Memory.offset_apply, Nat.zero_add]
        exact ofBytes_behind hbehind
      · rw [Buffer.begin, Memory.offset_apply, Nat.zero_add]
        exact store_at _ _ _
  | array t n =>
      rw [bytesRead] at hpast hpos
      obtain ⟨k, hk⟩ : ∃ k, n * t.sizeOf = k + 1 := ⟨n * t.sizeOf - 1, by omega⟩
      have hbehind : bytes.length ≤ p + k := by omega
      refine ⟨_, beginsWith_changed hbehind 1, ?_⟩
      intro h
      simp only [contents, arrayArg, List.cons.injEq, Arg.array.injEq, and_true, true_and, hk,
        Buffer.begin, Memory.load_offset, Nat.add_zero] at h
      exact load_changed_ne _ p k (ofBytes_behind hbehind) h
  | vector t =>
      rw [bytesRead] at hpast
      by_cases hcut : bytes.length < p + 4
      · have hsize := t.sizeOf_le
        have hv : (BitVec.ofNat 8 t.sizeOf).toNat = t.sizeOf := by
          rw [BitVec.toNat_ofNat]
          exact Nat.mod_eq_of_lt (by omega)
        refine ⟨_, beginsWith_changed (show bytes.length ≤ p + 3 by omega) (BitVec.ofNat 8 t.sizeOf), ?_⟩
        intro h
        simp only [contents, vectorArg, List.cons.injEq, Arg.vector.injEq, and_true, true_and] at h
        have hlen := congrArg List.length h
        have hpos := t.sizeOf_pos
        rw [Memory.load_length, Memory.load_length, declaredLength_changed hcut, hv,
          Nat.add_div_right _ hpos, Nat.succ_mul] at hlen
        omega
      · refine ⟨_, beginsWith_changed (show bytes.length ≤ p + 4 +
          declaredLength ⟨Memory.ofBytes bytes, p⟩ / t.sizeOf * t.sizeOf - 1 by omega) 1, ?_⟩
        intro h
        have hkept : declaredLength ⟨(Memory.ofBytes bytes).store (p + 4 +
            declaredLength ⟨Memory.ofBytes bytes, p⟩ / t.sizeOf * t.sizeOf - 1) [1], p⟩ =
            declaredLength ⟨Memory.ofBytes bytes, p⟩ := declaredLength_kept (by omega) 1
        simp only [contents, vectorArg, List.cons.injEq, Arg.vector.injEq, and_true,
          true_and, hkept] at h
        exact load_data_ne (by omega) (by omega) h
  | string =>
      rw [bytesRead] at hpast
      by_cases hcut : bytes.length < p + 4
      · refine ⟨_, beginsWith_changed (show bytes.length ≤ p + 3 by omega) 1, ?_⟩
        intro h
        simp only [contents, List.cons.injEq, Arg.string.injEq, and_true] at h
        have hlen := congrArg List.length h
        rw [Memory.load_length, Memory.load_length, declaredLength_changed hcut] at hlen
        exact absurd hlen (Nat.ne_of_gt (Nat.lt_succ_self _))
      · refine ⟨_, beginsWith_changed (show bytes.length ≤ p + 4 +
          declaredLength ⟨Memory.ofBytes bytes, p⟩ - 1 by omega) 1, ?_⟩
        intro h
        have hkept : declaredLength ⟨(Memory.ofBytes bytes).store (p + 4 +
            declaredLength ⟨Memory.ofBytes bytes, p⟩ - 1) [1], p⟩ =
            declaredLength ⟨Memory.ofBytes bytes, p⟩ := declaredLength_kept (by omega) 1
        simp only [contents, List.cons.injEq, Arg.string.injEq, and_true, hkept] at h
        exact load_data_ne (by omega) (by omega) h

/-- With zeros behind the received bytes no container is rejected there. -/
theorem not_rejected_behind (slots : Nat → Slot) {packs : List Pack}
    (hp : bytes.length ≤ p) (idx : Nat) (s : Buffer) :
    parsePacks session slots idx packs ⟨Memory.ofBytes bytes, p⟩ ≠ .ok (.rejected, s) := by
  induction packs generalizing p idx with
  | nil =>
      intro h
      cases h
  | cons pack packs ih =>
      intro h
      have hreceive := receive_cursor pack (slots idx) ⟨Memory.ofBytes bytes, p⟩
      generalize hresult : session.receive pack (slots idx) ⟨Memory.ofBytes bytes, p⟩ =
        result at hreceive
      cases hreceive with
      | rejected hover _ =>
          rw [declaredLength_behind hp] at hover
          exact not_overflows_zero pack hover
      | received _ _ =>
          exact ih (Nat.le_trans hp (Nat.le_add_right p _)) (idx + 1)
            ((parsePacks_received packs hresult (Int.lt_irrefl 0)).of_rejected h)
      | overreadPrefix _ _ =>
          rw [parsePacks_error packs hresult] at h
          cases h
      | overread _ _ =>
          rw [parsePacks_error packs hresult] at h
          cases h

theorem contents_length (payload payload' : Buffer) (pack : Pack) :
    (contents payload pack).length = (contents payload' pack).length := by
  cases pack with
  | scalar ts => simp only [contents, List.length_map, deserialize_length]
  | array t n => simp only [contents, List.length_singleton]
  | vector t => simp only [contents, List.length_singleton]
  | string => simp only [contents, List.length_singleton]

end

/-- A parser that has a result has received its first pack or rejected it. -/
theorem receive_of_ok {slots : Nat → Slot} {idx : Nat} {pack : Pack} {packs : List Pack}
    {payload : Buffer}
    {result : Parsed × Buffer} (h : parsePacks session slots idx (pack :: packs) payload = .ok result) :
    (Overflows pack (declaredLength payload) ∧
        parsePacks session slots idx (pack :: packs) payload = .ok (.rejected, payload.skip 4)) ∨
      ¬Overflows pack (declaredLength payload) ∧
        (pack = .scalar [] ∨
          payload.position + bytesRead pack (declaredLength payload) ≤ cmdPayloadBufferLen) ∧
        session.receive pack (slots idx) payload =
          .ok ⟨0, contents payload pack, payload.skip (span pack (declaredLength payload))⟩ := by
  have hreceive := receive_cursor pack (slots idx) payload
  generalize hresult : session.receive pack (slots idx) payload = received at hreceive
  cases hreceive with
  | rejected hover _ =>
      have hret : (-1 : Int) < 0 := by decide
      exact .inl ⟨hover, parsePacks_rejected packs hresult hret⟩
  | received hsmall hin => exact .inr ⟨hsmall, hin, rfl⟩
  | overreadPrefix _ _ =>
      rw [parsePacks_error packs hresult] at h
      cases h
  | overread _ _ =>
      rw [parsePacks_error packs hresult] at h
      cases h

theorem SameResult.ok {result result' : Except Abort (Parsed × Buffer)}
    (h : SameResult result result') :
    ∃ r, result = .ok r := by
  rcases h with ⟨s, _, hr, _⟩ | ⟨args, s, _, hr, _⟩
  · exact ⟨_, hr⟩
  · exact ⟨_, hr⟩

theorem not_sameResult_beyond {bytes : Bytes} {slots : Nat → Slot} {pack : Pack} (packs : List Pack)
    {p idx : Nat} (hpack : pack ≠ .scalar [])
    (hreceive : session.receive pack (slots idx) ⟨Memory.ofBytes bytes, p⟩ =
      .ok ⟨0, contents ⟨Memory.ofBytes bytes, p⟩ pack,
        ⟨Memory.ofBytes bytes, p + span pack (declaredLength ⟨Memory.ofBytes bytes, p⟩)⟩⟩)
    (hpast : bytes.length < p + bytesRead pack (declaredLength ⟨Memory.ofBytes bytes, p⟩))
    (hpos : 0 < bytesRead pack (declaredLength ⟨Memory.ofBytes bytes, p⟩)) :
    ∃ data, BeginsWith data bytes ∧
      ¬SameResult (parsePacks session slots idx (pack :: packs) ⟨Memory.ofBytes bytes, p⟩)
        (parsePacks session slots idx (pack :: packs) ⟨data, p⟩) := by
  obtain ⟨data, hdata, hother⟩ := exists_other_contents hpack hpast hpos
  refine ⟨data, hdata, ?_⟩
  intro hsame
  have hcontinues := parsePacks_received packs hreceive (Int.lt_irrefl 0)
  rcases hsame with ⟨s, s', hr, _⟩ | ⟨all, s, s', hr, hr'⟩
  · have hspan := bytesRead_le_span pack (declaredLength ⟨Memory.ofBytes bytes, p⟩)
    exact not_rejected_behind slots (by omega) (idx + 1) s (hcontinues.of_rejected hr)
  · obtain ⟨args, _, hall⟩ := hcontinues.of_called hr
    rcases receive_of_ok hr' with ⟨_, hrejected⟩ | ⟨_, _, hreceive'⟩
    · rw [hr'] at hrejected
      cases hrejected
    · obtain ⟨args', _, hall'⟩ := (parsePacks_received packs hreceive' (Int.lt_irrefl 0)).of_called hr'
      rw [hall] at hall'
      exact hother (List.append_inj hall' (contents_length _ _ pack)).1.symm

theorem covered_of_sameResult {bytes : Bytes} (slots : Nat → Slot) {packs : List Pack}
    (hpacks : ∀ pack ∈ packs, pack ≠ .scalar []) {p : Nat} (idx : Nat)
    (hsame : ∀ data data', BeginsWith data bytes → BeginsWith data' bytes →
      SameResult (parsePacks session slots idx packs ⟨data, p⟩)
        (parsePacks session slots idx packs ⟨data', p⟩)) : Covered bytes p packs := by
  induction packs generalizing p idx with
  | nil => trivial
  | cons pack packs ih =>
      obtain ⟨hpack, hpacks⟩ := List.forall_mem_cons.mp hpacks
      by_cases hover : Overflows pack (declaredLength ⟨Memory.ofBytes bytes, p⟩)
      · exact .inl hover
      · have hself : BeginsWith (Memory.ofBytes bytes) bytes := fun _ _ => rfl
        obtain ⟨result, hresult⟩ := (hsame _ _ hself hself).ok
        obtain ⟨_, hroom, hreceive⟩ := (receive_of_ok hresult).resolve_left fun h => hover h.1
        have hroom := hroom.resolve_left hpack
        by_cases hin : p + bytesRead pack (declaredLength ⟨Memory.ofBytes bytes, p⟩) ≤
          bytes.length ∨
            bytesRead pack (declaredLength ⟨Memory.ofBytes bytes, p⟩) = 0
        · have hzero : bytesRead pack (declaredLength ⟨Memory.ofBytes bytes, p⟩) = 0 →
              bytesRead pack (declaredLength ⟨Memory.ofBytes bytes, p⟩) = 0 ∧
                p ≤ cmdPayloadBufferLen :=
            fun hzero => ⟨hzero, Nat.le_trans (Nat.le_add_right p _) hroom⟩
          refine .inr ⟨hin.imp_right hzero, ih hpacks (idx + 1) ?_⟩
          intro data data' hdata hdata'
          rw [← sameResult_iff (continues_covered hover hin hroom hdata slots idx packs)
            (continues_covered hover hin hroom hdata' slots idx packs)]
          exact hsame data data' hdata hdata'
        · obtain ⟨data, hdata, hdiffer⟩ := not_sameResult_beyond packs hpack hreceive
            (by omega) (by omega)
          exact absurd (hsame _ _ hself hdata) hdiffer

/-! ## Received messages -/

/-- A message is received into a `Command`, and the generated parser goes over its payload. -/
def receiveArguments (arguments : Signature) (slots : Nat → Slot) (cmd : Websocket.CommandBuffers)
    (ws : Websocket.WebSocket) : Option (Except Abort (Parsed × Buffer)) :=
  match Websocket.readCommand cmd ws with
  | none => none
  | some (read, cmd) =>
      if read.ret ≤ 0 then none else some (executeOp session slots arguments ⟨cmd.payload, 0⟩)

/-- Whatever the two buffers of the `Command` held, the command is rejected or the arguments are
the same. -/
def DependsOnMessage (arguments : Signature) (ws : Websocket.WebSocket) : Prop :=
  ∀ cmd cmd' slots slots', ∃ result result',
    receiveArguments arguments slots cmd ws = some result ∧
      receiveArguments arguments slots' cmd' ws = some result' ∧ SameResult result result'

theorem receiveArguments_taken {f : Websocket.StreamFrame} {ws : Websocket.WebSocket}
    {read : CommandRead Websocket.WebSocket} {cmd : Websocket.CommandBuffers}
    (h : Websocket.CommandTaken f ws read cmd) (arguments : Signature) (slots : Nat → Slot)
    (cmd' : Websocket.CommandBuffers) :
    receiveArguments arguments slots cmd' ws =
      some (executeOp session slots arguments ⟨cmd'.payload.store 0 (f.payload.drop headerSize), 0⟩) := by
  unfold receiveArguments
  rw [h.readCommand_eq cmd']
  rfl

/-- The arguments of a message depend on the message alone exactly when they end in front of the
end of its payload, up to the first container that is rejected for its length. The assertion of
`extract_array`, whose outcome depends on no byte of the payload, is left out. -/
theorem dependsOnMessage_iff {ws : Websocket.WebSocket} {cmd cmd' : Websocket.CommandBuffers}
    {read : CommandRead Websocket.WebSocket} (h : Websocket.readCommand cmd ws = some (read, cmd'))
    (hret : 0 < read.ret) (arguments : Signature) :
    ∃ f, Websocket.CommandTaken f ws read cmd' ∧
      (DependsOnMessage arguments ws ↔
        Covered (f.payload.drop headerSize) 0 (buildArgsPacks arguments).1) := by
  obtain ⟨f, hf⟩ := Websocket.readCommand_taken h hret
  refine ⟨f, hf, ?_⟩
  have hframe : (f.payload.drop headerSize).length ≤ cmdPayloadBufferLen - 64 := by
    have hmost := hf.command.most
    rw [List.length_drop]
    unfold Websocket.websockReadStrLen at hmost
    unfold cmdPayloadBufferLen headerSize
    omega
  constructor
  · intro hdepends
    apply covered_of_sameResult (fun _ => ⟨fun _ => 0, []⟩) (buildArgsPacks_nonempty arguments) 0
    intro data data' hdata hdata'
    obtain ⟨result, result', hr, hr', hsame⟩ :=
      hdepends ⟨cmd.header, data⟩ ⟨cmd.header, data'⟩ (fun _ => ⟨fun _ => 0, []⟩) fun _ =>
        ⟨fun _ => 0, []⟩
    rw [receiveArguments_taken hf, hdata.store_eq, Option.some.injEq] at hr
    rw [receiveArguments_taken hf, hdata'.store_eq, Option.some.injEq] at hr'
    rw [← hr, ← hr'] at hsame
    exact hsame
  · intro hcovered cmd₁ cmd₂ slots slots'
    refine ⟨_, _, receiveArguments_taken hf arguments slots cmd₁,
      receiveArguments_taken hf arguments slots' cmd₂, ?_⟩
    exact sameResult_of_covered hframe (beginsWith_store _ _) (beginsWith_store _ _) slots slots'
      hcovered 0

/-- A message with one byte behind its header. -/
theorem dependsOnMessage_iff_text :
    let ws := Websocket.WebSocket.fresh Websocket.textFrame.wire
    let received := (Websocket.readCommand ⟨fun _ => 0, fun _ => 0⟩ ws).get (by decide)
    ∃ f, Websocket.CommandTaken f ws received.1 received.2 ∧
      (DependsOnMessage [.scalar .uint8] ws ↔
        Covered (f.payload.drop headerSize) 0 (buildArgsPacks [.scalar .uint8]).1) := by
  intro ws received
  have hreceived : Websocket.readCommand ⟨fun _ => 0, fun _ => 0⟩ ws =
    some (received.1, received.2) :=
    (Option.some_get _).symm
  have hret : 0 < received.1.ret := by decide
  exact dependsOnMessage_iff hreceived hret [.scalar .uint8]

def bareHeader : Bytes := [0x82, 0x88, 0, 0, 0, 0, 0, 0, 0, 0, 0, 2, 0, 0]

/-- For an operation with an `uint32_t` its argument is what the payload buffer held. -/
theorem bareHeader_leaks :
    (∃ s, receiveArguments [.scalar .uint32] (fun _ => ⟨fun _ => 0, []⟩) ⟨fun _ => 0, fun _ => 0⟩
        (.fresh bareHeader) = some (.ok (.called [.scalar .uint32 0x00000000#32], s))) ∧
      (∃ s, receiveArguments [.scalar .uint32] (fun _ => ⟨fun _ => 0, []⟩) ⟨fun _ => 0, fun _ => 1⟩
        (.fresh bareHeader) = some (.ok (.called [.scalar .uint32 0x01010101#32], s))) ∧
      ¬DependsOnMessage [.scalar .uint32] (.fresh bareHeader) := by
  have hzeros : ∃ s, receiveArguments [.scalar .uint32] (fun _ => ⟨fun _ => 0, []⟩)
      ⟨fun _ => 0, fun _ => 0⟩ (.fresh bareHeader) =
        some (.ok (.called [.scalar .uint32 0x00000000#32], s)) := ⟨_, rfl⟩
  have hones : ∃ s, receiveArguments [.scalar .uint32] (fun _ => ⟨fun _ => 0, []⟩)
      ⟨fun _ => 0, fun _ => 1⟩ (.fresh bareHeader) =
        some (.ok (.called [.scalar .uint32 0x01010101#32], s)) := ⟨_, rfl⟩
  refine ⟨hzeros, hones, ?_⟩
  intro hdepends
  obtain ⟨s, hzeros⟩ := hzeros
  obtain ⟨s', hones⟩ := hones
  obtain ⟨result, result', hr, hr', hsame⟩ :=
    hdepends ⟨fun _ => 0, fun _ => 0⟩ ⟨fun _ => 0, fun _ => 1⟩
    (fun _ => ⟨fun _ => 0, []⟩) fun _ => ⟨fun _ => 0, []⟩
  rw [hzeros, Option.some.injEq] at hr
  rw [hones, Option.some.injEq] at hr'
  rw [← hr, ← hr'] at hsame
  rcases hsame with ⟨_, _, h, _⟩ | ⟨args, _, _, h, h'⟩
  · cases h
  · cases h
    cases h'

end KoheronServer.Session.Websock
