import KoheronServer.Session.WebsockCursor

/-!
# The two transports

Over the bytes of one payload the generated parsers of `Session<WEBSOCK>` agree with
those of `Session<TCP>`, pack by pack.
-/

namespace KoheronServer.Session

open Foundation Wire

def need : Pack → Bytes → Nat
  | .scalar ts, _ => requiredBufferSize ts
  | .array t n, _ => t.sizeOfArray n
  | .vector t, p => 4 + beValue (p.take 4) / t.sizeOf * t.sizeOf
  | .string, p => 4 + beValue (p.take 4)

/-- The number of bytes that the parse over TCP needs where `p` comes. -/
def demand : List Pack → Bytes → Nat
  | [], _ => 0
  | pack :: packs, p => need pack p + demand packs (p.drop (need pack p))

/-- The bytes of a payload on both sides: at the front of a stream, and in a command. -/
structure Carries (q rest : Bytes) (s : ByteStream) (payload : Buffer) : Prop where
  clean : s.Clean
  stream : s.bytes = q ++ rest
  payload : Websock.Holds payload q

theorem Carries.drop {q rest : Bytes} {s s' : ByteStream} {payload : Buffer}
    (h : Carries q rest s payload) {n : Nat} (hn : n ≤ q.length) (hs : s'.Clean)
    (hbytes : s'.bytes = s.bytes.drop n) :
    Carries (q.drop n) rest s' { payload with position := payload.position + n } where
  clean := hs
  stream := by rw [hbytes, h.stream, List.drop_append_of_le_length hn]
  payload := h.payload.drop hn

/-- Both transports take the same arguments from the same bytes. -/
structure ReceivesSame (tcp : Except Abort (Received ByteStream))
    (websock : Except Abort (Received Buffer)) (q rest : Bytes) (payload : Buffer) (n : Nat) :
    Prop where
  ok : ∃ ret args s', tcp = .ok ⟨ret, args, s'⟩ ∧ ¬ ret < 0 ∧
    websock = .ok ⟨0, args, { payload with position := payload.position + n }⟩ ∧
    Carries (q.drop n) rest s' { payload with position := payload.position + n }

theorem rcvRet_nonneg {n : Nat} {q rest : Bytes} (hn : n ≤ q.length)
    (hq : q.length ≤ cmdPayloadBufferLen) : ¬ Tcp.rcvRet n (q ++ rest) < 0 := by
  unfold cmdPayloadBufferLen at hq
  rw [Tcp.rcvRet, if_pos (by simp; omega), Tcp.toInt_of_lt (by omega)]
  omega

section

variable {q rest : Bytes} {s : ByteStream} {payload : Buffer}

theorem Carries.length_le (h : Carries q rest s payload) : q.length ≤ cmdPayloadBufferLen - 64 :=
  Nat.le_trans (Nat.le_add_left _ _) h.payload.room

theorem receive_same_scalar (h : Carries q rest s payload) (ts : List ScalarType) (slot : Slot)
    (hn : requiredBufferSize ts ≤ q.length) :
    ReceivesSame (.ok (Tcp.deserializePack ts slot s)) (Websock.deserializePack ts payload) q rest
      payload (requiredBufferSize ts) := by
  obtain ⟨s', hresult, hrest, hclean⟩ := (Tcp.deserializePack_clean ts slot h.clean).ok
  rw [h.stream, List.take_append_of_le_length hn] at hresult
  have hvalues : deserialize 0 ts (slot.raw.store 0 (q.take (requiredBufferSize ts))) =
      deserialize 0 ts payload.begin := by
    apply deserialize_congr
    intro i hi
    apply Memory.eq_of_load_eq _ hi
    have hstored := Memory.load_store_self slot.raw 0 (q.take (requiredBufferSize ts))
    rw [List.length_take, Nat.min_eq_left hn] at hstored
    rw [hstored, h.payload.take hn]
  have hlen := h.length_le
  refine ⟨_, _, s', hresult, rcvRet_nonneg hn (by omega), ?_, h.drop hn hclean hrest⟩
  rw [Websock.deserializePack, hvalues]
  by_cases hts : ts.length = 0
  · obtain rfl := List.eq_nil_of_length_eq_zero hts
    rfl
  · rw [if_neg hts, Buffer.deserialize, Websock.reading_ok h.payload hn]

theorem receive_same_array (h : Carries q rest s payload) (t : ScalarType) {n : Nat} (hpos : 0 < n)
    (slot : Slot) (hn : t.sizeOfArray n ≤ q.length) :
    ReceivesSame (.ok (Tcp.recvArray t n slot s)) (Websock.recvArray t n payload) q rest payload
      (t.sizeOfArray n) := by
  obtain ⟨n, rfl⟩ : ∃ k, n = k + 1 := ⟨n - 1, by omega⟩
  have hsize : t.sizeOfArray (n + 1) = (n + 1) * t.sizeOf := Nat.mul_comm _ _
  rw [hsize] at hn ⊢
  obtain ⟨hlength, s', hresult, hrest, hclean⟩ :=
    Tcp.recvArray_clean t (n + 1) slot h.clean (by omega)
  have hlen := h.length_le
  refine ⟨_, _, s', hresult, ?_, ?_, h.drop hn hclean hrest⟩
  · rw [h.stream]
    exact rcvRet_nonneg hn (by omega)
  · rw [Websock.recvArray, Buffer.extractArray, Websock.reading_ok h.payload hn, hsize]
    have hfill : Tcp.refill slot.raw ((n + 1) * t.sizeOf) (s.bytes.take ((n + 1) * t.sizeOf)) =
        payload.begin.load 0 ((n + 1) * t.sizeOf) := by
      have hall := Tcp.refill_all slot.raw (q.take ((n + 1) * t.sizeOf))
      rw [List.length_take, Nat.min_eq_left hn] at hall
      rw [h.stream, List.take_append_of_le_length hn, hall, h.payload.take hn]
    simp only [hfill]

theorem Carries.lengthBytes (h : Carries q rest s payload) (hn : 4 ≤ q.length) (slot : Slot) :
    Tcp.prefixValue slot s.bytes = beValue (q.take 4) ∧ s.bytes.drop 4 = q.drop 4 ++ rest := by
  constructor
  · rw [h.stream, Tcp.prefixValue_eq slot (by simp; omega), List.take_append_of_le_length hn]
  · rw [h.stream, List.drop_append_of_le_length hn]

theorem Carries.contents (h : Carries q rest s payload) (held : Bytes) {m : Nat}
    (hm : 4 + m ≤ q.length) :
    Tcp.refill (Memory.ofBytes (resize held m)) m ((q.drop 4 ++ rest).take m) =
      ({ payload with position := payload.position + 4 } : Buffer).begin.load 0 m := by
  have hdrop : m ≤ (q.drop 4).length := by rw [List.length_drop]; omega
  have hall := Tcp.refill_all (Memory.ofBytes (resize held m)) ((q.drop 4).take m)
  rw [List.length_take, Nat.min_eq_left hdrop] at hall
  rw [List.take_append_of_le_length hdrop, hall, (h.payload.drop (n := 4) (by omega)).take hdrop]

theorem receive_same_vector (h : Carries q rest s payload) (t : ScalarType) (slot : Slot)
    (hn : need (.vector t) q ≤ q.length) :
    ReceivesSame (Tcp.recvVector t slot s) (Websock.recvVector t payload) q rest payload
      (need (.vector t) q) := by
  rw [need] at hn ⊢
  have hlen := h.length_le
  obtain ⟨hbegins, hdata⟩ := h.lengthBytes (by omega) slot
  obtain ⟨hlength, s', hresult, hrest, hclean⟩ := Tcp.recvVector_clean t slot h.clean
  simp only [hbegins, hdata, h.contents slot.held hn] at hresult hrest
  refine ⟨_, _, s', hresult, ?_, ?_, h.drop hn hclean ?_⟩
  · exact rcvRet_nonneg (by rw [List.length_drop]; omega) (by rw [List.length_drop]; omega)
  · have hsmall : ¬ cmdPayloadBufferLen < beValue (q.take 4) := by
      have hmod := Nat.mod_lt (beValue (q.take 4)) t.sizeOf_pos
      have hdiv := Nat.div_add_mod' (beValue (q.take 4)) t.sizeOf
      have hle := t.sizeOf_le
      omega
    simp only [Websock.recvVector, Websock.deserializeLength_eq h.payload (by omega), if_neg hsmall,
      Buffer.toVector, Websock.reading_ok (h.payload.drop (n := 4) (by omega))
        (n := beValue (q.take 4) / t.sizeOf * t.sizeOf) (by rw [List.length_drop]; omega),
      Nat.add_assoc]
  · rw [hrest, ← hdata, List.drop_drop]

theorem receive_same_string (h : Carries q rest s payload) (slot : Slot)
    (hn : need .string q ≤ q.length) :
    ReceivesSame (.ok (Tcp.recvString slot s)) (Websock.recvString payload) q rest payload
      (need .string q) := by
  rw [need] at hn ⊢
  have hlen := h.length_le
  obtain ⟨hbegins, hdata⟩ := h.lengthBytes (by omega) slot
  obtain ⟨s', hresult, hrest, hclean⟩ := (Tcp.recvString_clean slot h.clean).ok
  simp only [hbegins, hdata, h.contents slot.held hn] at hresult hrest
  refine ⟨_, _, s', hresult, ?_, ?_, h.drop hn hclean ?_⟩
  · exact rcvRet_nonneg (by rw [List.length_drop]; omega) (by rw [List.length_drop]; omega)
  · have hsmall : ¬ cmdPayloadBufferLen < beValue (q.take 4) := by omega
    simp only [Websock.recvString, Websock.deserializeLength_eq h.payload (by omega), if_neg hsmall,
      Buffer.toString, Websock.reading_ok (h.payload.drop (n := 4) (by omega))
        (n := beValue (q.take 4)) (by rw [List.length_drop]; omega), Nat.add_assoc]
  · rw [hrest, ← hdata, List.drop_drop]

/-- Any pack but an array of no elements. -/
theorem receive_same (debug : Bool) (h : Carries q rest s payload) {pack : Pack}
    (harray : pack.isEmptyArray = false) (slot slot' : Slot) (hn : need pack q ≤ q.length) :
    ReceivesSame (Tcp.session.receive pack slot s)
      ((Websock.sessionIn debug).receive pack slot' payload) q rest payload (need pack q) := by
  rw [Websock.sessionIn_receive debug harray]
  cases pack with
  | scalar ts => exact receive_same_scalar h ts slot hn
  | array t n =>
      cases n with
      | zero => cases harray
      | succ n => exact receive_same_array h t (Nat.succ_pos n) slot hn
  | vector t => exact receive_same_vector h t slot hn
  | string => exact receive_same_string h slot hn

end

/-- No receive moves the position back, and one of an empty array moves it on. -/
theorem receive_position {debug : Bool} {pack : Pack} {slot : Slot} {payload : Buffer}
    {r : Received Buffer} (h : (Websock.sessionIn debug).receive pack slot payload = .ok r) :
    payload.position ≤ r.session.position ∧
      (pack.isEmptyArray = true → payload.position < r.session.position) := by
  simp only [Websock.sessionIn] at h
  split at h
  · cases h
  · have hreceive := Websock.receive_cursor pack slot payload
    rw [h] at hreceive
    cases hreceive with
    | rejected hover hroom =>
        rw [Buffer.skip_position]
        exact ⟨Nat.le_add_right _ _, fun _ => Nat.lt_add_of_pos_right (by decide)⟩
    | received hsmall hin =>
        rw [Buffer.skip_position]
        refine ⟨Nat.le_add_right _ _, fun hempty => ?_⟩
        obtain ⟨t, rfl⟩ := pack.isEmptyArray_iff.mp hempty
        exact Nat.lt_add_of_pos_right t.sizeOf_pos

theorem parsePacks_position {debug : Bool} {slots : Nat → Slot} {idx : Nat} {packs : List Pack}
    {payload payload' : Buffer} {parsed : Parsed}
    (h : parsePacks (Websock.sessionIn debug) slots idx packs payload = .ok (parsed, payload')) :
    payload.position ≤ payload'.position :=
  parsePacks_keeps (P := fun b => payload.position ≤ b.position)
    (fun _ _ _ _ hr hle => Nat.le_trans hle (receive_position hr).1) h (Nat.le_refl _)

/-- Two parses that end alike, with as many bytes of the stream taken as the payload has
been moved on. -/
def Agree (s : ByteStream) (tcp : Except Abort (Parsed × ByteStream))
    (websock : Except Abort (Parsed × Buffer)) : Prop :=
  ∃ parsed s' payload, tcp = .ok (parsed, s') ∧ websock = .ok (parsed, payload) ∧
    s.bytes.length = payload.position + s'.bytes.length

/-- Behind an array of no elements a parse over WebSocket has moved on by more bytes than the one
over TCP has taken. -/
theorem parsePacks_empty {debug : Bool} {slots slots' : Nat → Slot} {idx : Nat} {packs : List Pack}
    {t : ScalarType} {s : ByteStream} {payload payload' : Buffer} {parsed : Parsed} (hs : s.Clean)
    (hbytes : s.bytes ≠ [])
    (h : parsePacks (Websock.sessionIn debug) slots' idx (.array t 0 :: packs) payload =
      .ok (parsed, payload')) :
    parsePacks Tcp.session slots idx (.array t 0 :: packs) s = .ok (.rejected, s) ∧
      payload.position < payload'.position := by
  constructor
  · obtain ⟨r, hr, hret, hsession⟩ := Tcp.receive_overrun t (slots idx) hs hbytes
    rw [parsePacks_rejected packs hr hret, hsession]
  · cases hr : (Websock.sessionIn debug).receive (.array t 0) (slots' idx) payload with
    | error e =>
        rw [parsePacks_error packs hr] at h
        cases h
    | ok r =>
        have hmoved := (receive_position hr).2 rfl
        by_cases hret : r.ret < 0
        · rw [parsePacks_rejected packs hr hret] at h
          cases h
          exact hmoved
        · have hcontinues := parsePacks_received packs hr hret
          cases parsed with
          | rejected =>
              exact Nat.lt_of_lt_of_le hmoved (parsePacks_position (hcontinues.of_rejected h))
          | called args =>
              obtain ⟨_, hrest, -⟩ := hcontinues.of_called h
              exact Nat.lt_of_lt_of_le hmoved (parsePacks_position hrest)

theorem Carries.nonempty {q rest : Bytes} {s : ByteStream} {payload : Buffer}
    (h : Carries q rest s payload) {n : Nat} (hn : 0 < n) (hle : n ≤ q.length) : s.bytes ≠ [] := by
  intro hnil
  have hlen := congrArg List.length hnil
  rw [h.stream, List.length_append, List.length_nil] at hlen
  omega

theorem parsePacks_agree (debug : Bool) {packs : List Pack} {q rest : Bytes} {s : ByteStream}
    {payload : Buffer} (h : Carries q rest s payload) (hdemand : demand packs q ≤ q.length)
    (slots slots' : Nat → Slot) (idx : Nat) (hnone : ∀ pack ∈ packs, pack.isEmptyArray = false) :
    ∃ args s', parsePacks Tcp.session slots idx packs s = .ok (.called args, s') ∧
      parsePacks (Websock.sessionIn debug) slots' idx packs payload =
        .ok (.called args, { payload with position := payload.position + demand packs q }) ∧
      s.bytes.length = demand packs q + s'.bytes.length := by
  induction packs generalizing q s payload idx with
  | nil => exact ⟨[], s, rfl, rfl, by simp [demand]⟩
  | cons pack packs ih =>
      rw [demand] at hdemand
      have hneed : need pack q ≤ q.length := by omega
      obtain ⟨ret, got, s₁, htcp, hret, hwebsock, hcarries⟩ :=
        (receive_same debug h (hnone pack (by simp)) (slots idx) (slots' idx) hneed).ok
      obtain ⟨args, s', hparse, hparse', hlen⟩ := ih hcarries (by rw [List.length_drop]; omega)
        (idx + 1) (fun p hp => hnone p (by simp [hp]))
      have hcontinues := parsePacks_received packs htcp hret
      have hcontinues' := parsePacks_received packs hwebsock (Int.lt_irrefl 0)
      refine ⟨got ++ args, s', hcontinues.called args s' hparse, ?_, ?_⟩
      · rw [hcontinues'.called args _ hparse', demand, Nat.add_assoc]
      · have htaken : s.bytes.length = need pack q + s₁.bytes.length := by
          rw [h.stream, hcarries.stream, List.length_append, List.length_append, List.length_drop]
          omega
        rw [demand]
        omega

/-- With an array of no elements somewhere, the parse over TCP stops there. A parse over WebSocket
that ends has moved on by more bytes. -/
theorem parsePacks_differ (debug : Bool) {packs : List Pack} {q rest : Bytes} {s : ByteStream}
    {payload : Buffer} (h : Carries q rest s payload) (hdemand : demand packs q ≤ q.length)
    (slots slots' : Nat → Slot) (idx : Nat) (hsome : ∃ t, Pack.array t 0 ∈ packs) {parsed : Parsed}
    {payload' : Buffer}
    (hwebsock : parsePacks (Websock.sessionIn debug) slots' idx packs payload =
      .ok (parsed, payload')) :
    ∃ s', parsePacks Tcp.session slots idx packs s = .ok (.rejected, s') ∧
      s.bytes.length + payload.position < payload'.position + s'.bytes.length := by
  induction packs generalizing q s payload idx parsed with
  | nil =>
      obtain ⟨_, ht⟩ := hsome
      cases ht
  | cons pack packs ih =>
      rw [demand] at hdemand
      have hneed : need pack q ≤ q.length := by omega
      cases harray : pack.isEmptyArray with
      | true =>
          obtain ⟨t, rfl⟩ := pack.isEmptyArray_iff.mp harray
          have hbytes := h.nonempty t.sizeOf_pos hneed
          have hempty := @parsePacks_empty debug slots _ _ _ _ _ _ _ _ h.clean hbytes hwebsock
          have hmoved := hempty.2
          exact ⟨s, hempty.1, by omega⟩
      | false =>
          obtain ⟨ret, got, s₁, hr, hret, hr', hcarries⟩ :=
            (receive_same debug h harray (slots idx) (slots' idx) hneed).ok
          have hrest : ∃ t, Pack.array t 0 ∈ packs := by
            obtain ⟨t, ht⟩ := hsome
            rcases List.mem_cons.mp ht with rfl | ht
            · cases harray
            · exact ⟨t, ht⟩
          have hcontinues' := parsePacks_received packs hr' (Int.lt_irrefl 0)
          have htail : ∃ parsed, parsePacks (Websock.sessionIn debug) slots' (idx + 1) packs
              { payload with position := payload.position + need pack q } =
                .ok (parsed, payload') := by
            cases parsed with
            | rejected => exact ⟨_, hcontinues'.of_rejected hwebsock⟩
            | called args =>
                obtain ⟨args', hparse, -⟩ := hcontinues'.of_called hwebsock
                exact ⟨_, hparse⟩
          obtain ⟨parsed', hparse⟩ := htail
          obtain ⟨s', htcp, hlen⟩ :=
            ih hcarries (by rw [List.length_drop]; omega) (idx + 1) hrest hparse
          have hcontinues := parsePacks_received packs hr hret
          refine ⟨s', hcontinues.rejected s' htcp, ?_⟩
          have htaken : s.bytes.length = need pack q + s₁.bytes.length := by
            rw [h.stream, hcarries.stream, List.length_append, List.length_append, List.length_drop]
            omega
          simp only at hlen
          omega

theorem array_mem_packs_iff (arguments : Signature) (t : ScalarType) :
    Pack.array t 0 ∈ (buildArgsPacks arguments).1 ↔ ArgType.array t 0 ∈ arguments := by
  have hflat : ∀ packs : List Pack,
      Pack.array t 0 ∈ packs ↔ ArgType.array t 0 ∈ packs.flatMap Pack.types := by
    intro packs
    induction packs with
    | nil => simp
    | cons pack packs ih =>
        rw [List.mem_cons, List.flatMap_cons, List.mem_append, ih]
        cases pack <;> simp [Pack.types]
  rw [hflat, buildArgsPacks_types]

theorem no_emptyArray_packs {arguments : Signature} (h : ∀ t, ArgType.array t 0 ∉ arguments) :
    ∀ pack ∈ (buildArgsPacks arguments).1, pack.isEmptyArray = false := by
  intro pack hpack
  rw [Bool.eq_false_iff]
  intro hempty
  obtain ⟨t, rfl⟩ := pack.isEmptyArray_iff.mp hempty
  exact h t ((array_mem_packs_iff arguments t).mp hpack)

/-- On the bytes of any payload that is not too short for the parse, the two transports
come to the same arguments and the same number of bytes, unless the operation takes an
array of no elements: the receive over TCP fails, and the one over WebSocket moves on, or its
assertion fails in a build that has it. -/
theorem transports_agree_iff (debug : Bool) (arguments : Signature) {p rest : Bytes}
    {s : ByteStream}
    (hs : s.Clean) (hbytes : s.bytes = p ++ rest) {data : Memory}
    (hdata : data.load 0 p.length = p) (hframe : p.length ≤ cmdPayloadBufferLen - 64)
    (hdemand : demand (buildArgsPacks arguments).1 p ≤ p.length) (slots slots' : Nat → Slot) :
    Agree s (executeOp Tcp.session slots arguments s)
        (executeOp (Websock.sessionIn debug) slots' arguments ⟨data, 0⟩) ↔
      ∀ t, ArgType.array t 0 ∉ arguments := by
  have hcarries : Carries p rest s ⟨data, 0⟩ := ⟨hs, hbytes, hdata, by simpa using hframe⟩
  constructor
  · rintro ⟨parsed, s', payload, htcp, hwebsock, hlen⟩ t ht
    obtain ⟨s'', htcp', hmoved⟩ := parsePacks_differ debug hcarries hdemand slots slots' 0
      ⟨t, (array_mem_packs_iff arguments t).mpr ht⟩ hwebsock
    rw [executeOp, htcp'] at htcp
    cases htcp
    simp only at hmoved
    omega
  · intro hnone
    obtain ⟨args, s', htcp, hwebsock, hlen⟩ :=
      parsePacks_agree debug hcarries hdemand slots slots' 0 (no_emptyArray_packs hnone)
    exact ⟨.called args, s', _, htcp, hwebsock, by simpa using hlen⟩

/-- One byte for an array of none. -/
theorem transports_disagree :
    let arguments : Signature := [.array .uint8 0]
    let s := ByteStream.ofBytes [7]
    let payload : Buffer := ⟨Memory.ofBytes [7], 0⟩
    let slots : Nat → Slot := fun _ => ⟨fun _ => 0, []⟩
    demand (buildArgsPacks arguments).1 [7] ≤ [7].length ∧
      (∃ s', executeOp Tcp.session slots arguments s = .ok (.rejected, s') ∧ s'.bytes = [7]) ∧
      (∃ args, executeOp (Websock.sessionIn false) slots arguments payload =
        .ok (.called args, ⟨payload.data, 1⟩)) ∧
      executeOp (Websock.sessionIn true) slots arguments payload = .error .assertion ∧
      ∀ debug, ¬ Agree s (executeOp Tcp.session slots arguments s)
        (executeOp (Websock.sessionIn debug) slots arguments payload) := by
  intro arguments s payload slots
  have htcp : executeOp Tcp.session slots arguments s = .ok (.rejected, s) := rfl
  have hrelease : ∃ args, executeOp (Websock.sessionIn false) slots arguments payload =
      .ok (.called args, ⟨payload.data, 1⟩) := ⟨_, rfl⟩
  have hdebug : executeOp (Websock.sessionIn true) slots arguments payload =
    .error .assertion := rfl
  refine ⟨by decide, ⟨s, htcp, rfl⟩, hrelease, hdebug, ?_⟩
  rintro debug ⟨parsed, s', payload', htcp', hwebsock, -⟩
  rw [htcp] at htcp'
  cases htcp'
  cases debug with
  | false =>
      obtain ⟨args, hcalled⟩ := hrelease
      rw [hcalled] at hwebsock
      cases hwebsock
  | true =>
      rw [hdebug] at hwebsock
      cases hwebsock

/-- A vector of `uint16_t` behind a prefix of three bytes. -/
theorem transports_agree_iff_odd :
    Agree (.ofBytes [0, 0, 0, 3, 1, 2, 3])
        (executeOp Tcp.session (fun _ => ⟨fun _ => 0, []⟩) [.vector .uint16, .scalar .uint8]
          (.ofBytes [0, 0, 0, 3, 1, 2, 3]))
        (executeOp (Websock.sessionIn true) (fun _ => ⟨fun _ => 9, [5]⟩)
          [.vector .uint16, .scalar .uint8] ⟨Memory.ofBytes [0, 0, 0, 3, 1, 2, 3], 0⟩) ↔
      ∀ t, ArgType.array t 0 ∉ [ArgType.vector .uint16, .scalar .uint8] :=
  transports_agree_iff true (p := [0, 0, 0, 3, 1, 2, 3]) [.vector .uint16, .scalar .uint8]
    (ByteStream.ofBytes_clean _) (List.append_nil _).symm rfl (by decide) (by decide) _ _

end KoheronServer.Session
