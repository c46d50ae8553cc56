import KoheronServer.Websocket.ReadEnds

/-!
# Headers that arrive and headers that do not

`read_header` on a stream that holds all bytes of the next header, and on one that the
peer closes inside it. The second byte says how many there are. A header that is cut
is reported with the value that also stands for success, and the fields of the header
before stay.
-/

namespace KoheronServer.Websocket

open Foundation Wire Session

/-- The opcode of the first byte is that of a text or a binary frame. -/
def TextOrBinary (first : Byte) : Prop := first &&& 0x0F = 0x1 ∨ first &&& 0x0F = 0x2

/-- The size of the header that the second byte announces, with the bytes of the masking key. -/
def headerLength (second : Byte) : Nat :=
  let streamSize := (second &&& 0x7F).toNat
  if streamSize ≤ 125 then 6 else if streamSize = 126 then 8 else 14

/-- All bytes of the next header arrive. -/
def HeaderArrives (bytes : Bytes) : Prop :=
  ∃ first second rest, bytes = first :: second :: rest ∧ headerLength second ≤ bytes.length

/-- The stream ends inside a header whose opcode, if there is one, is text or binary. -/
structure HeaderCut (bytes : Bytes) : Prop where
  opcode : ∀ first rest, bytes = first :: rest → TextOrBinary first
  short : ¬HeaderArrives bytes

theorem headerCut_nil : HeaderCut [] where
  opcode := by
    intro first rest h
    cases h
  short := by
    rintro ⟨first, second, rest, h, -⟩
    cases h

theorem TextOrBinary.checkOpcode {first : Byte} (h : TextOrBinary first) :
    checkOpcode (first &&& 0x0F).toNat = 0 := by
  rcases h with h | h <;> rw [h] <;> rfl

theorem headerLength_cases (second : Byte) :
    (second &&& 0x7F).toNat ≤ 125 ∧ headerLength second = 6 ∨
      (second &&& 0x7F).toNat = 126 ∧ headerLength second = 8 ∨
      (second &&& 0x7F).toNat = 127 ∧ headerLength second = 14 := by
  have hle : (second &&& 0x7F).toNat ≤ 127 := by
    rw [BitVec.toNat_and]
    exact Nat.and_le_right
  unfold headerLength
  dsimp only
  split
  case isTrue hsmall => exact .inl ⟨hsmall, rfl⟩
  case isFalse hsmall =>
      split
      case isTrue hmedium => exact .inr (.inl ⟨hmedium, rfl⟩)
      case isFalse hmedium => exact .inr (.inr ⟨by omega, rfl⟩)

/-- A length that stands in the second byte, in two or in eight bytes behind it. -/
theorem statedLength_form {second : Byte} {extended : Bytes} {n : Nat}
    (h : statedLength second extended = some n) :
    extended.length = 0 ∧ n ≤ 125 ∨ extended.length = 2 ∧ n < 2 ^ 16 ∨ extended.length = 8 := by
  unfold statedLength at h
  dsimp only at h
  split at h
  case isTrue hsmall =>
      split at h
      case isTrue hlen =>
          obtain rfl := Option.some.inj h
          exact .inl ⟨hlen, hsmall⟩
      case isFalse => cases h
  case isFalse =>
      split at h
      case isTrue =>
          split at h
          case isTrue hlen =>
              obtain rfl := Option.some.inj h
              have hlt := beValue_lt extended
              rw [hlen] at hlt
              exact .inr (.inl ⟨hlen, hlt⟩)
          case isFalse => cases h
      case isFalse =>
          split at h
          case isTrue hlen => exact .inr (.inr hlen)
          case isFalse => cases h

section

variable {ws : WebSocket} {first second : Byte} {rest : Bytes}

theorem readHeader_six (hempty : ws.readStrLen = 0) (hopen : ws.connectionClosed = false)
    (hdelivers : ws.socket.Delivers (first :: second :: rest)) (hlen : 4 ≤ rest.length) :
    ∃ ws₁, readNBytes 6 6 ws = some (0, ws₁) ∧ Takes ws (first :: second :: rest.take 4) ws₁ ∧
      ws₁.received = first :: second :: rest.take 4 ∧ ws₁.socket.Delivers (rest.drop 4) ∧
      readHeader ws =
        if checkOpcode (first &&& 0x0F).toNat < 0 then some (-1, ws₁.setBits first second)
        else if checkOpcode (first &&& 0x0F).toNat = 1 then
          some (1, { ws₁.setBits first second with connectionClosed := true })
        else readPayloadSize (second &&& 0x7F).toNat (ws₁.setBits first second) := by
  obtain ⟨ws₁, hread, htakes, hrest⟩ :=
    readNBytes_delivers (k := 6) (by decide) hdelivers (by simp only [List.length_cons]; omega)
  have htake : (first :: second :: rest).take 6 = first :: second :: rest.take 4 := rfl
  rw [htake] at htakes
  rw [hempty, if_neg (by decide)] at hread
  have hnil : ws.received = [] := by rw [WebSocket.received, hempty]; rfl
  have hreceived : ws₁.received = first :: second :: rest.take 4 := by
    rw [htakes.received, hnil]
    rfl
  have htwo := load_received [] [first, second] (rest.take 4) hreceived
  have hfirst : ws₁.readStr 0 = first := List.head_eq_of_cons_eq htwo
  have hsecond : ws₁.readStr 1 = second := List.head_eq_of_cons_eq (List.tail_eq_of_cons_eq htwo)
  have hread₁ : readNBytes 6 6 ws = some (0, ws₁) := hread
  have hopen₁ : ws₁.connectionClosed = false := htakes.connectionClosed.trans hopen
  refine ⟨ws₁, hread₁, htakes, hreceived, hrest, ?_⟩
  have hopcode : (ws₁.setBits first second).header.opcode = (first &&& 0x0F).toNat := rfl
  simp only [readHeader, hread₁, hopen₁, hfirst, hsecond, hopcode, Int.lt_irrefl,
    Bool.false_eq_true, if_false]
  by_cases hclose : checkOpcode (first &&& 0x0F).toNat = 1
  · rw [hclose]
  · rw [if_neg hclose, if_neg hclose]

theorem readHeader_six_clean (hempty : ws.readStrLen = 0) (hopen : ws.connectionClosed = false)
    (hclean : ws.socket.Clean) (hbytes : ws.socket.bytes = first :: second :: rest)
    (hlen : 4 ≤ rest.length) :
    ∃ ws₁, Takes ws (first :: second :: rest.take 4) ws₁ ∧ ws₁.socket.Clean ∧
      ws₁.socket.bytes = rest.drop 4 ∧
      readHeader ws =
        if checkOpcode (first &&& 0x0F).toNat < 0 then some (-1, ws₁.setBits first second)
        else if checkOpcode (first &&& 0x0F).toNat = 1 then
          some (1, { ws₁.setBits first second with connectionClosed := true })
        else readPayloadSize (second &&& 0x7F).toNat (ws₁.setBits first second) := by
  have hdelivers := hclean.errorFree.delivers
  rw [hbytes] at hdelivers
  obtain ⟨ws₁, hread, htakes, -, -, hheader⟩ := readHeader_six hempty hopen hdelivers hlen
  obtain ⟨ret, ws', hread', hclean'⟩ := readNBytes_clean 6 hclean
  rw [hread] at hread'
  obtain ⟨-, rfl⟩ := Prod.mk.inj (Option.some.inj hread')
  refine ⟨ws₁, htakes, hclean', ?_, hheader⟩
  have hsplit := htakes.socket
  rw [hbytes] at hsplit
  simp only [List.cons_append, List.cons.injEq, true_and] at hsplit
  rw [hsplit, List.drop_left' (by rw [List.length_take]; omega)]

theorem readPayloadSize_arrives (hlen : ws.readStrLen = 6) (hopen : ws.connectionClosed = false)
    (hclean : ws.socket.Clean) (hbytes : headerLength second ≤ 6 + ws.socket.bytes.length) :
    ∃ ret ws', readPayloadSize (second &&& 0x7F).toNat ws = some (ret, ws') ∧
      ws'.connectionClosed = false := by
  -- The extended length is read whole.
  have hread : ∀ k, 0 < k → k ≤ 8 → 6 + k = headerLength second →
      ∃ ws', readNBytes (k : Nat) (k : Nat) ws = some (0, ws') ∧ ws'.connectionClosed = false := by
    intro k hpos hle hk
    obtain ⟨ws', hread, htakes, -⟩ :=
      readNBytes_delivers hpos hclean.errorFree.delivers (show k ≤ ws.socket.bytes.length by omega)
    rw [hlen, if_neg (by unfold kserverReadStrLen; omega)] at hread
    exact ⟨ws', hread, htakes.connectionClosed.trans hopen⟩
  have hchecked : ∀ ws' : WebSocket, ws'.connectionClosed = false →
      ∃ ret ws'', checkPayloadSize ws' = (ret, ws'') ∧ ws''.connectionClosed = false := by
    intro ws' hopen'
    unfold checkPayloadSize
    split
    · exact ⟨-1, ws', rfl, hopen'⟩
    · exact ⟨0, ws', rfl, hopen'⟩
  rcases headerLength_cases second with ⟨hsize, hhead⟩ | ⟨hsize, hhead⟩ | ⟨hsize, hhead⟩
  · obtain ⟨ret, ws', hcheck, hopen'⟩ :=
      hchecked (ws.setSize 6 (second &&& 0x7F).toNat 2) hopen
    exact ⟨ret, ws', by rw [readPayloadSize, if_pos hsize, hcheck], hopen'⟩
  · obtain ⟨ws', hread₂, hopen'⟩ := hread 2 (by decide) (by decide) (by omega)
    obtain ⟨ret, ws'', hcheck, hopen''⟩ :=
      hchecked (ws'.setSize 8 (extractUint16 (ws'.readStr.offset 2)).toNat 4) hopen'
    have htwo : readNBytes 2 2 ws = some (0, ws') := hread₂
    refine ⟨ret, ws'', ?_, hopen''⟩
    simp only [hsize, readPayloadSize, htwo, hopen']
    exact congrArg some hcheck
  · obtain ⟨ws', hread₈, hopen'⟩ := hread 8 (by decide) (by decide) (by omega)
    obtain ⟨ret, ws'', hcheck, hopen''⟩ :=
      hchecked (ws'.setSize 14 (extractUint64 (ws'.readStr.offset 2)).toInt 10) hopen'
    have height : readNBytes 8 8 ws = some (0, ws') := hread₈
    refine ⟨ret, ws'', ?_, hopen''⟩
    simp only [hsize, readPayloadSize, height, hopen']
    exact congrArg some hcheck

/-- A header that states a length, with four bytes behind it, is read with that length; it is an
error only when the length is too large for the buffer. -/
theorem readHeader_stated {extended key : Bytes} {n : Nat} (hempty : ws.readStrLen = 0)
    (hopen : ws.connectionClosed = false) (hopcode : TextOrBinary first) (hkey : key.length = 4)
    (hstated : statedLength second extended = some n) (hn : n < 2 ^ 63)
    (hdelivers : ws.socket.Delivers (first :: second :: (extended ++ (key ++ rest)))) :
    ∃ ws', readHeader ws = some (if websockReadStrLen - 56 < n then -1 else 0, ws') ∧
      HeaderStated extended n ws' := by
  have hfour : 4 ≤ (extended ++ (key ++ rest)).length := by
    simp only [List.length_append]
    omega
  obtain ⟨ws₁, -, htakes, hreceived, hrest, hread⟩ := readHeader_six hempty hopen hdelivers hfour
  have hcode := hopcode.checkOpcode
  have hkeyLen : (extended ++ key).length = extended.length + 4 := by
    rw [List.length_append, hkey]
  have hall : extended ++ (key ++ rest) = extended ++ key ++ rest := (List.append_assoc _ _ _).symm
  have hfirst : (extended ++ (key ++ rest)).take 4 = (extended ++ key).take 4 := by
    rw [hall, List.take_append_of_le_length (by omega)]
  have hlater : (extended ++ (key ++ rest)).drop 4 = (extended ++ key).drop 4 ++ rest := by
    rw [hall, List.drop_append_of_le_length (by omega)]
  rw [hfirst] at hreceived
  rw [hlater] at hrest
  have hsix : (ws₁.setBits first second).readStrLen = 6 := by
    have hlen := congrArg List.length hreceived
    simp only [WebSocket.received, Memory.load_length, List.length_cons, List.length_take] at hlen
    show ws₁.readStrLen = 6
    omega
  rw [hread, if_neg (by rw [hcode]; decide), if_neg (by rw [hcode]; decide)]
  obtain ⟨ws', hsize, hheader, -⟩ := readPayloadSize_stated hsix
    (htakes.connectionClosed.trans hopen) hreceived (List.take_append_drop 4 (extended ++ key))
    (by rw [List.length_drop]; omega) hrest hstated hn
  exact ⟨ws', hsize, hheader⟩

/-- A header that arrives is read with a result, and the connection stays open unless the header
says that it is closed. -/
theorem readHeader_arrives (hempty : ws.readStrLen = 0) (hopen : ws.connectionClosed = false)
    (hclean : ws.socket.Clean) (hheader : HeaderArrives ws.socket.bytes) :
    ∃ ret ws', readHeader ws = some (ret, ws') ∧ (ret = 0 → ws'.connectionClosed = false) ∧
      (∀ first rest, ws.socket.bytes = first :: rest → TextOrBinary first → ret ≠ 1) := by
  obtain ⟨first, second, rest, hbytes, hlen⟩ := hheader
  have hfour : 4 ≤ rest.length := by
    rw [hbytes, List.length_cons, List.length_cons] at hlen
    rcases headerLength_cases second with ⟨-, h⟩ | ⟨-, h⟩ | ⟨-, h⟩ <;> omega
  obtain ⟨ws₁, htakes, hclean₁, hrest, hread⟩ :=
    readHeader_six_clean hempty hopen hclean hbytes hfour
  rw [hread]
  split
  case isTrue => exact ⟨-1, _, rfl, fun h => absurd h (by decide), fun _ _ _ _ => by decide⟩
  case isFalse =>
      split
      case isTrue hclose =>
          refine ⟨1, _, rfl, fun h => absurd h (by decide), ?_⟩
          intro first' rest' hfirst hopcode
          rw [hbytes] at hfirst
          obtain ⟨rfl, -⟩ := List.cons.inj hfirst
          rw [hopcode.checkOpcode] at hclose
          cases hclose
      case isFalse =>
          have hsix : (ws₁.setBits first second).readStrLen = 6 := by
            show ws₁.readStrLen = 6
            rw [htakes.readStrLen, hempty, List.length_cons, List.length_cons, List.length_take]
            omega
          have hmore : headerLength second ≤ 6 +
            (ws₁.setBits first second).socket.bytes.length := by
            show headerLength second ≤ 6 + ws₁.socket.bytes.length
            rw [hbytes, List.length_cons, List.length_cons] at hlen
            rw [hrest, List.length_drop]
            omega
          obtain ⟨ret, ws', hsize, hopen'⟩ :=
            readPayloadSize_arrives hsix (htakes.connectionClosed.trans hopen) hclean₁ hmore
          refine ⟨ret, ws', hsize, fun _ => hopen', fun _ _ _ _ hone => ?_⟩
          rcases readPayloadSize_ret hsize with h | h <;> omega

end

/-- A cut header closes the connection and leaves the fields of the header before. -/
theorem readHeader_cut {ws : WebSocket} (hempty : ws.readStrLen = 0)
    (hopen : ws.connectionClosed = false) (hclean : ws.socket.Clean)
    (hcut : HeaderCut ws.socket.bytes) :
    ∃ ws', readHeader ws = some (0, ws') ∧ ws'.connectionClosed = true ∧ ws'.socket.Clean ∧
      ws'.socket.bytes = [] ∧ ws'.header.payloadSize = ws.header.payloadSize := by
  -- A read that meets the end of the stream.
  have hclosed : ∀ (k : Nat) (ws₀ : WebSocket), ws₀.socket.Clean → ws₀.socket.bytes.length < k →
      ∃ ws', readNBytes k k ws₀ = some (1, ws') ∧ ws'.connectionClosed = true ∧ ws'.socket.Clean ∧
        ws'.socket.bytes = [] ∧ ws'.header = ws₀.header := by
    intro k ws₀ hclean₀ hshort
    obtain ⟨ws', hread, htakes⟩ := readNBytes_closed hclean₀.errorFree hclean₀.closed hshort
    obtain ⟨ret, ws'', hread', hclean'⟩ := readNBytes_clean (k : Int) hclean₀
    rw [hread] at hread'
    obtain ⟨-, rfl⟩ := Prod.mk.inj (Option.some.inj hread')
    refine ⟨_, hread, rfl, hclean', ?_, htakes.header⟩
    exact List.append_right_eq_self.mp htakes.socket.symm
  by_cases hsix : ws.socket.bytes.length < 6
  · obtain ⟨ws', hread, hclosed', hclean', hnil, hheader⟩ := hclosed 6 ws hclean hsix
    have hread' : readNBytes 6 6 ws = some (1, ws') := hread
    refine ⟨ws', ?_, hclosed', hclean', hnil, by rw [hheader]⟩
    simp only [readHeader, hread', hclosed']
    rfl
  · obtain ⟨first, second, rest, hbytes⟩ : ∃ first second rest,
        ws.socket.bytes = first :: second :: rest := by
      rcases hws : ws.socket.bytes with _ | ⟨first, _ | ⟨second, rest⟩⟩
      · rw [hws] at hsix
        exact absurd (by decide) hsix
      · rw [hws] at hsix
        exact absurd (by simp) hsix
      · exact ⟨first, second, rest, rfl⟩
    have hlen : ws.socket.bytes.length = rest.length + 2 := by rw [hbytes]; rfl
    have hshort : ws.socket.bytes.length < headerLength second := by
      by_contra hle
      exact hcut.short ⟨first, second, rest, hbytes, by omega⟩
    obtain ⟨ws₁, htakes, hclean₁, hrest, hread⟩ :=
      readHeader_six_clean hempty hopen hclean hbytes (by omega)
    have hcode := (hcut.opcode first _ hbytes).checkOpcode
    rw [hread, if_neg (by rw [hcode]; decide), if_neg (by rw [hcode]; decide)]
    have hleft : (ws₁.setBits first second).socket.bytes.length = rest.length - 4 := by
      show ws₁.socket.bytes.length = _
      rw [hrest, List.length_drop]
    have hstale : (ws₁.setBits first second).header.payloadSize = ws.header.payloadSize := by
      show ws₁.header.payloadSize = _
      rw [htakes.header]
    rcases headerLength_cases second with ⟨-, hhead⟩ | ⟨hsize, hhead⟩ | ⟨hsize, hhead⟩
    · omega
    · obtain ⟨ws', hread₂, hclosed', hclean', hnil, hheader⟩ :=
        hclosed 2 (ws₁.setBits first second) hclean₁ (by omega)
      have htwo : readNBytes 2 2 (ws₁.setBits first second) = some (1, ws') := hread₂
      refine ⟨ws', ?_, hclosed', hclean', hnil, by rw [hheader, hstale]⟩
      simp only [hsize, readPayloadSize, htwo, hclosed']
      rfl
    · obtain ⟨ws', hread₈, hclosed', hclean', hnil, hheader⟩ :=
        hclosed 8 (ws₁.setBits first second) hclean₁ (by omega)
      have height : readNBytes 8 8 (ws₁.setBits first second) = some (1, ws') := hread₈
      refine ⟨ws', ?_, hclosed', hclean', hnil, by rw [hheader, hstale]⟩
      simp only [hsize, readPayloadSize, height, hclosed']
      rfl

end KoheronServer.Websocket
