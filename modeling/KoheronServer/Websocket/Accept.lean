import KoheronServer.Websocket.Receive

/-!
# What a WebSocket accepts

The reading functions taken backwards: when one of them reports success on an
open connection, the bytes that have gone from the stream are those that its
result stands for. A read that meets the end of the stream closes the connection,
which the functions around it notice later than they go on.
-/

namespace KoheronServer.Websocket

open Foundation Wire Session

/-! ## Reads -/

theorem read_cases (s : ByteStream) {n : Nat} (hn : 0 < n) :
    (∃ bs s', s.read n = (.data bs, s') ∧ 0 < bs.length ∧ bs.length ≤ n ∧ s.bytes = bs ++ s'.bytes) ∨
    s.read n = (.closed, s) ∨ ∃ s', s.read n = (.error, s') ∧ s.bytes = s'.bytes := by
  have hne : n ≠ 0 := by omega
  obtain ⟨arrivals, ending⟩ := s
  cases arrivals with
  | nil =>
      cases ending with
      | closed => exact .inr (.inl (by simp [ByteStream.read, hne]))
      | failing => exact .inr (.inr ⟨_, by simp [ByteStream.read, hne], rfl⟩)
  | cons a rest =>
      cases a with
      | error => exact .inr (.inr ⟨⟨rest, ending⟩, by simp [ByteStream.read, hne], rfl⟩)
      | data c =>
          have hpos : 0 < c.bytes.length := List.length_pos_iff.mpr c.nonempty
          by_cases hc : n < c.bytes.length
          · refine .inl ⟨c.bytes.take n, ⟨.data (c.drop n hc) :: rest, ending⟩, ?_, ?_, ?_, ?_⟩
            · simp [ByteStream.read, hne, hc]
            · rw [List.length_take]
              omega
            · exact List.length_take_le n c.bytes
            · simp [ByteStream.bytes, Chunk.drop, ← List.append_assoc]
          · refine .inl ⟨c.bytes, ⟨rest, ending⟩, ?_, hpos, by omega, ?_⟩
            · simp [ByteStream.read, hne, hc]
            · simp [ByteStream.bytes]

/-- The inner loop of `read_n_bytes` takes bytes from the stream in order, `k` at most, and stops
in front of the last one only when `read` has not returned any. -/
theorem readWhile_takes (fuel k : Nat) (bytesRead : Int) (ws : WebSocket) (hfuel : k ≤ fuel) :
    ∃ taken bytesRead' ws', taken.length ≤ k ∧ Takes ws taken ws' ∧
      readWhile fuel ⟨k, k, bytesRead, ws⟩ =
        ⟨(k - taken.length : Nat), (k - taken.length : Nat), bytesRead', ws'⟩ ∧
      (taken.length = k ∧ (bytesRead' = 0 → k = 0 ∧ bytesRead = 0) ∨ bytesRead' = 0 ∨
        bytesRead' = -1) := by
  induction fuel generalizing k bytesRead ws with
  | zero =>
      obtain rfl : k = 0 := by omega
      exact ⟨[], bytesRead, ws, Nat.le_refl _, Takes.refl ws, rfl, .inl ⟨rfl, fun h => ⟨rfl, h⟩⟩⟩
  | succ fuel ih =>
      by_cases hpos : 0 < k
      · unfold readWhile
        rw [if_pos (by simpa using hpos), Int.toNat_natCast]
        rcases read_cases ws.socket hpos with ⟨bs, socket, hread, hlen, hle, hbytes⟩ | hread |
          ⟨socket, hread, hbytes⟩
        · have hstep := takes_push ws bs hbytes
          obtain ⟨taken, bytesRead', ws', htaken, htakes, hrest, hend⟩ :=
            ih (k - bs.length) bs.length (ws.push bs socket) (by omega)
          have hremaining : (k : Int) - bs.length = ((k - bs.length : Nat) : Int) := by omega
          have hexpected : max 0 ((k - bs.length : Nat) : Int) = ((k - bs.length : Nat) : Int) := by
            omega
          have hleft : k - bs.length - taken.length = k - (bs ++ taken).length := by
            rw [List.length_append]
            omega
          rw [hleft] at hrest
          refine ⟨bs ++ taken, bytesRead', ws', ?_, hstep.trans htakes, ?_, ?_⟩
          · rw [List.length_append]
            omega
          · simp only [hread, hremaining, hexpected]
            exact hrest
          · rcases hend with ⟨hall, hzero⟩ | hend
            · refine .inl ⟨by rw [List.length_append]; omega, ?_⟩
              intro h
              have hcontra := (hzero h).2
              omega
            · exact .inr hend
        · refine ⟨[], 0, ws, Nat.zero_le _, Takes.refl ws, ?_, .inr (.inl rfl)⟩
          simp only [hread]
          rfl
        · have htakes : Takes ws [] { ws with socket := socket } := by
            constructor <;> simp [WebSocket.received, hbytes]
          refine ⟨[], -1, _, Nat.zero_le _, htakes, ?_, .inr (.inr rfl)⟩
          simp only [hread]
          rfl
      · obtain rfl : k = 0 := by omega
        exact ⟨[], bytesRead, ws, Nat.le_refl _, Takes.refl ws, rfl, .inl ⟨rfl, fun h => ⟨rfl, h⟩⟩⟩

/-- `read_n_bytes` that returns has failed, has closed the connection or has taken its bytes. -/
theorem readExpected_takes (fuel k : Nat) (bytesRead : Int) (ws : WebSocket) {ret : Int}
    {ws' : WebSocket} (hpast : bytesRead ≠ 0)
    (h : readExpected fuel ⟨k, k, bytesRead, ws⟩ = some (ret, ws')) :
    ret = -1 ∨ ret = 1 ∧ ws'.connectionClosed = true ∨
      ret = 0 ∧ (0 < k → ws'.readStrLen ≠ kserverReadStrLen) ∧
        ∃ taken, taken.length = k ∧ Takes ws taken ws' := by
  induction fuel generalizing k bytesRead ws with
  | zero => cases h
  | succ fuel ih =>
      unfold readExpected at h
      by_cases hpos : 0 < k
      · rw [if_pos (by simpa using hpos), Int.toNat_natCast] at h
        obtain ⟨taken, bytesRead', ws₁, htaken, htakes, hwhile, hend⟩ :=
          readWhile_takes k k bytesRead ws (Nat.le_refl k)
        simp only [hwhile] at h
        by_cases hzero : bytesRead' = 0
        · rw [if_pos hzero] at h
          cases h
          exact .inr (.inl ⟨rfl, rfl⟩)
        · rw [if_neg hzero] at h
          by_cases hfull : ws₁.readStrLen = kserverReadStrLen
          · rw [if_pos hfull] at h
            cases h
            exact .inl rfl
          · rw [if_neg hfull] at h
            rcases ih (k - taken.length) bytesRead' ws₁ hzero h with
              hret | hret | ⟨hret, hlen, more, hmore, htakes'⟩
            · exact .inl hret
            · exact .inr (.inl hret)
            · refine .inr (.inr ⟨hret, ?_, taken ++ more, ?_, htakes.trans htakes'⟩)
              · intro _
                by_cases hrest : 0 < k - taken.length
                · exact hlen hrest
                · rw [htakes'.readStrLen, hmore, Nat.eq_zero_of_not_pos hrest]
                  exact hfull
              · rw [List.length_append]
                omega
      · obtain rfl : k = 0 := by omega
        rw [if_neg (by simp)] at h
        cases h
        exact .inr (.inr ⟨rfl, fun h => absurd h hpos, [], rfl, Takes.refl ws⟩)

theorem readNBytes_takes {k : Nat} {ws ws' : WebSocket} {ret : Int}
    (h : readNBytes k k ws = some (ret, ws')) :
    ret = -1 ∨ ret = 1 ∧ ws'.connectionClosed = true ∨
      ret = 0 ∧ (0 < k → ws'.readStrLen ≠ kserverReadStrLen) ∧
        ∃ taken, taken.length = k ∧ Takes ws taken ws' :=
  readExpected_takes _ k (-1) ws (by decide) h

/-- Behind a read without an error the connection is closed or the bytes have been taken. -/
theorem readNBytes_open {k : Nat} {ws ws' : WebSocket} {ret : Int}
    (h : readNBytes k k ws = some (ret, ws')) (hret : ¬ret < 0)
    (hopen : ws'.connectionClosed = false) :
    ret = 0 ∧ (0 < k → ws'.readStrLen ≠ kserverReadStrLen) ∧
      ∃ taken, taken.length = k ∧ Takes ws taken ws' := by
  rcases readNBytes_takes h with rfl | ⟨-, hclosed⟩ | htakes
  · omega
  · rw [hopen] at hclosed
    cases hclosed
  · exact htakes

/-- A read of no bytes, or of a negative number of them, does nothing. -/
theorem readNBytes_nonpos {n : Int} (hn : n ≤ 0) (ws : WebSocket) :
    readNBytes n n ws = some (0, ws) := by
  unfold readNBytes readExpected
  rw [if_neg (by simpa using hn)]

/-- On a clean stream the inner loop goes on to its last byte or to the end of the stream. -/
theorem readWhile_clean (fuel k : Nat) (bytesRead : Int) (ws : WebSocket) (hfuel : k ≤ fuel)
    (hclean : ws.socket.Clean) :
    (readWhile fuel ⟨k, k, bytesRead, ws⟩).ws.socket.Clean ∧
      ((readWhile fuel ⟨k, k, bytesRead, ws⟩).bytesRead = 0 ∨
        (readWhile fuel ⟨k, k, bytesRead, ws⟩).expected = 0) := by
  induction fuel generalizing k bytesRead ws with
  | zero =>
      obtain rfl : k = 0 := by omega
      exact ⟨hclean, .inr rfl⟩
  | succ fuel ih =>
      by_cases hpos : 0 < k
      · unfold readWhile
        rw [if_pos (by simpa using hpos), Int.toNat_natCast]
        by_cases hend : ws.socket.bytes = []
        · rw [ByteStream.read_closed hclean k hend]
          exact ⟨hclean, .inl rfl⟩
        · obtain ⟨bs, socket, hread, hne, hle, -, hsocket⟩ :=
            ByteStream.read_data hclean hpos hend
          have hremaining : (k : Int) - bs.length = ((k - bs.length : Nat) : Int) := by omega
          have hexpected : max 0 ((k - bs.length : Nat) : Int) = ((k - bs.length : Nat) : Int) := by
            omega
          have hlen := List.length_pos_iff.mpr hne
          simp only [hread, hremaining, hexpected]
          exact ih (k - bs.length) bs.length (ws.push bs socket) (by omega) hsocket
      · obtain rfl : k = 0 := by omega
        exact ⟨hclean, .inr rfl⟩

/-- `read_n_bytes` returns on a clean stream. -/
theorem readNBytes_clean (n : Int) {ws : WebSocket} (hclean : ws.socket.Clean) :
    ∃ ret ws', readNBytes n n ws = some (ret, ws') ∧ ws'.socket.Clean := by
  by_cases hpos : 0 < n
  · obtain ⟨k, rfl⟩ : ∃ k : Nat, n = k := ⟨n.toNat, by omega⟩
    obtain ⟨hsocket, hend⟩ := readWhile_clean k k (-1) ws (Nat.le_refl k) hclean
    unfold readNBytes readExpected
    rw [if_pos hpos, Int.toNat_natCast]
    by_cases hzero : (readWhile k ⟨k, k, -1, ws⟩).bytesRead = 0
    · exact ⟨1, { (readWhile k ⟨k, k, -1, ws⟩).ws with connectionClosed := true },
        by simp only [if_pos hzero], hsocket⟩
    · simp only [if_neg hzero]
      by_cases hfull : (readWhile k ⟨k, k, -1, ws⟩).ws.readStrLen = kserverReadStrLen
      · exact ⟨-1, _, by simp only [if_pos hfull], hsocket⟩
      · have hdone := hend.resolve_left hzero
        refine ⟨0, (readWhile k ⟨k, k, -1, ws⟩).ws, ?_, hsocket⟩
        unfold readExpected
        rw [if_neg hfull, if_neg (by rw [hdone]; decide)]
  · exact ⟨0, ws, readNBytes_nonpos (by omega) ws, hclean⟩

/-! ## Frames -/

def statedLength (second : Byte) (extended : Bytes) : Option Nat :=
  let streamSize := (second &&& 0x7F).toNat
  if streamSize ≤ 125 then if extended.length = 0 then some streamSize else none
  else if streamSize = 126 then if extended.length = 2 then some (beValue extended) else none
  else if extended.length = 8 then some (beValue extended) else none

/-- A frame as it stands in a stream, with four bytes of a masking key whether or not it has the
MASK bit. -/
@[ext]
structure StreamFrame where
  first : Byte
  second : Byte
  extended : Bytes
  key : Bytes
  data : Bytes
  key_length : key.length = 4
  stated : statedLength second extended = some data.length

namespace StreamFrame

def wire (f : StreamFrame) : Bytes := f.first :: f.second :: (f.extended ++ f.key) ++ f.data

def opcode (f : StreamFrame) : Nat := (f.first &&& 0x0F).toNat

def fin (f : StreamFrame) : Bool := f.first &&& 0x80 != 0

def masked (f : StreamFrame) : Bool := f.second &&& 0x80 != 0

def payload (f : StreamFrame) : Bytes :=
  f.data.mapIdx fun i b => b ^^^ Memory.ofBytes f.key (i % 4)

@[simp] theorem payload_length (f : StreamFrame) : f.payload.length = f.data.length := by
  simp [payload]

end StreamFrame

/-- A header that has been read up to the data. -/
structure HeaderTaken (first second : Byte) (extended key : Bytes) (ws ws' : WebSocket) : Prop where
  received : ws'.received = first :: second :: (extended ++ key)
  socket : ws.socket.bytes = first :: second :: (extended ++ key) ++ ws'.socket.bytes
  key_length : key.length = 4
  opcode : checkOpcode (first &&& 0x0F).toNat = 0
  headerSize : ws'.header.headerSize = 6 + extended.length
  maskOffset : ws'.header.maskOffset = 2 + extended.length
  payloadSize : ws'.header.payloadSize ≤ websockReadStrLen - 56
  stated : 0 ≤ ws'.header.payloadSize →
    statedLength second extended = some ws'.header.payloadSize.toNat

theorem checkPayloadSize_zero {ws ws' : WebSocket} (h : checkPayloadSize ws = (0, ws')) :
    ws' = ws ∧ ws.header.payloadSize ≤ websockReadStrLen - 56 := by
  unfold checkPayloadSize at h
  split at h
  · cases h
  · cases h
    exact ⟨rfl, by omega⟩

theorem HeaderTaken.of_setSize {ws₀ ws : WebSocket} {first second : Byte} {extended key : Bytes}
    (hreceived : ws.received = first :: second :: (extended ++ key))
    (hsocket : ws₀.socket.bytes = first :: second :: (extended ++ key) ++ ws.socket.bytes)
    (hkey : key.length = 4) (hopcode : checkOpcode (first &&& 0x0F).toNat = 0)
    {headerSize maskOffset : Nat} {payloadSize : Int} {ws' : WebSocket}
    (hheader : headerSize = 6 + extended.length) (hmask : maskOffset = 2 + extended.length)
    (hstated : 0 ≤ payloadSize → statedLength second extended = some payloadSize.toNat)
    (h : checkPayloadSize (ws.setSize headerSize payloadSize maskOffset) = (0, ws')) :
    HeaderTaken first second extended key ws₀ ws' := by
  obtain ⟨rfl, hbound⟩ := checkPayloadSize_zero h
  exact ⟨hreceived, hsocket, hkey, hopcode, hheader, hmask, hbound, hstated⟩

/-- The longer headers: as many bytes as the length has are read behind the first six. -/
theorem readNBytes_header {ws₀ ws ws' : WebSocket} {first second : Byte} {four : Bytes}
    (hreceived : ws.received = first :: second :: four)
    (hsocket : ws₀.socket.bytes = first :: second :: four ++ ws.socket.bytes)
    (hfour : four.length = 4) {k : Nat} {ret : Int} (hread : readNBytes k k ws = some (ret, ws'))
    (hret : ¬ret < 0) (hopen : ws'.connectionClosed = false) :
    ∃ extended key, extended.length = k ∧ key.length = 4 ∧
      ws'.received = first :: second :: (extended ++ key) ∧
      ws₀.socket.bytes = first :: second :: (extended ++ key) ++ ws'.socket.bytes ∧
      ws'.readStr.load 2 k = extended := by
  obtain ⟨-, -, more, rfl, htakes⟩ := readNBytes_open hread hret hopen
  have hsplit := List.take_append_drop more.length (four ++ more)
  have hextended : ((four ++ more).take more.length).length = more.length := by
    rw [List.length_take, List.length_append]
    omega
  have hall : ws'.received = first :: second ::
      ((four ++ more).take more.length ++ (four ++ more).drop more.length) := by
    rw [hsplit, htakes.received, hreceived]
    rfl
  refine ⟨(four ++ more).take more.length, (four ++ more).drop more.length, hextended, ?_,
    hall, ?_, ?_⟩
  · rw [List.length_drop, List.length_append]
    omega
  · rw [hsplit, hsocket, htakes.socket]
    simp
  · have hload := load_received [first, second] ((four ++ more).take more.length)
      ((four ++ more).drop more.length) hall
    rwa [hextended] at hload

theorem toInt_toNat {w : Nat} {x : BitVec w} (h : 0 ≤ x.toInt) : x.toInt.toNat = x.toNat := by
  rw [BitVec.toInt_eq_toNat_cond] at h ⊢
  split
  · rfl
  · rename_i hneg
    rw [if_neg hneg] at h
    have hlt := x.isLt
    omega

/-- How `readPayloadSize` ends: without a length, or with the check of one that stands in the
second byte or in the `k` bytes behind it. -/
inductive PayloadSizeRead (streamSize : Nat) (ws : WebSocket) : Int → WebSocket → Prop where
  | failed {ws' : WebSocket} : PayloadSizeRead streamSize ws (-1) ws'
  | closed {ws' : WebSocket} (hclosed : ws'.connectionClosed = true) :
      PayloadSizeRead streamSize ws 0 ws'
  | small {ws' : WebSocket} {ret : Int} (hsmall : streamSize ≤ 125)
      (hcheck : checkPayloadSize (ws.setSize 6 streamSize 2) = (ret, ws')) :
      PayloadSizeRead streamSize ws ret ws'
  | extended {ws₁ ws' : WebSocket} {k : Nat} {err payloadSize ret : Int}
      (hk : streamSize = 126 ∧ k = 2 ∨ streamSize = 127 ∧ k = 8)
      (hread : readNBytes k k ws = some (err, ws₁)) (herr : ¬err < 0)
      (hopen : ws₁.connectionClosed = false)
      (hsize : 0 ≤ payloadSize → payloadSize.toNat = beValue (ws₁.readStr.load 2 k))
      (hcheck : checkPayloadSize (ws₁.setSize (6 + k) payloadSize (2 + k)) = (ret, ws')) :
      PayloadSizeRead streamSize ws ret ws'

theorem readPayloadSize_cases {streamSize : Nat} {ws ws' : WebSocket} {ret : Int}
    (h : readPayloadSize streamSize ws = some (ret, ws')) :
    PayloadSizeRead streamSize ws ret ws' := by
  unfold readPayloadSize at h
  split at h
  · rename_i hsmall
    exact .small hsmall (Option.some.inj h)
  · split at h
    · rename_i hmedium
      split at h
      · cases h
      · rename_i err ws₁ hread
        split at h
        · cases h
          exact .failed
        · rename_i herr
          split at h
          · rename_i hclosed
            cases h
            exact .closed hclosed
          · rename_i hopen
            refine .extended (.inl ⟨hmedium, rfl⟩) hread herr (by simpa using hopen) ?_
              (Option.some.inj h)
            intro _
            rw [Int.toNat_natCast, extractUint16_toNat, Memory.load_offset]
    · split at h
      · rename_i hbig
        split at h
        · cases h
        · rename_i err ws₁ hread
          split at h
          · cases h
            exact .failed
          · rename_i herr
            split at h
            · rename_i hclosed
              cases h
              exact .closed hclosed
            · rename_i hopen
              refine .extended (.inr ⟨hbig, rfl⟩) hread herr (by simpa using hopen) ?_
                (Option.some.inj h)
              intro hpos
              rw [toInt_toNat hpos, extractUint64_toNat, Memory.load_offset]
      · cases h
        exact .failed

theorem readPayloadSize_taken {ws₀ ws ws' : WebSocket} {first second : Byte} {four : Bytes}
    (hreceived : ws.received = first :: second :: four)
    (hsocket : ws₀.socket.bytes = first :: second :: four ++ ws.socket.bytes)
    (hfour : four.length = 4) (hopcode : checkOpcode (first &&& 0x0F).toNat = 0)
    (h : readPayloadSize (second &&& 0x7F).toNat ws = some (0, ws'))
    (hopen : ws'.connectionClosed = false) :
    ∃ extended key, HeaderTaken first second extended key ws₀ ws' := by
  cases readPayloadSize_cases h with
  | closed hclosed =>
      rw [hopen] at hclosed
      cases hclosed
  | small hsmall hcheck =>
      refine ⟨[], four, .of_setSize hreceived hsocket hfour hopcode rfl rfl ?_ hcheck⟩
      intro _
      unfold statedLength
      rw [if_pos hsmall]
      rfl
  | extended hk hread herr hopen₁ hsize hcheck =>
      obtain ⟨extended, key, hextended, hkey, hall, hbytes, hload⟩ :=
        readNBytes_header hreceived hsocket hfour hread herr hopen₁
      refine ⟨extended, key, .of_setSize hall hbytes hkey hopcode (by rw [hextended])
        (by rw [hextended]) ?_ hcheck⟩
      intro hpos
      rw [hsize hpos, hload]
      unfold statedLength
      rcases hk with ⟨hmedium, rfl⟩ | ⟨hbig, rfl⟩
      · rw [if_neg (by omega), if_pos hmedium, if_pos hextended]
      · rw [if_neg (by omega), if_neg (by omega), if_pos hextended]

theorem checkOpcode_zero {opcode : Nat} (hneg : ¬checkOpcode opcode < 0)
    (hclose : ¬checkOpcode opcode = 1) : checkOpcode opcode = 0 := by
  unfold checkOpcode at *
  split at hneg
  · rfl
  · rfl
  · exact absurd rfl hclose
  · exact absurd (by decide) hneg

theorem readHeader_taken {ws ws' : WebSocket} (hempty : ws.readStrLen = 0)
    (h : readHeader ws = some (0, ws')) (hopen : ws'.connectionClosed = false) :
    ∃ first second extended key, HeaderTaken first second extended key ws ws' := by
  unfold readHeader at h
  cases hread : readNBytes 6 6 ws with
  | none => simp [hread] at h
  | some result =>
      obtain ⟨err, ws₁⟩ := result
      simp only [hread] at h
      by_cases herr : err < 0
      · simp [herr] at h
      · rw [if_neg herr] at h
        cases hclosed : ws₁.connectionClosed with
        | true =>
            simp only [hclosed, if_true, Option.some.injEq, Prod.mk.injEq, true_and] at h
            rw [← h, hclosed] at hopen
            cases hopen
        | false =>
            simp only [hclosed, Bool.false_eq_true, if_false] at h
            obtain ⟨-, -, head, hhead, htakes⟩ := readNBytes_open (k := 6) hread herr hclosed
            rcases head with _ | ⟨first, _ | ⟨second, four⟩⟩
            · cases hhead
            · cases hhead
            · have hnil : ws.received = [] := by rw [WebSocket.received, hempty]; rfl
              have hreceived : ws₁.received = first :: second :: four := by
                rw [htakes.received, hnil]
                rfl
              have hbytes := load_received [] [first, second] four hreceived
              have hfirst : ws₁.readStr 0 = first := List.head_eq_of_cons_eq hbytes
              have hsecond : ws₁.readStr 1 = second :=
                List.head_eq_of_cons_eq (List.tail_eq_of_cons_eq hbytes)
              rw [hfirst, hsecond] at h
              by_cases hneg : checkOpcode (first &&& 0x0F).toNat < 0
              · rw [if_pos (by exact hneg)] at h
                cases h
              · rw [if_neg (by exact hneg)] at h
                by_cases hclose : checkOpcode (first &&& 0x0F).toNat = 1
                · rw [if_pos (by exact hclose), Option.some.injEq, Prod.mk.injEq] at h
                  have hret : checkOpcode (first &&& 0x0F).toNat = 0 := h.1
                  omega
                · rw [if_neg (by exact hclose)] at h
                  have hbits : (ws₁.setBits first second).received =
                    first :: second :: four := hreceived
                  have hsocket : ws.socket.bytes =
                      first :: second :: four ++ (ws₁.setBits first second).socket.bytes :=
                        htakes.socket
                  obtain ⟨extended, key, htaken⟩ :=
                    readPayloadSize_taken hbits hsocket (by simpa using hhead)
                    (checkOpcode_zero hneg hclose) h hopen
                  exact ⟨first, second, extended, key, htaken⟩

theorem checkPayloadSize_ret {ws ws' : WebSocket} {ret : Int}
    (h : checkPayloadSize ws = (ret, ws')) : ret = -1 ∨ ret = 0 := by
  unfold checkPayloadSize at h
  split at h
  · cases h
    exact .inl rfl
  · cases h
    exact .inr rfl

theorem readPayloadSize_ret {streamSize : Nat} {ws ws' : WebSocket} {ret : Int}
    (h : readPayloadSize streamSize ws = some (ret, ws')) : ret = -1 ∨ ret = 0 := by
  cases readPayloadSize_cases h with
  | failed => exact .inl rfl
  | closed _ => exact .inr rfl
  | small _ hcheck => exact checkPayloadSize_ret hcheck
  | extended _ _ _ _ _ hcheck => exact checkPayloadSize_ret hcheck

/-- `read_header` returns 1 only when the client has closed the connection. -/
theorem readHeader_ret {ws ws' : WebSocket} {ret : Int} (h : readHeader ws = some (ret, ws')) :
    ret = -1 ∨ ret = 0 ∨ ret = 1 ∧ ws'.connectionClosed = true := by
  unfold readHeader at h
  split at h
  · cases h
  · split at h
    · cases h
      exact .inl rfl
    · split at h
      · cases h
        exact .inr (.inl rfl)
      · dsimp only at h
        split at h
        · cases h
          exact .inl rfl
        · split at h
          · rename_i hclose
            cases h
            exact .inr (.inr ⟨hclose, rfl⟩)
          · rcases readPayloadSize_ret h with hret | hret
            · exact .inl hret
            · exact .inr (.inl hret)

/-- A frame that has been read to its last byte. -/
structure FrameTaken (f : StreamFrame) (ws ws' : WebSocket) : Prop where
  received : ws'.received = f.wire
  socket : ws.socket.bytes = f.wire ++ ws'.socket.bytes
  opcode : checkOpcode f.opcode = 0
  headerSize : ws'.header.headerSize = 6 + f.extended.length
  maskOffset : ws'.header.maskOffset = 2 + f.extended.length
  payloadSize : ws'.header.payloadSize = f.data.length
  bounded : f.data.length ≤ websockReadStrLen - 56
  length : f.wire.length ≠ kserverReadStrLen

/-- The payload behind a header of a connection that is still open. -/
theorem readPayload_taken {ws ws₁ ws' : WebSocket}
    (hheader : readHeader (resetReadBuff ws) = some (0, ws₁))
    {err : Int} (hread : readNBytes ws₁.header.payloadSize ws₁.header.payloadSize ws₁ = some (err, ws'))
    (herr : ¬err < 0) (hopen : ws'.connectionClosed = false) (hpos : 0 < ws'.header.payloadSize) :
    err = 0 ∧ ∃ f, FrameTaken f ws ws' := by
  by_cases hnone : ws₁.header.payloadSize ≤ 0
  · rw [readNBytes_nonpos hnone] at hread
    cases hread
    omega
  · obtain ⟨k, hk⟩ : ∃ k : Nat, ws₁.header.payloadSize = k :=
      ⟨ws₁.header.payloadSize.toNat, by omega⟩
    rw [hk] at hread
    obtain ⟨hzero, hlen, data, hdata, htakes⟩ := readNBytes_open hread herr hopen
    have hopen₁ : ws₁.connectionClosed = false := htakes.connectionClosed.symm.trans hopen
    obtain ⟨first, second, extended, key, hhead⟩ :=
      readHeader_taken (show (resetReadBuff ws).readStrLen = 0 from rfl) hheader hopen₁
    have hstated := hhead.stated (by omega)
    have hbound := hhead.payloadSize
    rw [hk, Int.toNat_natCast, ← hdata] at hstated
    have hreceived : ws'.received = first :: second :: (extended ++ key) ++ data := by
      rw [htakes.received, hhead.received]
    refine ⟨hzero, ⟨first, second, extended, key, data, hhead.key_length, hstated⟩, hreceived, ?_,
      hhead.opcode, ?_, ?_, ?_, ?_, ?_⟩
    · have hsocket : ws.socket.bytes = first :: second :: (extended ++ key) ++ ws₁.socket.bytes :=
        hhead.socket
      rw [hsocket, htakes.socket, ← List.append_assoc]
      rfl
    · rw [htakes.header, hhead.headerSize]
    · rw [htakes.header, hhead.maskOffset]
    · rw [htakes.header, hk, hdata]
    · show data.length ≤ websockReadStrLen - 56
      unfold websockReadStrLen at hbound ⊢
      omega
    · have htotal := congrArg List.length hreceived
      rw [WebSocket.received, Memory.load_length] at htotal
      show (first :: second :: (extended ++ key) ++ data).length ≠ kserverReadStrLen
      rw [← htotal]
      exact hlen (by omega)

theorem readStream_taken {ws ws' : WebSocket} {ret : Int} (h : readStream ws = some (ret, ws'))
    (hret : ¬ret < 0) (hopen : ws'.connectionClosed = false) (hpos : 0 < ws'.header.payloadSize) :
    ret = 0 ∧ ∃ f, FrameTaken f ws ws' := by
  unfold readStream at h
  cases hheader : readHeader (resetReadBuff ws) with
  | none => simp [hheader] at h
  | some result =>
      obtain ⟨err, ws₁⟩ := result
      simp only [hheader] at h
      rcases readHeader_ret hheader with rfl | rfl | ⟨rfl, hclosed⟩
      · simp only [Int.reduceNeg, Int.reduceLT, if_true, Option.some.injEq, Prod.mk.injEq] at h
        omega
      · simp only [Int.lt_irrefl, if_false, Int.reduceEq] at h
        cases hread : readNBytes ws₁.header.payloadSize ws₁.header.payloadSize ws₁ with
        | none => simp [hread] at h
        | some result =>
            obtain ⟨err, ws₂⟩ := result
            simp only [hread] at h
            by_cases herr : err < 0
            · simp only [if_pos herr, Option.some.injEq, Prod.mk.injEq] at h
              omega
            · rw [if_neg herr] at h
              cases h
              exact readPayload_taken hheader hread herr hopen hpos
      · simp only [Int.reduceLT, if_false, if_true, Option.some.injEq, Prod.mk.injEq] at h
        rw [← h.2, hclosed] at hopen
        cases hopen

/-! ## Commands -/

theorem unmask_taken {f : StreamFrame} {ws ws' : WebSocket} (h : FrameTaken f ws ws')
    {first n : Nat}
    (hn : first + n ≤ f.data.length) : unmask ws' first n = (f.payload.drop first).take n := by
  refine unmask_received (f.first :: f.second :: f.extended) f.key f.data ?_ ?_ f.key_length hn
  · rw [h.received, StreamFrame.wire]
    simp
  · rw [h.maskOffset, List.length_cons, List.length_cons]
    omega

/-- A command from a frame: the header and the front of the payload are the payload of `f`. -/
structure CommandOf (f : StreamFrame) (cmd : CommandBuffers) : Prop where
  opcode : f.opcode = 0x1 ∨ f.opcode = 0x2
  least : headerSize ≤ f.payload.length
  most : f.payload.length ≤ websockReadStrLen - 56
  header : cmd.header.load 0 headerSize = f.payload.take headerSize
  payload : cmd.payload.load 0 (f.payload.length - headerSize) = f.payload.drop headerSize

theorem opcode_of_check {opcode : Nat} (h : checkOpcode opcode = 0) : opcode = 0x1 ∨
    opcode = 0x2 := by
  unfold checkOpcode at h
  split at h
  · exact .inl rfl
  · exact .inr rfl
  · cases h
  · cases h

/-- The command of a frame: both buffers begin with a part of its payload. -/
def commandOf (f : StreamFrame) (cmd : CommandBuffers) : CommandBuffers where
  header := cmd.header.store 0 (f.payload.take headerSize)
  payload := cmd.payload.store 0 (f.payload.drop headerSize)

theorem decodeRawStreamCmd_taken {f : StreamFrame} (hmin : headerSize ≤ f.data.length)
    {ws ws' : WebSocket} (h : FrameTaken f ws ws') (cmd : CommandBuffers) :
    decodeRawStreamCmd ws' cmd = (0, commandOf f cmd) := by
  have hlen : ws'.readStrLen = 6 + f.extended.length + f.data.length := by
    have hlen := congrArg List.length h.received
    simp only [WebSocket.received, Memory.load_length, StreamFrame.wire, List.length_append,
      List.length_cons, f.key_length] at hlen
    omega
  have hheader : unmask ws' 0 headerSize = f.payload.take headerSize := by
    rw [unmask_taken h (by omega), List.drop_zero]
  have hpayload : unmask ws' headerSize (ws'.header.payloadSize - headerSize).toNat =
      f.payload.drop headerSize := by
    have hcount : (ws'.header.payloadSize - headerSize).toNat = f.data.length - headerSize := by
      rw [h.payloadSize]
      omega
    rw [hcount, unmask_taken h (by omega)]
    exact List.take_of_length_le (by rw [List.length_drop, f.payload_length])
  unfold decodeRawStreamCmd
  rw [if_neg (by rw [hlen, h.headerSize]; unfold headerSize at hmin; omega), hheader, hpayload]
  rfl

theorem commandOf_taken {f : StreamFrame} (hmin : headerSize ≤ f.data.length) {ws ws' : WebSocket}
    (h : FrameTaken f ws ws') (cmd : CommandBuffers) : CommandOf f (commandOf f cmd) := by
  refine ⟨opcode_of_check h.opcode, ?_, ?_, ?_, ?_⟩
  · rwa [f.payload_length]
  · rw [f.payload_length]
    exact h.bounded
  · have hload := Memory.load_store_self cmd.header 0 (f.payload.take headerSize)
    rwa [List.length_take, Nat.min_eq_left (by rwa [f.payload_length])] at hload
  · have hload := Memory.load_store_self cmd.payload 0 (f.payload.drop headerSize)
    rwa [List.length_drop] at hload

theorem receiveCmd_taken {cmd cmd' : CommandBuffers} {ws ws' : WebSocket} {ret : Int}
    (h : receiveCmd cmd ws = some (ret, cmd', ws')) (hret : ¬ret < 0)
    (hopen : ws'.connectionClosed = false) (hpos : 0 < ws'.header.payloadSize) :
    ws.connectionClosed = false ∧ readStream ws = some (0, ws') ∧
      ∃ f, FrameTaken f ws ws' ∧ cmd' = (decodeRawStreamCmd ws' cmd).2 := by
  unfold receiveCmd at h
  cases hclosed : ws.connectionClosed with
  | true =>
      rw [hclosed, if_pos rfl] at h
      cases h
      rw [hopen] at hclosed
      cases hclosed
  | false =>
      refine ⟨rfl, ?_⟩
      rw [hclosed, if_neg (by decide)] at h
      cases hstream : readStream ws with
      | none => simp [hstream] at h
      | some result =>
          obtain ⟨err, ws₁⟩ := result
          simp only [hstream] at h
          by_cases hneg : err < 0
          · rw [if_pos hneg] at h
            cases h
            exact absurd (by decide) hret
          · rw [if_neg hneg] at h
            by_cases hone : err = 1
            · rw [if_pos hone] at h
              cases h
              have hzero := (readStream_taken hstream hneg hopen hpos).1
              omega
            · rw [if_neg hone] at h
              by_cases hdecode : (decodeRawStreamCmd ws₁ cmd).1 < 0
              · rw [if_pos hdecode] at h
                cases h
                exact absurd (by decide) hret
              · rw [if_neg hdecode] at h
                cases h
                obtain ⟨hzero, f, hframe⟩ := readStream_taken hstream hneg hopen hpos
                exact ⟨hzero ▸ rfl, f, hframe, rfl⟩

/-- A command that has been read: the frame `f` has gone from the stream, and is the command. -/
structure CommandTaken (f : StreamFrame) (ws : WebSocket) (read : CommandRead WebSocket)
    (cmd : CommandBuffers) : Prop where
  frame : FrameTaken f ws read.session
  stream : readStream ws = some (0, read.session)
  command : CommandOf f cmd
  ret : read.ret = headerSize
  ids : (read.device, read.operation) = decodeHeader cmd.header
  before : ws.connectionClosed = false
  behind : read.session.connectionClosed = false

/-- A `read_command` with a positive result has taken one whole frame. -/
theorem readCommand_taken {cmd cmd' : CommandBuffers} {ws : WebSocket}
    {read : CommandRead WebSocket}
    (h : readCommand cmd ws = some (read, cmd')) (hret : 0 < read.ret) :
    ∃ f, CommandTaken f ws read cmd' := by
  unfold readCommand at h
  cases hreceive : receiveCmd cmd ws with
  | none => simp [hreceive] at h
  | some result =>
      obtain ⟨ret, cmd₁, ws₁⟩ := result
      simp only [hreceive] at h
      by_cases hneg : ret < 0
      · rw [if_pos hneg] at h
        cases h
        exact absurd hret (show ¬(0 : Int) < -1 by decide)
      · rw [if_neg hneg] at h
        by_cases hclosed : ws₁.connectionClosed = true
        · rw [if_pos hclosed] at h
          cases h
          exact absurd hret (show ¬(0 : Int) < 0 by decide)
        · rw [if_neg hclosed] at h
          by_cases hsmall : ws₁.header.payloadSize < headerSize
          · rw [if_pos hsmall] at h
            cases h
            exact absurd hret (show ¬(0 : Int) < -1 by decide)
          · rw [if_neg hsmall] at h
            cases h
            have hopen : ws₁.connectionClosed = false := by simpa using hclosed
            have hpos : 0 < ws₁.header.payloadSize := by
              unfold headerSize at hsmall
              omega
            obtain ⟨hbefore, hstream, f, hframe, hcmd⟩ := receiveCmd_taken hreceive hneg hopen hpos
            have hmin : headerSize ≤ f.data.length := by
              rw [hframe.payloadSize] at hsmall
              omega
            rw [decodeRawStreamCmd_taken hmin hframe cmd] at hcmd
            exact ⟨f, hframe, hstream, hcmd ▸ commandOf_taken hmin hframe cmd, rfl, rfl,
              hbefore, hopen⟩

/-- What is received does not depend on what the buffers of the command held. -/
theorem CommandTaken.readCommand_eq {f : StreamFrame} {ws : WebSocket}
    {read : CommandRead WebSocket}
    {cmd : CommandBuffers} (h : CommandTaken f ws read cmd) (cmd' : CommandBuffers) :
    readCommand cmd' ws =
      some (⟨headerSize, (decodeHeader (commandOf f cmd').header).1,
        (decodeHeader (commandOf f cmd').header).2, read.session⟩, commandOf f cmd') := by
  have hmin := h.command.least
  have hmax := h.frame.bounded
  have hopen := h.behind
  rw [f.payload_length] at hmin
  unfold headerSize at hmin
  unfold websockReadStrLen at hmax
  have hret : (BitVec.ofInt 32 read.session.header.payloadSize).toInt = f.data.length := by
    rw [h.frame.payloadSize, BitVec.toInt_ofInt]
    exact Int.bmod_eq_of_le (by omega) (by omega)
  have hreceive : receiveCmd cmd' ws =
      some ((f.data.length : Int), commandOf f cmd', read.session) := by
    simp [receiveCmd, h.before, h.stream, decodeRawStreamCmd_taken hmin h.frame, hret]
  have hsize : ¬read.session.header.payloadSize < headerSize := by
    rw [h.frame.payloadSize, headerSize]
    omega
  simp only [readCommand, hreceive, if_neg (show ¬(f.data.length : Int) < 0 by omega), hopen,
    Bool.false_eq_true, if_false, if_neg hsize]

/-! ## Streams without errors -/

theorem checkPayloadSize_clean {ws : WebSocket} (hclean : ws.socket.Clean)
    (headerSize : Nat) (payloadSize : Int) (maskOffset : Nat) :
    ∃ ret ws', some (checkPayloadSize (ws.setSize headerSize payloadSize maskOffset)) =
    some (ret, ws') ∧
      ws'.socket.Clean := by
  unfold checkPayloadSize
  split
  · exact ⟨_, _, rfl, hclean⟩
  · exact ⟨_, _, rfl, hclean⟩

theorem readPayloadSize_clean (streamSize : Nat) {ws : WebSocket} (hclean : ws.socket.Clean) :
    ∃ ret ws', readPayloadSize streamSize ws = some (ret, ws') ∧ ws'.socket.Clean := by
  unfold readPayloadSize
  split
  · exact checkPayloadSize_clean hclean _ _ _
  · split
    · obtain ⟨err, ws₁, hread, hclean₁⟩ := readNBytes_clean 2 hclean
      simp only [hread]
      split
      · exact ⟨_, _, rfl, hclean₁⟩
      · split
        · exact ⟨_, _, rfl, hclean₁⟩
        · exact checkPayloadSize_clean hclean₁ _ _ _
    · split
      · obtain ⟨err, ws₁, hread, hclean₁⟩ := readNBytes_clean 8 hclean
        simp only [hread]
        split
        · exact ⟨_, _, rfl, hclean₁⟩
        · split
          · exact ⟨_, _, rfl, hclean₁⟩
          · exact checkPayloadSize_clean hclean₁ _ _ _
      · exact ⟨_, _, rfl, hclean⟩

theorem readHeader_clean {ws : WebSocket} (hclean : ws.socket.Clean) :
    ∃ ret ws', readHeader ws = some (ret, ws') ∧ ws'.socket.Clean := by
  obtain ⟨err, ws₁, hread, hclean₁⟩ := readNBytes_clean 6 hclean
  unfold readHeader
  simp only [hread]
  split
  · exact ⟨_, _, rfl, hclean₁⟩
  · split
    · exact ⟨_, _, rfl, hclean₁⟩
    · split
      · exact ⟨_, _, rfl, hclean₁⟩
      · split
        · exact ⟨_, _, rfl, hclean₁⟩
        · exact readPayloadSize_clean _ hclean₁

theorem readStream_clean {ws : WebSocket} (hclean : ws.socket.Clean) :
    ∃ ret ws', readStream ws = some (ret, ws') ∧ ws'.socket.Clean := by
  obtain ⟨err, ws₁, hheader, hclean₁⟩ :=
    readHeader_clean (show (resetReadBuff ws).socket.Clean from hclean)
  unfold readStream
  simp only [hheader]
  split
  · exact ⟨_, _, rfl, hclean₁⟩
  · split
    · exact ⟨_, _, rfl, hclean₁⟩
    · obtain ⟨err', ws₂, hread, hclean₂⟩ := readNBytes_clean ws₁.header.payloadSize hclean₁
      simp only [hread]
      split
      · exact ⟨_, _, rfl, hclean₂⟩
      · exact ⟨_, _, rfl, hclean₂⟩

/-- `read_command` returns on a stream without errors. -/
theorem readCommand_clean (cmd : CommandBuffers) {ws : WebSocket} (hclean : ws.socket.Clean) :
    ∃ read cmd', readCommand cmd ws = some (read, cmd') ∧ read.session.socket.Clean := by
  have hreceive : ∃ ret cmd' ws', receiveCmd cmd ws = some (ret, cmd', ws') ∧ ws'.socket.Clean := by
    unfold receiveCmd
    split
    · exact ⟨_, _, _, rfl, hclean⟩
    · obtain ⟨err, ws₁, hstream, hclean₁⟩ := readStream_clean hclean
      simp only [hstream]
      split
      · exact ⟨_, _, _, rfl, hclean₁⟩
      · split
        · exact ⟨_, _, _, rfl, hclean₁⟩
        · split
          · exact ⟨_, _, _, rfl, hclean₁⟩
          · exact ⟨_, _, _, rfl, hclean₁⟩
  obtain ⟨ret, cmd₁, ws₁, hreceive, hclean₁⟩ := hreceive
  unfold readCommand
  simp only [hreceive]
  split
  · exact ⟨_, _, rfl, hclean₁⟩
  · split
    · exact ⟨_, _, rfl, hclean₁⟩
    · split
      · exact ⟨_, _, rfl, hclean₁⟩
      · exact ⟨_, _, rfl, hclean₁⟩

end KoheronServer.Websocket
