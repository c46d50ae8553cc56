import KoheronServer.Websocket.Accept
import KoheronServer.Websocket.Frame

/-!
# The end of the read loop

`read_n_bytes` on a stream that ends before the bytes that are asked for. The
outer loop has a test for a read that fails, but it stands in the inner loop, whose
condition has excluded it, so a connection that goes on failing is read for ever.
-/

namespace KoheronServer.Websocket

open Foundation

/-! ## Enough turns -/

/-- The inner loop ends behind all its bytes, behind a read that returned 0, behind an arrival
that was an error, or on a connection that only fails. -/
theorem readWhile_ends (fuel k : Nat) (bytesRead : Int) (ws : WebSocket) (hfuel : k ≤ fuel) :
    let st := readWhile fuel ⟨k, k, bytesRead, ws⟩
    st.expected = 0 ∨ st.bytesRead = 0 ∨
      st.ws.socket.arrivals.length < ws.socket.arrivals.length ∨
      st.ws.socket.arrivals = [] ∧ st.ws.socket.ending = .failing := by
  induction fuel generalizing k bytesRead ws with
  | zero =>
      obtain rfl : k = 0 := by omega
      exact .inl rfl
  | succ fuel ih =>
      by_cases hpos : 0 < k
      · unfold readWhile
        rw [if_pos (by simpa using hpos), Int.toNat_natCast]
        rcases hsocket : ws.socket with ⟨arrivals, ending⟩
        have hne : k ≠ 0 := by omega
        cases arrivals with
        | nil =>
            cases ending with
            | closed => exact .inr (.inl (by simp [ByteStream.read, hne]))
            | failing => exact .inr (.inr (.inr (by simp [ByteStream.read, hne])))
        | cons a rest =>
            cases a with
            | error => exact .inr (.inr (.inl (by simp [ByteStream.read, hne])))
            | data c =>
                have hlen : 0 < c.bytes.length := List.length_pos_iff.mpr c.nonempty
                -- What the read took is no arrival more than before.
                obtain ⟨bs, socket, hread, hbs, hle, harrivals⟩ :
                    ∃ bs socket, ByteStream.read ⟨.data c :: rest, ending⟩ k = (.data bs, socket) ∧
                      0 < bs.length ∧ bs.length ≤ k ∧
                      socket.arrivals.length ≤ (Arrival.data c :: rest).length := by
                  by_cases hc : k < c.bytes.length
                  · refine ⟨c.bytes.take k, ⟨.data (c.drop k hc) :: rest, ending⟩, ?_, ?_, ?_, ?_⟩
                    · simp [ByteStream.read, hne, hc]
                    · rw [List.length_take]
                      omega
                    · exact List.length_take_le k c.bytes
                    · simp
                  · exact ⟨c.bytes, ⟨rest, ending⟩, by simp [ByteStream.read, hne, hc], hlen, by omega,
                      by simp⟩
                have hremaining : (k : Int) - bs.length = ((k - bs.length : Nat) : Int) := by omega
                have hexpected : max 0 ((k - bs.length : Nat) : Int) =
                    ((k - bs.length : Nat) : Int) := by omega
                have hrest := ih (k - bs.length) bs.length (ws.push bs socket) (by omega)
                simp only [hread, hremaining, hexpected]
                rcases hrest with hdone | hzero | hfewer | hfailing
                · exact .inl hdone
                · exact .inr (.inl hzero)
                · exact .inr (.inr (.inl (Nat.lt_of_lt_of_le hfewer harrivals)))
                · exact .inr (.inr (.inr hfailing))
      · obtain rfl : k = 0 := by omega
        exact .inl rfl

/-- The outer loop has no end on a connection that only fails, unless the buffer holds exactly
`KSERVER_READ_STR_LEN` bytes. -/
theorem readExpected_failing (fuel : Nat) {st : ReadState} (hremaining : 0 < st.remaining)
    (hexpected : 0 < st.expected) (harrivals : st.ws.socket.arrivals = [])
    (hending : st.ws.socket.ending = .failing) (hlen : st.ws.readStrLen ≠ kserverReadStrLen) :
    readExpected fuel st = none := by
  induction fuel generalizing st with
  | zero => rfl
  | succ fuel ih =>
      have hread : st.ws.socket.read st.remaining.toNat = (.error, st.ws.socket) := by
        simp [ByteStream.read, harrivals, hending, show ¬st.remaining ≤ 0 by omega]
      have hturn : readWhile st.remaining.toNat st = { st with bytesRead := -1 } := by
        obtain ⟨n, hn⟩ : ∃ n, st.remaining.toNat = n + 1 := ⟨st.remaining.toNat - 1, by omega⟩
        rw [hn, readWhile, if_pos hremaining, hread]
      rw [readExpected, if_pos hexpected, hturn, if_neg (by simp), if_neg hlen]
      exact ih hremaining hexpected harrivals hending hlen

/-- Turns of the outer loop behind those that `readNBytes` has do not change the result. -/
theorem readExpected_add (fuel extra k : Nat) (bytesRead : Int) (ws : WebSocket)
    (hfuel : ws.socket.arrivals.length + 2 ≤ fuel) :
    readExpected (fuel + extra) ⟨k, k, bytesRead, ws⟩ =
    readExpected fuel ⟨k, k, bytesRead, ws⟩ := by
  induction fuel generalizing k bytesRead ws with
  | zero => omega
  | succ fuel ih =>
      rw [Nat.add_right_comm]
      unfold readExpected
      by_cases hpos : 0 < k
      · have hexpected : (k : Int) > 0 := by omega
        rw [if_pos hexpected, if_pos hexpected, Int.toNat_natCast]
        have hends := readWhile_ends k k bytesRead ws (Nat.le_refl k)
        obtain ⟨taken, bytesRead', ws', hle, -, hwhile, -⟩ :=
          readWhile_takes k k bytesRead ws (Nat.le_refl k)
        simp only [hwhile] at hends ⊢
        by_cases hzero : bytesRead' = 0
        · rw [if_pos hzero, if_pos hzero]
        · rw [if_neg hzero, if_neg hzero]
          by_cases hfull : ws'.readStrLen = kserverReadStrLen
          · rw [if_pos hfull, if_pos hfull]
          · rw [if_neg hfull, if_neg hfull]
            by_cases hleft : k - taken.length = 0
            · -- The next turn finds nothing left to read.
              obtain ⟨n, rfl⟩ : ∃ n, fuel = n + 1 := ⟨fuel - 1, by omega⟩
              rw [hleft, Nat.add_right_comm]
              rfl
            · rcases hends with hdone | hzero' | hfewer | ⟨harrivals, hending⟩
              · omega
              · exact absurd hzero' hzero
              · exact ih (k - taken.length) bytesRead' ws' (by omega)
              · have hremaining : (0 : Int) < (k - taken.length : Nat) := by omega
                rw [readExpected_failing _ hremaining hremaining harrivals hending hfull,
                  readExpected_failing _ hremaining hremaining harrivals hending hfull]
      · obtain rfl : k = 0 := by omega
        rfl

theorem readExpected_mono {fuel fuel' : Nat} (hle : fuel ≤ fuel') {st : ReadState}
    {result : Int × WebSocket} (h : readExpected fuel st = some result) :
    readExpected fuel' st = some result := by
  induction fuel generalizing fuel' st with
  | zero => cases h
  | succ fuel ih =>
      obtain ⟨n, rfl⟩ : ∃ n, fuel' = n + 1 := ⟨fuel' - 1, by omega⟩
      unfold readExpected at h ⊢
      split at h
      case isTrue hexpected =>
          rw [if_pos hexpected]
          dsimp only at h ⊢
          split at h
          case isTrue hzero => rwa [if_pos hzero]
          case isFalse hzero =>
              rw [if_neg hzero]
              split at h
              case isTrue hfull => rwa [if_pos hfull]
              case isFalse hfull =>
                  rw [if_neg hfull]
                  exact ih (by omega) h
      case isFalse hexpected => rwa [if_neg hexpected]

theorem readNBytes_eq_some_iff {n : Int} {ws : WebSocket} {result : Int × WebSocket} :
    readNBytes n n ws = some result ↔ ∃ fuel, readExpected fuel ⟨n, n, -1, ws⟩ = some result := by
  constructor
  · intro h
    exact ⟨_, h⟩
  · rintro ⟨fuel, h⟩
    by_cases hpos : 0 < n
    · obtain ⟨k, rfl⟩ : ∃ k : Nat, n = k := ⟨n.toNat, by omega⟩
      rw [readNBytes, ← readExpected_add _ fuel k (-1) ws (Nat.le_refl _)]
      exact readExpected_mono (by omega) h
    · rw [readNBytes_nonpos (by omega) ws]
      cases fuel with
      | zero => cases h
      | succ fuel =>
          rw [readExpected, if_neg (by simpa using hpos)] at h
          exact h

/-! ## Streams that end too early -/

def endResult : Ending → Int
  | .closed => 0
  | .failing => -1

theorem readWhile_short (fuel k : Nat) (bytesRead : Int) (ws : WebSocket) (hfuel : k ≤ fuel)
    (hfree : ws.socket.ErrorFree) (hshort : ws.socket.bytes.length < k) :
    ∃ ws', readWhile fuel ⟨k, k, bytesRead, ws⟩ =
        ⟨(k - ws.socket.bytes.length : Nat), (k - ws.socket.bytes.length : Nat),
          endResult ws.socket.ending, ws'⟩ ∧
      Takes ws ws.socket.bytes ws' ∧ ws'.socket = ⟨[], ws.socket.ending⟩ := by
  induction fuel generalizing k bytesRead ws with
  | zero => omega
  | succ fuel ih =>
      have hpos : (0 : Int) < k := by omega
      have hne : k ≠ 0 := by omega
      unfold readWhile
      rw [if_pos hpos, Int.toNat_natCast]
      by_cases hend : ws.socket.bytes = []
      · have harrivals := hfree.arrivals_eq_nil hend
        have hsocket : ws.socket = ⟨[], ws.socket.ending⟩ := by rw [← harrivals]
        refine ⟨ws, ?_, by rw [hend]; exact Takes.refl ws, hsocket⟩
        have hread : ws.socket.read k =
            (if ws.socket.ending = .closed then .closed else .error, ws.socket) := by
          rw [ByteStream.read, if_neg hne, harrivals]
          cases ws.socket.ending <;> rfl
        rw [hread, hend]
        cases hending : ws.socket.ending <;> rfl
      · obtain ⟨bs, socket, hread, hbs, hle, hbytes, hfree', hending⟩ :=
          hfree.read_data (n := k) (by omega) hend
        have hlen := List.length_pos_iff.mpr hbs
        have hsum : ws.socket.bytes.length = bs.length + socket.bytes.length := by
          rw [hbytes, List.length_append]
        obtain ⟨ws', hrest, htakes, hsocket⟩ :=
          ih (k - bs.length) bs.length (ws.push bs socket) (by omega) hfree'
            (show socket.bytes.length < k - bs.length by omega)
        have hremaining : (k : Int) - bs.length = ((k - bs.length : Nat) : Int) := by omega
        have hexpected : max 0 ((k - bs.length : Nat) : Int) = ((k - bs.length : Nat) : Int) := by
          omega
        have hleft : k - bs.length - (ws.push bs socket).socket.bytes.length =
            k - ws.socket.bytes.length := by
          have hpush : (ws.push bs socket).socket.bytes.length = socket.bytes.length := rfl
          omega
        have hpushed : (ws.push bs socket).socket.ending = ws.socket.ending := hending
        rw [hleft, hpushed] at hrest
        refine ⟨ws', ?_, ?_, by rw [hsocket, hpushed]⟩
        · simp only [hread, hremaining, hexpected]
          exact hrest
        · rw [hbytes]
          exact (takes_push ws bs hbytes).trans htakes

/-- `read_n_bytes` on a stream that the peer closes too early. -/
theorem readNBytes_closed {k : Nat} {ws : WebSocket} (hfree : ws.socket.ErrorFree)
    (hending : ws.socket.ending = .closed) (hshort : ws.socket.bytes.length < k) :
    ∃ ws', readNBytes k k ws = some (1, { ws' with connectionClosed := true }) ∧
      Takes ws ws.socket.bytes ws' := by
  obtain ⟨ws', hwhile, htakes, -⟩ := readWhile_short k k (-1) ws (Nat.le_refl k) hfree hshort
  refine ⟨ws', ?_, htakes⟩
  have hpos : (0 : Int) < k := by omega
  rw [readNBytes, readExpected, if_pos hpos, Int.toNat_natCast]
  simp only [hwhile, hending, endResult, if_true]

/-- `read_n_bytes` on a stream that fails for ever too early: an error if the buffer holds
exactly `KSERVER_READ_STR_LEN` bytes there, no result otherwise. -/
theorem readNBytes_failing {k : Nat} {ws : WebSocket} (hfree : ws.socket.ErrorFree)
    (hending : ws.socket.ending = .failing) (hshort : ws.socket.bytes.length < k) :
    ∃ ws', Takes ws ws.socket.bytes ws' ∧ readNBytes k k ws =
      if ws.readStrLen + ws.socket.bytes.length = kserverReadStrLen then some (-1, ws')
      else none := by
  obtain ⟨ws', hwhile, htakes, hsocket⟩ := readWhile_short k k (-1) ws (Nat.le_refl k) hfree hshort
  refine ⟨ws', htakes, ?_⟩
  have hpos : (0 : Int) < k := by omega
  have hleft : (0 : Int) < (k - ws.socket.bytes.length : Nat) := by omega
  have hfailed : endResult ws.socket.ending = -1 := by rw [hending]; rfl
  rw [readNBytes, readExpected, if_pos hpos, Int.toNat_natCast]
  simp only [hwhile, hfailed, htakes.readStrLen]
  rw [if_neg (by decide)]
  split
  case isTrue => rfl
  case isFalse hfull =>
      exact readExpected_failing _ hleft hleft (by rw [hsocket]) (by rw [hsocket, hending])
        (by rw [htakes.readStrLen]; exact hfull)

/-- `read_n_bytes` ends: with 1 and a closed connection on a stream that the peer closes before
the bytes that are asked for, and with -1 on one that fails for ever before them. -/
def ReadEnds (n : Int) (ws : WebSocket) : Prop :=
  ∃ fuel ret ws', readExpected fuel ⟨n, n, -1, ws⟩ = some (ret, ws') ∧
    (ws.socket.bytes.length < n →
      (ws.socket.ending = .closed → ret = 1 ∧ ws'.connectionClosed = true) ∧
      (ws.socket.ending = .failing → ret = -1))

/-- The loop ends unless the stream fails for ever in front of the bytes that are asked for, at
any other place than the one where the buffer counts as full. -/
theorem readEnds_iff (n : Int) {ws : WebSocket} (hfree : ws.socket.ErrorFree) :
    ReadEnds n ws ↔
      ¬(ws.socket.ending = .failing ∧ ws.socket.bytes.length < n ∧
        ws.readStrLen + ws.socket.bytes.length ≠ kserverReadStrLen) := by
  by_cases hshort : ws.socket.bytes.length < n
  · obtain ⟨k, rfl⟩ : ∃ k : Nat, n = k := ⟨n.toNat, by omega⟩
    have hlt : ws.socket.bytes.length < k := by omega
    cases hending : ws.socket.ending with
    | closed =>
        obtain ⟨ws', hread, -⟩ := readNBytes_closed hfree hending hlt
        obtain ⟨fuel, hfuel⟩ := readNBytes_eq_some_iff.mp hread
        refine ⟨fun _ h => absurd h.1 (by decide), fun _ => ⟨fuel, _, _, hfuel, fun _ => ?_⟩⟩
        exact ⟨fun _ => ⟨rfl, rfl⟩, fun h => absurd (hending.symm.trans h) (by decide)⟩
    | failing =>
        obtain ⟨ws', -, hread⟩ := readNBytes_failing hfree hending hlt
        by_cases hfull : ws.readStrLen + ws.socket.bytes.length = kserverReadStrLen
        · rw [if_pos hfull] at hread
          obtain ⟨fuel, hfuel⟩ := readNBytes_eq_some_iff.mp hread
          refine ⟨fun _ h => h.2.2 hfull, fun _ => ⟨fuel, _, _, hfuel, fun _ => ?_⟩⟩
          exact ⟨fun h => absurd (hending.symm.trans h) (by decide), fun _ => rfl⟩
        · rw [if_neg hfull] at hread
          refine ⟨?_, fun h => absurd ⟨rfl, hshort, hfull⟩ h⟩
          rintro ⟨fuel, ret, ws'', hfuel, -⟩
          have hsome := readNBytes_eq_some_iff.mpr ⟨fuel, hfuel⟩
          rw [hread] at hsome
          cases hsome
  · -- All the bytes arrive, so the loop ends behind them.
    refine ⟨fun _ h => hshort h.2.1, fun _ => ?_⟩
    obtain ⟨ret, ws', hread⟩ : ∃ ret ws', readNBytes n n ws = some (ret, ws') := by
      by_cases hpos : 0 < n
      · obtain ⟨k, rfl⟩ : ∃ k : Nat, n = k := ⟨n.toNat, by omega⟩
        obtain ⟨ws', hread, -, -⟩ := readNBytes_delivers (k := k)
          (by omega) hfree.delivers (by omega)
        exact ⟨_, ws', hread⟩
      · exact ⟨0, ws, readNBytes_nonpos (by omega) ws⟩
    obtain ⟨fuel, hfuel⟩ := readNBytes_eq_some_iff.mp hread
    exact ⟨fuel, ret, ws', hfuel, fun h => absurd h hshort⟩

def WebSocket.broken : WebSocket := { WebSocket.fresh [] with socket := ⟨[], .failing⟩ }

/-- The first bytes of a header are waited for without an end. -/
theorem broken_not_readEnds : WebSocket.broken.socket.ErrorFree ∧ ¬ReadEnds 6 .broken := by
  refine ⟨fun a ha => absurd ha (by simp [WebSocket.broken]), ?_⟩
  rintro ⟨fuel, ret, ws', hfuel, -⟩
  have hnone : readExpected fuel ⟨6, 6, -1, .broken⟩ = none :=
    readExpected_failing fuel (by decide) (by decide) rfl rfl (by decide)
  rw [hnone] at hfuel
  cases hfuel

/-- The object behind the handshake, on a connection that is closed by the peer. -/
theorem fresh_readEnds : ReadEnds 6 (.fresh []) :=
  (readEnds_iff 6 (ByteStream.ofBytes_clean []).errorFree).mpr fun h => absurd h.1 (by decide)

end KoheronServer.Websocket
