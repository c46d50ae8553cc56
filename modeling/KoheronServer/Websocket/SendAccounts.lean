import KoheronServer.Websocket.Send

/-!
# What `send_request` reports

The bytes are written in order, but the value that is returned is the count of the
last call of `write`, and the branch for a call that returns 0 stands in the loop
whose condition has excluded it.
-/

namespace KoheronServer.Websocket

open Foundation Session

/-- What each call of `write` takes: `send_request` gives it `&bits[offset]`. -/
def sendPieces (bits : Bytes) (len : Nat) : Nat → Calls → Nat → List Bytes
  | 0, _, _ => []
  | fuel + 1, calls, offset =>
      if offset < len then
        match calls.write (len - offset) with
        | (.failed, _) => []
        | (.accepted n, calls) =>
            if n = 0 then []
            else (bits.drop offset).take n :: sendPieces bits len fuel calls (offset + n)
      else []

def requestPieces (bits : Bytes) (calls : Calls) : List Bytes :=
  let remaining := (Tcp.toInt bits.length).toNat
  sendPieces bits remaining remaining calls 0

/-- The pieces follow one another from the offset at which the loop starts to the one at which it
ends. -/
theorem sendPieces_flatten (bits : Bytes) (len fuel : Nat) (calls : Calls) (st : SendState) :
    bits.take (sendWhile len fuel calls st).offset =
      bits.take st.offset ++ (sendPieces bits len fuel calls st.offset).flatten := by
  induction fuel generalizing calls st with
  | zero => simp [sendWhile, sendPieces]
  | succ fuel ih =>
      unfold sendWhile sendPieces
      split
      case isFalse => simp
      case isTrue =>
          rcases calls.write (len - st.offset) with ⟨_ | _, calls'⟩
          case accepted n =>
              dsimp only
              split
              case isTrue => simp
              case isFalse =>
                  rw [ih calls' ⟨n, st.offset + n⟩, List.flatten_cons, ← List.append_assoc,
                    ← List.take_add]
          case failed => simp

theorem requestPieces_flatten (bits : Bytes) (calls : Calls) :
    (requestPieces bits calls).flatten = (sendRequest false bits calls).taken := by
  have hflatten := sendPieces_flatten bits (Tcp.toInt bits.length).toNat
    (Tcp.toInt bits.length).toNat calls ⟨0, 0⟩
  rw [List.take_zero, List.nil_append] at hflatten
  unfold requestPieces
  dsimp only
  rw [← hflatten]
  unfold sendRequest
  dsimp only
  rw [if_neg (by decide)]
  split <;> rfl

theorem sendWhile_bytesSend_le {len : Nat} (fuel : Nat) (calls : Calls) (st : SendState)
    (hoffset : st.offset < len) (hfuel : len - st.offset ≤ fuel) :
    (sendWhile len fuel calls st).bytesSend ≤ (len - st.offset : Nat) := by
  induction fuel generalizing calls st with
  | zero => omega
  | succ fuel ih =>
      have hpossible := calls.write_possible (len - st.offset)
      unfold sendWhile
      rw [if_pos hoffset]
      rcases hwrite : calls.write (len - st.offset) with ⟨_ | _, calls'⟩
      case failed =>
          show (-1 : Int) ≤ _
          omega
      case accepted n =>
          rw [hwrite] at hpossible
          have hn : n ≤ len - st.offset := hpossible.1
          dsimp only
          by_cases hzero : n = 0
          · rw [if_pos hzero]
            show (0 : Int) ≤ _
            omega
          · rw [if_neg hzero]
            by_cases hend : st.offset + n < len
            · have hle := ih calls' ⟨n, st.offset + n⟩ hend (by dsimp only; omega)
              dsimp only at hle
              omega
            · rw [sendWhile_done fuel calls' (show st.offset + n = len by omega)]
              show (n : Int) ≤ _
              omega

/-- `send_request` on an open connection: the bytes in order, and the value and the flag that
stand for how the calls of `write` went. -/
structure SendAccounts (bits : Bytes) (calls : Calls) : Prop where
  inOrder : (requestPieces bits calls).flatten <+: bits
  all : calls.last = .all → (requestPieces bits calls).flatten = bits ∧
    (sendRequest false bits calls).ret = bits.length
  closed : calls.last = .closed → (sendRequest false bits calls).ret = 0 ∧
    (sendRequest false bits calls).connectionClosed = true
  failed : calls.last = .failed → (sendRequest false bits calls).ret = -1 ∧
    (sendRequest false bits calls).connectionClosed = true

section

variable {bits : Bytes} {calls : Calls}

theorem remaining_le (n : Nat) : (Tcp.toInt n).toNat ≤ n := by
  have hmod : n % 2 ^ 32 ≤ n := Nat.mod_le _ _
  rw [Tcp.toInt, BitVec.toInt_eq_toNat_cond, BitVec.toNat_ofNat]
  split <;> omega

/-- A call that takes all of the bytes is the last one. -/
theorem last_of_write_all (hpos : 0 < bits.length)
    (h : (calls.write bits.length).1 = .accepted bits.length) :
    calls.last = .all ∧ bits.length ≤ maxTransfer := by
  have hpossible := calls.write_possible bits.length
  rw [h] at hpossible
  refine ⟨?_, hpossible.2⟩
  rcases calls.write_cases bits.length with ⟨-, heq⟩ | ⟨n, parts, heq, -, -, hlt, -⟩
  · rw [heq] at h
    cases hlast : calls.last with
    | all => rfl
    | closed =>
        rw [hlast] at h
        have hzero : 0 = bits.length := by simpa [LastCall.result] using h
        omega
    | failed =>
        rw [hlast] at h
        cases h
  · rw [heq] at h
    have hn : n = bits.length := by simpa using h
    omega

theorem sendWhile_first {len n : Nat} {calls' : Calls} (hlen : 0 < len) (hn : 0 < n)
    (hwrite : calls.write len = (.accepted n, calls')) :
    sendWhile len len calls ⟨0, 0⟩ = sendWhile len (len - 1) calls' ⟨n, n⟩ := by
  obtain ⟨fuel, rfl⟩ : ∃ fuel, len = fuel + 1 := ⟨len - 1, by omega⟩
  rw [sendWhile, if_pos (Nat.zero_lt_succ fuel), Nat.sub_zero, hwrite]
  dsimp only
  rw [if_neg (by omega), Nat.zero_add, Nat.add_sub_cancel]

/-- The first call that takes all of the bytes ends the loop, and its count is returned. -/
theorem sendRequest_first (hpos : 0 < bits.length)
    (h : (calls.write bits.length).1 = .accepted bits.length) :
    sendRequest false bits calls = ⟨bits.length, bits, false, none⟩ := by
  obtain ⟨-, hmax⟩ := last_of_write_all hpos h
  have hloop : sendWhile bits.length bits.length calls ⟨0, 0⟩ = ⟨bits.length, bits.length⟩ := by
    rw [sendWhile_first hpos hpos (Prod.ext h rfl)]
    exact sendWhile_done _ _ rfl
  unfold sendRequest
  dsimp only
  rw [if_neg (by decide), remaining_eq hmax, hloop]
  dsimp only
  rw [if_neg (by omega), List.take_length]

/-- The value that is returned is the length only when the first call takes all of the bytes. -/
theorem write_all_of_ret (hlast : calls.last = .all) (hpos : 0 < bits.length)
    (hret : (sendRequest false bits calls).ret = bits.length) :
    (calls.write bits.length).1 = .accepted bits.length := by
  have hle := remaining_le bits.length
  -- What is returned is the count of the last turn of the loop.
  have hsend : (sendWhile (Tcp.toInt bits.length).toNat (Tcp.toInt bits.length).toNat calls
      ⟨0, 0⟩).bytesSend = bits.length := by
    unfold sendRequest at hret
    rw [if_neg (by decide)] at hret
    dsimp only at hret
    split at hret
    · have hneg : (-1 : Int) = bits.length := hret
      omega
    · exact hret
  have hremaining : (Tcp.toInt bits.length).toNat = bits.length := by
    by_cases hnone : (Tcp.toInt bits.length).toNat = 0
    · rw [hnone] at hsend
      have hzero : (0 : Int) = bits.length := hsend
      omega
    · have hbound := sendWhile_bytesSend_le (Tcp.toInt bits.length).toNat calls ⟨0, 0⟩
        (Nat.pos_of_ne_zero hnone) (Nat.sub_le _ _)
      rw [hsend] at hbound
      dsimp only at hbound
      omega
  rw [hremaining] at hsend
  obtain ⟨n, calls', hwrite, hn, hle'⟩ :
      ∃ n calls', calls.write bits.length = (.accepted n, calls') ∧ 0 < n ∧ n ≤ bits.length := by
    rcases calls.write_cases bits.length with ⟨-, heq⟩ | ⟨n, parts, heq, -, hn, hlt, -⟩
    · rw [hlast] at heq
      exact ⟨_, _, heq, by unfold maxTransfer; omega, Nat.min_le_left _ _⟩
    · exact ⟨n, _, heq, hn, Nat.le_of_lt hlt⟩
  by_cases hall : n = bits.length
  · rw [hwrite, hall]
  · have hbound := sendWhile_bytesSend_le (bits.length - 1) calls' ⟨n, n⟩
      (show n < bits.length by omega) (show bits.length - n ≤ bits.length - 1 by omega)
    rw [sendWhile_first hpos hn hwrite] at hsend
    rw [hsend] at hbound
    dsimp only at hbound
    omega

theorem requestPieces_ordered (bits : Bytes) (calls : Calls) :
    (requestPieces bits calls).flatten <+: bits := by
  rw [requestPieces_flatten]
  unfold sendRequest
  dsimp only
  rw [if_neg (by decide)]
  split <;> exact List.take_prefix _ _

/-- A message that the first call takes is accounted for. -/
theorem sendAccounts_of_write_all {bits : Bytes} {calls : Calls} (hpos : 0 < bits.length)
    (h : (calls.write bits.length).1 = .accepted bits.length) : SendAccounts bits calls := by
  have hlast := (last_of_write_all hpos h).1
  have hrequest := sendRequest_first hpos h
  refine ⟨requestPieces_ordered bits calls, fun _ => ?all, fun hclosed => ?closed,
    fun hfailed => ?failed⟩
  case all => exact ⟨by rw [requestPieces_flatten, hrequest], by rw [hrequest]⟩
  case closed =>
      rw [hlast] at hclosed
      cases hclosed
  case failed =>
      rw [hlast] at hfailed
      cases hfailed

theorem sendAccounts_of_failed {bits : Bytes} {calls : Calls} (hlast : calls.last = .failed)
    (hsome : 0 < Tcp.toInt bits.length) : SendAccounts bits calls := by
  have hwhile := sendWhile_eq (Tcp.toInt bits.length).toNat calls ⟨0, 0⟩
    (show 0 < (Tcp.toInt bits.length).toNat by omega) (Nat.sub_le _ _)
  simp only [hlast] at hwhile
  refine ⟨requestPieces_ordered bits calls, fun hall => ?all, fun hclosed => ?closed,
    fun _ => ?failed⟩
  case all =>
      rw [hlast] at hall
      cases hall
  case closed =>
      rw [hlast] at hclosed
      cases hclosed
  case failed =>
      unfold sendRequest
      simp [hwhile.1]

/-- Where nothing remains, `write` is not called. -/
theorem not_sendAccounts_of_nonpos {bits : Bytes} {calls : Calls} (hpos : 0 < bits.length)
    (hnone : Tcp.toInt bits.length ≤ 0) : ¬SendAccounts bits calls := by
  intro h
  have hrequest : sendRequest false bits calls = ⟨0, [], false, none⟩ := by
    have hzero : (Tcp.toInt bits.length).toNat = 0 := by omega
    unfold sendRequest
    rw [hzero]
    rfl
  cases hlast : calls.last with
  | all =>
      have hret := (h.all hlast).2
      rw [hrequest] at hret
      have hzero : (0 : Int) = bits.length := hret
      omega
  | closed =>
      have hclosed := (h.closed hlast).2
      rw [hrequest] at hclosed
      cases hclosed
  | failed =>
      have hret := (h.failed hlast).1
      rw [hrequest] at hret
      cases hret

/-- A call that returns 0 does not set the flag. -/
theorem not_sendAccounts_of_closed {bits : Bytes} {calls : Calls} (hlast : calls.last = .closed)
    (hsome : 0 < Tcp.toInt bits.length) : ¬SendAccounts bits calls := by
  intro h
  have hwhile := sendWhile_eq (Tcp.toInt bits.length).toNat calls ⟨0, 0⟩
    (show 0 < (Tcp.toInt bits.length).toNat by omega) (Nat.sub_le _ _)
  simp only [hlast] at hwhile
  have hclosed := (h.closed hlast).2
  unfold sendRequest at hclosed
  simp [hwhile.1] at hclosed

/-- `send_request` accounts for every byte exactly when the first call takes all of them, or when
a call fails. -/
theorem sendAccounts_iff (bits : Bytes) (calls : Calls) (hpos : 0 < bits.length) :
    SendAccounts bits calls ↔
      (calls.write bits.length).1 = .accepted bits.length ∨
        calls.last = .failed ∧ 0 < Tcp.toInt bits.length := by
  constructor
  · intro h
    have hsome : 0 < Tcp.toInt bits.length := by
      by_contra hnone
      exact not_sendAccounts_of_nonpos hpos (by omega) h
    cases hlast : calls.last with
    | all => exact .inl (write_all_of_ret hlast hpos (h.all hlast).2)
    | closed => exact absurd h (not_sendAccounts_of_closed hlast hsome)
    | failed => exact .inr ⟨rfl, hsome⟩
  · intro hcase
    rcases hcase with hfirst | ⟨hlast, hsome⟩
    · exact sendAccounts_of_write_all hpos hfirst
    · exact sendAccounts_of_failed hlast hsome

end

/-- Six bytes of which the first call takes two: the value that is returned is the four of the
second one. -/
theorem twoCalls_not_sendAccounts :
    ¬SendAccounts [1, 2, 3, 4, 5, 6] ⟨[2], .all⟩ ∧
      (sendRequest false [1, 2, 3, 4, 5, 6] ⟨[2], .all⟩).ret = 4 ∧
      ¬SendAccounts [1, 2, 3, 4, 5, 6] ⟨[], .closed⟩ ∧
      (sendRequest false [1, 2, 3, 4, 5, 6] ⟨[], .closed⟩).connectionClosed = false := by
  refine ⟨fun h => absurd (h.all rfl).2 (by decide), by decide,
    fun h => absurd (h.closed rfl).2 (by decide), by decide⟩

theorem oneCall_sendAccounts : SendAccounts [1, 2, 3, 4, 5, 6] ⟨[], .all⟩ :=
  (sendAccounts_iff [1, 2, 3, 4, 5, 6] ⟨[], .all⟩ (by decide)).mpr (.inl (by decide))

end KoheronServer.Websocket
