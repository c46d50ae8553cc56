import KoheronServer.Foundation.Writes
import KoheronServer.Session.TcpReceive

/-!
# Writing to a TCP session

`Session<TCP>::write`, which makes one call of `write` for a message and reports
everything but a whole message as a failure.
-/

namespace KoheronServer.Session.Tcp

open Foundation Wire

/-- `bytes_send`: the size becomes an `unsigned int`, then an `int`. -/
def bytesSend (size : Nat) : Int := toInt size

/-- The count that `write` is given, `bytes_send` as a `size_t`. -/
def writeCount (size : Nat) : Nat := (BitVec.ofInt 64 (bytesSend size)).toNat

/-- What `write` returns, and what it logs as an error. -/
structure Written where
  ret : Int
  error : Option String
  deriving DecidableEq, Repr

def closedByClient : String := "TCPSocket::write: Connection closed by client\n"

def cannotWrite : String := "TCPSocket::write: Can't write to client\n"

def bytesNotSent : String := "TCPSocket::write: Some bytes have not been sent\n"

def write (size : Nat) (result : WriteResult) : Written :=
  if result.ret = 0 then ⟨0, some closedByClient⟩
  else if result.ret < 0 then ⟨-1, some cannotWrite⟩
  else if result.ret ≠ bytesSend size then ⟨-1, some bytesNotSent⟩
  else ⟨bytesSend size, none⟩

/-- A message that `write` is not given whole is longer than a call transfers. -/
theorem writeCount_cases (size : Nat) :
    (bytesSend size = size ∧ writeCount size = size) ∨ maxTransfer < size := by
  by_cases h : size < 2 ^ 31
  · left
    have heq : bytesSend size = size := toInt_of_lt h
    refine ⟨heq, ?_⟩
    rw [writeCount, heq, BitVec.ofInt_natCast, BitVec.toNat_ofNat, Nat.mod_eq_of_lt (by omega)]
  · right
    simp only [maxTransfer]
    omega

theorem bytes_le {size : Nat} {result : WriteResult} (h : result.Possible (writeCount size)) :
    result.bytes ≤ size := by
  cases result with
  | accepted n =>
      obtain ⟨hcount, hmax⟩ := h
      simp only [WriteResult.bytes]
      rcases writeCount_cases size with ⟨-, heq⟩ | hlarge <;> omega
  | failed => exact Nat.zero_le _

theorem write_error_mem {size : Nat} {result : WriteResult} {error : String}
    (h : (write size result).error = some error) :
    error ∈ [closedByClient, cannotWrite, bytesNotSent] := by
  unfold write at h
  split at h
  · simp_all
  · split at h
    · simp_all
    · split at h
      · simp_all
      · cases h

theorem write_error_eq_none {size : Nat} {result : WriteResult} :
    (write size result).error = none ↔ 0 < result.ret ∧ result.ret = bytesSend size := by
  unfold write
  split_ifs with hzero hneg hne
  · simp [hzero]
  · simp
    omega
  · simp [hne]
  · have hpos : 0 < result.ret := by omega
    have heq : result.ret = bytesSend size := not_not.mp hne
    simp [← heq, hpos]

/-- `write` is content with a result that is the size of the message, and with no other one. -/
theorem write_error_isSome {size : Nat} (hsize : 1 < size) (hmax : size ≤ maxTransfer)
    (calls : Calls) :
    (write size (calls.write (writeCount size)).1).error.isSome = !decide calls.Whole := by
  have hcount := (writeCount_cases size).resolve_right (Nat.not_lt.mpr hmax)
  have hret : 0 < (calls.write size).1.ret ∧ (calls.write size).1.ret = size ↔
      (calls.write size).1.bytes = size := by
    cases (calls.write size).1 with
    | accepted n =>
        simp only [WriteResult.ret, WriteResult.bytes]
        omega
    | failed =>
        simp only [WriteResult.ret, WriteResult.bytes]
        omega
  rw [hcount.2, Bool.eq_iff_iff, Bool.not_eq_true', decide_eq_false_iff_not,
    ← calls.write_bytes_eq_iff hsize hmax, ← hret, ← hcount.1, ← write_error_eq_none,
    Option.isSome_iff_ne_none]

/-- A message reaches the client whole when one call is able to transfer it and takes it. -/
theorem taken_iff {data : Bytes} (hsize : 1 < data.length) (calls : Calls) :
    data.take (calls.write (writeCount data.length)).1.bytes = data ↔
      data.length ≤ maxTransfer ∧ calls.Whole := by
  have hpossible := calls.write_possible (writeCount data.length)
  have hbytes : (calls.write (writeCount data.length)).1.bytes ≤ maxTransfer := by
    cases hresult : (calls.write (writeCount data.length)).1 with
    | accepted n =>
        rw [hresult] at hpossible
        exact hpossible.2
    | failed => exact Nat.zero_le _
  have htake : data.take (calls.write (writeCount data.length)).1.bytes = data ↔
      (calls.write (writeCount data.length)).1.bytes = data.length := by
    have hle := bytes_le hpossible
    constructor
    · intro h
      have hlen := congrArg List.length h
      rw [List.length_take] at hlen
      omega
    · intro h
      rw [h, List.take_length]
  rw [htake]
  by_cases hmax : data.length ≤ maxTransfer
  · have hcount := (writeCount_cases data.length).resolve_right (Nat.not_lt.mpr hmax)
    have hwhole := calls.write_bytes_eq_iff hsize hmax
    rw [hcount.2, hwhole]
    exact ⟨fun h => ⟨hmax, h⟩, fun h => h.2⟩
  · constructor
    · omega
    · exact fun h => absurd h.1 hmax

end KoheronServer.Session.Tcp
