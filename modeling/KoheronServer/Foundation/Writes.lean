import KoheronServer.Foundation.ByteStream

/-!
# Writes of messages to a stream

A connection accepts of every message that is written to it some first bytes, all
of them or none of them for one that is kept whole. What it has accepted is made
of whole messages as long as nothing follows a message that has been cut. The
second half is about the calls that write one message.
-/

namespace Foundation

/-- A message and the number of its bytes that the connection has accepted. -/
structure Write (α : Type) where
  message : List α
  accepted : Nat

variable {α : Type}

/-- The connection has accepted a part of the message only. -/
def Write.Short (w : Write α) : Prop := 0 < w.accepted ∧ w.accepted < w.message.length

instance (w : Write α) : Decidable w.Short := inferInstanceAs (Decidable (_ ∧ _))

def acceptedBytes (ws : List (Write α)) : List α := ws.flatMap fun w => w.message.take w.accepted

/-- The stream is a prefix of whole messages; those that were not written are left out. -/
def Framed (ws : List (Write α)) : Prop :=
  ∃ messages : List (List α), messages.Sublist (ws.map Write.message) ∧
    acceptedBytes ws <+: messages.flatten

/-- Behind a message that has been cut no byte of another one is accepted. -/
def Unmixed (ws : List (Write α)) : Prop := ws.Pairwise fun w w' => w.Short → w'.accepted = 0

/-- Where no message has been cut nothing is mixed. -/
theorem Unmixed.of_notShort {ws : List (Write α)} (h : ∀ w ∈ ws, ¬w.Short) : Unmixed ws :=
  List.pairwise_of_forall_mem_list fun w hw _ _ hshort => absurd hshort (h w hw)

theorem acceptedBytes_eq_nil {ws : List (Write α)} (h : ∀ w ∈ ws, w.accepted = 0) :
    acceptedBytes ws = [] := by
  rw [acceptedBytes, List.flatMap_eq_nil_iff]
  intro w hw
  rw [h w hw, List.take_zero]

theorem Unmixed.framed {ws : List (Write α)} (h : Unmixed ws) : Framed ws := by
  induction ws with
  | nil => exact ⟨[], List.Sublist.refl _, List.prefix_rfl⟩
  | cons w ws ih =>
      obtain ⟨hw, hws⟩ := List.pairwise_cons.mp h
      obtain ⟨messages, hsub, hbegins⟩ := ih hws
      have hstep : acceptedBytes (w :: ws) = w.message.take w.accepted ++ acceptedBytes ws := rfl
      by_cases hzero : w.accepted = 0
      · -- Nothing of the message is in the stream.
        refine ⟨messages, hsub.cons _, ?_⟩
        rwa [hstep, hzero, List.take_zero, List.nil_append]
      · refine ⟨w.message :: messages, hsub.cons_cons _, ?_⟩
        rw [hstep, List.flatten_cons]
        by_cases hall : w.message.length ≤ w.accepted
        · rw [List.take_of_length_le hall]
          exact (List.prefix_append_right_inj _).mpr hbegins
        · -- The message has been cut, so the stream ends inside it.
          have hshort : w.Short := ⟨by omega, by omega⟩
          rw [acceptedBytes_eq_nil fun w' hw' => hw w' hw' hshort, List.append_nil]
          exact (List.take_prefix _ _).trans (List.prefix_append _ _)

/-! ## Calls of `write` -/

/-- What a call of `write` returns. -/
inductive WriteResult where
  | accepted (n : Nat)
  | failed
  deriving DecidableEq, Repr

namespace WriteResult

def bytes : WriteResult → Nat
  | accepted n => n
  | failed => 0

def ret : WriteResult → Int
  | accepted n => n
  | failed => -1

/-- A call takes no more than it was given, and no more than one call transfers. -/
def Possible (count : Nat) : WriteResult → Prop
  | accepted n => n ≤ count ∧ n ≤ maxTransfer
  | failed => True

instance (count : Nat) (result : WriteResult) : Decidable (result.Possible count) :=
  match result with
  | accepted _ => inferInstanceAs (Decidable (_ ∧ _))
  | failed => .isTrue trivial

end WriteResult

/-- The last call for a message: it takes all that is left, returns 0 or fails. -/
inductive LastCall where
  | all
  | closed
  | failed
  deriving DecidableEq, Repr

def LastCall.result (count : Nat) : LastCall → WriteResult
  | all => .accepted (min count maxTransfer)
  | closed => .accepted 0
  | failed => .failed

/-- How the calls of `write` for one message go: those that take a part of what is left,
and the one behind them. -/
structure Calls where
  parts : List Nat
  last : LastCall
  deriving DecidableEq, Repr

namespace Calls

/-- One call. A part of the `count` bytes that are left is not empty, and not all of them. -/
def write (calls : Calls) (count : Nat) : WriteResult × Calls :=
  match calls.parts with
  | [] => (calls.last.result count, calls)
  | part :: parts =>
      if count ≤ 1 then (calls.last.result count, calls)
      else (.accepted (max 1 (min part (min (count - 1) maxTransfer))), ⟨parts, calls.last⟩)

/-- The first call takes the message. -/
def Whole (calls : Calls) : Prop := calls.parts = [] ∧ calls.last = .all

instance (calls : Calls) : Decidable calls.Whole := inferInstanceAs (Decidable (_ ∧ _))

theorem result_possible (last : LastCall) (count : Nat) : (last.result count).Possible count := by
  cases last with
  | all => exact ⟨Nat.min_le_left _ _, Nat.min_le_right _ _⟩
  | closed => exact ⟨Nat.zero_le _, Nat.zero_le _⟩
  | failed => trivial

/-- What a call returns, as the loop around it sees it: the last result, or a proper part. -/
theorem write_cases (calls : Calls) (count : Nat) :
    ((calls.parts = [] ∨ count ≤ 1) ∧ calls.write count = (calls.last.result count, calls)) ∨
      ∃ n parts, calls.write count = (.accepted n, ⟨parts, calls.last⟩) ∧ calls.parts ≠ [] ∧
        0 < n ∧ n < count ∧ n ≤ maxTransfer := by
  unfold write
  split
  case h_1 hparts => exact .inl ⟨.inl hparts, rfl⟩
  case h_2 part parts hparts =>
    split
    case isTrue hcount => exact .inl ⟨.inr hcount, rfl⟩
    case isFalse =>
      refine .inr ⟨_, _, rfl, by simp [hparts], ?_, ?_, ?_⟩ <;> simp only [maxTransfer] <;> omega

theorem write_possible (calls : Calls) (count : Nat) : (calls.write count).1.Possible count := by
  rcases calls.write_cases count with ⟨-, heq⟩ | ⟨n, parts, heq, -, -, hlt, hmax⟩
  · rw [heq]
    exact result_possible _ _
  · rw [heq]
    exact ⟨Nat.le_of_lt hlt, hmax⟩

/-- A call takes a message whole only where the calls say so. -/
theorem write_bytes_eq_iff (calls : Calls) {count : Nat} (hcount : 1 < count)
    (hmax : count ≤ maxTransfer) : (calls.write count).1.bytes = count ↔ calls.Whole := by
  rcases calls.write_cases count with ⟨hparts, heq⟩ | ⟨n, parts, heq, hsome, -, hlt, -⟩
  · have hnil : calls.parts = [] := hparts.resolve_right (by omega)
    rw [heq, Whole]
    cases hlast : calls.last with
    | all => simp [LastCall.result, WriteResult.bytes, hnil, hmax]
    | closed =>
        simp only [LastCall.result, WriteResult.bytes]
        constructor
        · omega
        · rintro ⟨-, h⟩
          cases h
    | failed =>
        simp only [LastCall.result, WriteResult.bytes]
        constructor
        · omega
        · rintro ⟨-, h⟩
          cases h
  · rw [heq]
    simp only [WriteResult.bytes]
    constructor
    · omega
    · rintro ⟨hnil, -⟩
      exact absurd hnil hsome

end Calls

end Foundation
