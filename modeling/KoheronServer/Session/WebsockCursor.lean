import KoheronServer.Session.WebsockReceive

/-!
# The cursor in a command payload

The generated parser goes over `cmd.payload` from argument to argument. Each length
that the client declares is compared with the size of the whole buffer and with
nothing else, so whether the parser stays inside depends on the sum of all sizes.
-/

namespace KoheronServer.Session

open Foundation Wire

def Buffer.skip (buff : Buffer) (n : Nat) : Buffer := { buff with position := buff.position + n }

@[simp] theorem Buffer.skip_position (buff : Buffer) (n : Nat) :
    (buff.skip n).position = buff.position + n := rfl

namespace Websock

/-- The `uint32_t` at the current position: the length of a container that comes there. -/
def declaredLength (payload : Buffer) : Nat := (extractUint32 payload.begin).toNat

/-- `length > CMD_PAYLOAD_BUFFER_LEN` in the `recv` of a vector or a string. -/
def Overflows : Pack → Nat → Prop
  | .vector _, length => cmdPayloadBufferLen < length
  | .string, length => cmdPayloadBufferLen < length
  | .scalar _, _ => False
  | .array _ _, _ => False

instance (pack : Pack) (length : Nat) : Decidable (Overflows pack length) :=
  match pack with
  | .vector _ => inferInstanceAs (Decidable (cmdPayloadBufferLen < length))
  | .string => inferInstanceAs (Decidable (cmdPayloadBufferLen < length))
  | .scalar _ => inferInstanceAs (Decidable False)
  | .array _ _ => inferInstanceAs (Decidable False)

/-- How many bytes are read for a pack, with the prefix of a container. -/
def bytesRead : Pack → Nat → Nat
  | .scalar ts, _ => requiredBufferSize ts
  | .array t n, _ => n * t.sizeOf
  | .vector t, length => 4 + length / t.sizeOf * t.sizeOf
  | .string, length => 4 + length

/-- By how much the cursor moves for a pack. -/
def span : Pack → Nat → Nat
  | .scalar ts, _ => requiredBufferSize ts
  | .array t n, _ => t.sizeOfArray n
  | .vector t, length => 4 + length / t.sizeOf * t.sizeOf
  | .string, length => 4 + length

theorem bytesRead_le_span (pack : Pack) (length : Nat) :
    bytesRead pack length ≤ span pack length := by
  cases pack with
  | scalar ts => exact Nat.le_refl _
  | array t n =>
      cases n with
      | zero =>
          rw [bytesRead, Nat.zero_mul]
          exact Nat.zero_le _
      | succ n => exact Nat.le_of_eq (Nat.mul_comm _ _)
  | vector t => exact Nat.le_refl _
  | string => exact Nat.le_refl _

theorem load_array_length (buff : Memory) (t : ScalarType) (n : Nat) :
    (buff.load 0 (n * t.sizeOf)).length = n * t.sizeOf := Memory.load_length _ _ _

theorem load_vector_dvd (buff : Memory) (t : ScalarType) (n : Nat) :
    t.sizeOf ∣ (buff.load 0 (n * t.sizeOf)).length := by
  rw [load_array_length]
  exact Nat.dvd_mul_left _ _

def arrayArg (t : ScalarType) (n : Nat) (buff : Memory) : Arg :=
  .array t n (buff.load 0 (n * t.sizeOf)) (load_array_length buff t n)

def vectorArg (t : ScalarType) (n : Nat) (buff : Memory) : Arg :=
  .vector t (buff.load 0 (n * t.sizeOf)) (load_vector_dvd buff t n)

def contents (payload : Buffer) : Pack → List Arg
  | .scalar ts => (deserialize 0 ts payload.begin).map Scalar.toArg
  | .array t n => [arrayArg t n payload.begin]
  | .vector t => [vectorArg t (declaredLength payload / t.sizeOf) (payload.skip 4).begin]
  | .string => [.string ((payload.skip 4).begin.load 0 (declaredLength payload))]

/-! ## What a receive does to the cursor -/

/-- The three ways in which a receive ends: a container is rejected for its length, the pack is
read, or a read leaves the array. -/
inductive Receive (pack : Pack) (payload : Buffer) : Except Abort (Received Buffer) → Prop where
  | rejected (hover : Overflows pack (declaredLength payload))
      (hroom : payload.position + 4 ≤ cmdPayloadBufferLen) :
      Receive pack payload (.ok ⟨-1, [], payload.skip 4⟩)
  | received (hsmall : ¬Overflows pack (declaredLength payload))
      (hin : pack = .scalar [] ∨
        payload.position + bytesRead pack (declaredLength payload) ≤ cmdPayloadBufferLen) :
      Receive pack payload
        (.ok ⟨0, contents payload pack, payload.skip (span pack (declaredLength payload))⟩)
  | overreadPrefix (hover : Overflows pack (declaredLength payload))
      (hpast : cmdPayloadBufferLen < payload.position + 4) :
      Receive pack payload (.error .bufferOverread)
  | overread (hsmall : ¬Overflows pack (declaredLength payload))
      (hpast : cmdPayloadBufferLen < payload.position + bytesRead pack (declaredLength payload)) :
      Receive pack payload (.error .bufferOverread)

theorem reading_inside {α : Type} {payload : Buffer} {n : Nat}
    (h : payload.position + n ≤ cmdPayloadBufferLen) (result : α) :
    payload.reading cmdPayloadBufferLen n result = .ok result := by
  rw [Buffer.reading, if_pos h]

theorem reading_past {α : Type} {payload : Buffer} {n : Nat}
    (h : ¬payload.position + n ≤ cmdPayloadBufferLen) (result : α) :
    payload.reading cmdPayloadBufferLen n result = .error .bufferOverread := by
  rw [Buffer.reading, if_neg h]

theorem deserializePack_receive (ts : List ScalarType) (payload : Buffer) :
    Receive (.scalar ts) payload (deserializePack ts payload) := by
  unfold deserializePack
  by_cases hts : ts.length = 0
  · obtain rfl := List.eq_nil_of_length_eq_zero hts
    exact .received id (.inl rfl)
  · rw [if_neg hts, Buffer.deserialize]
    by_cases hin : payload.position + requiredBufferSize ts ≤ cmdPayloadBufferLen
    · rw [reading_inside hin]
      exact .received id (.inr hin)
    · rw [reading_past hin]
      exact .overread id (Nat.lt_of_not_le hin)

theorem recvArray_receive (t : ScalarType) (n : Nat) (payload : Buffer) :
    Receive (.array t n) payload (recvArray t n payload) := by
  unfold recvArray Buffer.extractArray
  by_cases hin : payload.position + n * t.sizeOf ≤ cmdPayloadBufferLen
  · rw [reading_inside hin]
    exact .received id (.inr hin)
  · rw [reading_past hin]
    exact .overread id (Nat.lt_of_not_le hin)

theorem deserializeLength_inside {payload : Buffer}
    (h : payload.position + 4 ≤ cmdPayloadBufferLen) :
    payload.deserializeLength cmdPayloadBufferLen = .ok (declaredLength payload, payload.skip 4) :=
  reading_inside h _

theorem deserializeLength_past {payload : Buffer}
    (h : ¬payload.position + 4 ≤ cmdPayloadBufferLen) :
    payload.deserializeLength cmdPayloadBufferLen = .error .bufferOverread :=
  reading_past h _

theorem skip_skip (payload : Buffer) (m n : Nat) :
    (payload.skip m).skip n = payload.skip (m + n) := by
  unfold Buffer.skip
  rw [Nat.add_assoc]

theorem recvVector_receive (t : ScalarType) (payload : Buffer) :
    Receive (.vector t) payload (recvVector t payload) := by
  have hread : bytesRead (.vector t) (declaredLength payload) =
      4 + declaredLength payload / t.sizeOf * t.sizeOf := rfl
  unfold recvVector
  by_cases hover : cmdPayloadBufferLen < declaredLength payload
  · by_cases hroom : payload.position + 4 ≤ cmdPayloadBufferLen
    · simp only [deserializeLength_inside hroom, if_pos hover]
      exact .rejected hover hroom
    · simp only [deserializeLength_past hroom]
      exact .overreadPrefix hover (Nat.lt_of_not_le hroom)
  · by_cases hin : payload.position + (4 + declaredLength payload / t.sizeOf * t.sizeOf) ≤
        cmdPayloadBufferLen
    · have hdata : (payload.skip 4).position + declaredLength payload / t.sizeOf * t.sizeOf ≤
          cmdPayloadBufferLen := by
        rw [Buffer.skip_position]
        omega
      simp only [deserializeLength_inside (show payload.position + 4 ≤ cmdPayloadBufferLen by omega), if_neg hover,
        Buffer.toVector, reading_inside hdata]
      rw [← Buffer.skip, skip_skip]
      exact .received hover (.inr hin)
    · by_cases hroom : payload.position + 4 ≤ cmdPayloadBufferLen
      · have hdata : ¬(payload.skip 4).position + declaredLength payload / t.sizeOf * t.sizeOf ≤
            cmdPayloadBufferLen := by
          rw [Buffer.skip_position]
          omega
        simp only [deserializeLength_inside hroom, if_neg hover, Buffer.toVector,
          reading_past hdata]
        exact .overread hover (Nat.lt_of_not_le hin)
      · simp only [deserializeLength_past hroom]
        exact .overread hover (Nat.lt_of_not_le hin)

theorem recvString_receive (payload : Buffer) : Receive .string payload (recvString payload) := by
  unfold recvString
  by_cases hover : cmdPayloadBufferLen < declaredLength payload
  · by_cases hroom : payload.position + 4 ≤ cmdPayloadBufferLen
    · simp only [deserializeLength_inside hroom, if_pos hover]
      exact .rejected hover hroom
    · simp only [deserializeLength_past hroom]
      exact .overreadPrefix hover (Nat.lt_of_not_le hroom)
  · by_cases hin : payload.position + (4 + declaredLength payload) ≤ cmdPayloadBufferLen
    · have hdata : (payload.skip 4).position + declaredLength payload ≤ cmdPayloadBufferLen := by
        rw [Buffer.skip_position]
        omega
      simp only [deserializeLength_inside (show payload.position + 4 ≤ cmdPayloadBufferLen by omega), if_neg hover,
        Buffer.toString, reading_inside hdata]
      rw [← Buffer.skip, skip_skip]
      exact .received hover (.inr hin)
    · by_cases hroom : payload.position + 4 ≤ cmdPayloadBufferLen
      · have hdata : ¬(payload.skip 4).position + declaredLength payload ≤ cmdPayloadBufferLen := by
          rw [Buffer.skip_position]
          omega
        simp only [deserializeLength_inside hroom, if_neg hover, Buffer.toString,
          reading_past hdata]
        exact .overread hover (Nat.lt_of_not_le hin)
      · simp only [deserializeLength_past hroom]
        exact .overread hover (Nat.lt_of_not_le hin)

theorem receive_cursor (pack : Pack) (slot : Slot) (payload : Buffer) :
    Receive pack payload (session.receive pack slot payload) := by
  cases pack with
  | scalar ts => exact deserializePack_receive ts payload
  | array t n => exact recvArray_receive t n payload
  | vector t => exact recvVector_receive t payload
  | string => exact recvString_receive payload

/-! ## The whole parser -/

/-- Every read that the parser makes from `payload` on is inside the array, and so is the position
behind it; a length that would lead out of the array is answered with -1 behind its prefix. -/
def CursorInside (slots : Nat → Slot) : Nat → List Pack → Buffer → Prop
  | _, [], payload => payload.position ≤ cmdPayloadBufferLen
  | idx, pack :: packs, payload =>
      payload.position ≤ cmdPayloadBufferLen ∧
        ∃ r, session.receive pack (slots idx) payload = .ok r ∧
          (cmdPayloadBufferLen < payload.position + span pack (declaredLength payload) →
            r.ret = -1 ∧ r.session = payload.skip 4) ∧
          r.session.position ≤ cmdPayloadBufferLen ∧
          (¬r.ret < 0 → CursorInside slots (idx + 1) packs r.session)

theorem CursorInside.parsePacks {slots : Nat → Slot} {idx : Nat} {packs : List Pack}
    {payload : Buffer}
    (h : CursorInside slots idx packs payload) :
    ∃ parsed payload', parsePacks session slots idx packs payload = .ok (parsed, payload') ∧
      payload'.position ≤ cmdPayloadBufferLen := by
  induction packs generalizing idx payload with
  | nil => exact ⟨.called [], payload, rfl, h⟩
  | cons pack packs ih =>
      obtain ⟨_, r, hr, _, hposition, hrest⟩ := h
      by_cases hret : r.ret < 0
      · exact ⟨.rejected, r.session, parsePacks_rejected packs hr hret, hposition⟩
      · have hcontinues := parsePacks_received packs hr hret
        obtain ⟨parsed, payload', hparse, hend⟩ := ih (hrest hret)
        cases parsed with
        | rejected => exact ⟨.rejected, payload', hcontinues.rejected payload' hparse, hend⟩
        | called args =>
            exact ⟨.called (r.args ++ args), payload', hcontinues.called args payload' hparse, hend⟩

def taken : List Pack → Buffer → Nat
  | [], _ => 0
  | pack :: packs, payload =>
      let length := declaredLength payload
      if Overflows pack length then 4
      else span pack length + taken packs (payload.skip (span pack length))

theorem cursorInside_iff (slots : Nat → Slot) (idx : Nat) (packs : List Pack) (payload : Buffer) :
    CursorInside slots idx packs payload ↔
      payload.position + taken packs payload ≤ cmdPayloadBufferLen := by
  induction packs generalizing idx payload with
  | nil => rfl
  | cons pack packs ih =>
      unfold CursorInside taken
      have hreceive := receive_cursor pack (slots idx) payload
      generalize session.receive pack (slots idx) payload = result at hreceive
      cases hreceive with
      | rejected hover hroom =>
          simp only [if_pos hover]
          refine iff_of_true ⟨by omega, _, rfl, fun _ => ⟨rfl, rfl⟩, hroom, ?_⟩ hroom
          intro hret
          exact absurd (show (-1 : Int) < 0 by decide) hret
      | received hsmall hin =>
          have hnext := ih (idx + 1) (payload.skip (span pack (declaredLength payload)))
          rw [Buffer.skip_position, Nat.add_assoc] at hnext
          simp only [if_neg hsmall]
          rw [← hnext]
          constructor
          · intro ⟨_, r, hr, _, _, hrest⟩
            cases hr
            exact hrest (show ¬(0 : Int) < 0 by decide)
          · intro hrest
            have hall := hnext.mp hrest
            refine ⟨by omega, _, rfl, ?_, ?_, fun _ => hrest⟩
            · intro hpast
              omega
            · rw [Buffer.skip_position]
              omega
      | overreadPrefix hover hpast =>
          simp only [if_pos hover]
          refine iff_of_false ?_ (by omega)
          intro ⟨_, r, hr, _⟩
          cases hr
      | overread hsmall hpast =>
          have hspan := bytesRead_le_span pack (declaredLength payload)
          simp only [if_neg hsmall]
          refine iff_of_false ?_ (by omega)
          intro ⟨_, r, hr, _⟩
          cases hr

/-- Scalars and arrays alone take what the generated `static_assert` adds up. -/
theorem taken_eq_reqBuffSize {packs : List Pack}
    (h : ∀ p ∈ packs, (∃ ts, p = .scalar ts) ∨ ∃ t n, p = .array t n) (payload : Buffer) :
    taken packs payload = reqBuffSize packs := by
  induction packs generalizing payload with
  | nil => rfl
  | cons pack packs ih =>
      have hrest := ih (fun p hp => h p (List.mem_cons_of_mem _ hp))
      unfold taken
      rcases h pack (List.mem_cons_self ..) with ⟨ts, rfl⟩ | ⟨t, n, rfl⟩
      · simp only [if_neg (show ¬Overflows (.scalar ts) _ from id), hrest, span, reqBuffSize]
      · simp only [if_neg (show ¬Overflows (.array t n) _ from id), hrest, span, reqBuffSize]

/-- The parser of an operation stays inside the payload buffer exactly when the sizes of the
arguments add up to at most the size of the buffer. That is always so without a vector or string. -/
theorem cursor_inside_iff (op : Operation) (data : Memory) (slots : Nat → Slot) :
    (CursorInside slots 0 (buildArgsPacks op.arguments).1 ⟨data, 0⟩ ↔
        taken (buildArgsPacks op.arguments).1 ⟨data, 0⟩ ≤ cmdPayloadBufferLen) ∧
      ((buildArgsPacks op.arguments).2 = false →
        CursorInside slots 0 (buildArgsPacks op.arguments).1 ⟨data, 0⟩) := by
  have hiff := cursorInside_iff slots 0 (buildArgsPacks op.arguments).1 ⟨data, 0⟩
  rw [Nat.zero_add] at hiff
  refine ⟨hiff, ?_⟩
  intro hnone
  rw [hiff, taken_eq_reqBuffSize (pack_of_not_hasVector hnone)]
  exact op.reqBuffSize_le hnone

def arrayOperation : Operation where
  arguments := [.scalar .uint16, .array .float 3, .scalar .bool]
  reqBuffSize_le := by decide
  fits := by decide

theorem cursor_inside_iff_array :
    CursorInside (fun _ => ⟨fun _ => 0, []⟩) 0 (buildArgsPacks arrayOperation.arguments).1
      ⟨fun _ => 0xFF, 0⟩ :=
  (cursor_inside_iff arrayOperation (fun _ => 0xFF) fun _ => ⟨fun _ => 0, []⟩).2 rfl

def stringOperation : Operation where
  arguments := [.string]
  reqBuffSize_le := by decide
  fits := by decide

/-- A string as long as the buffer: its last four bytes are behind the end. -/
theorem string_overread :
    session.receive .string ⟨fun _ => 0, []⟩ ⟨Memory.ofBytes [0, 2, 0, 0], 0⟩ =
    .error .bufferOverread ∧
      ¬CursorInside (fun _ => ⟨fun _ => 0, []⟩) 0 (buildArgsPacks stringOperation.arguments).1
        ⟨Memory.ofBytes [0, 2, 0, 0], 0⟩ := by
  have hover : session.receive .string ⟨fun _ => 0, []⟩ ⟨Memory.ofBytes [0, 2, 0, 0], 0⟩ =
      .error .bufferOverread := rfl
  refine ⟨hover, ?_⟩
  intro ⟨_, r, hr, _⟩
  rw [hover] at hr
  cases hr

end Websock

end KoheronServer.Session
