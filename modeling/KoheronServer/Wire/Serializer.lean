import KoheronServer.Wire.Arg

/-!
# Serializer and deserializer

`deserialize` and `serialize` of a tuple of scalars, and the `DynamicSerializer`
that turns the arguments of a command into a message. A store that would leave
`scal_data` is outside the language; the model has no result there.
-/

namespace KoheronServer.Wire

open Foundation

/-! ## Tuples of scalars -/

def requiredBufferSize : List ScalarType → Nat
  | [] => 0
  | t :: ts => t.sizeOf + requiredBufferSize ts

def deserialize (position : Nat) : List ScalarType → Memory → List Scalar
  | [], _ => []
  | t :: ts, buff =>
      ⟨t, extract t (buff.offset position)⟩ :: deserialize (position + t.sizeOf) ts buff

/-- `detail::serialize<buff_pos, I, Tp...>`: what it leaves in `buff`. -/
def serializeAt (buffPos : Nat) : List Scalar → Memory → Memory
  | [], buff => buff
  | s :: ss, buff =>
      serializeAt (buffPos + s.type.sizeOf) ss (buff.store buffPos (append s.type s.value))

def serialize (t : List Scalar) : Bytes :=
  (serializeAt 0 t fun _ => 0).load 0 (requiredBufferSize (t.map Scalar.type))

def tupleWire (t : List Scalar) : Bytes := t.flatMap fun s => append s.type s.value

@[simp] theorem tupleWire_cons (s : Scalar) (t : List Scalar) :
    tupleWire (s :: t) = append s.type s.value ++ tupleWire t := rfl

@[simp] theorem tupleWire_length (t : List Scalar) :
    (tupleWire t).length = requiredBufferSize (t.map Scalar.type) := by
  induction t with
  | nil => rfl
  | cons s t ih => simp [requiredBufferSize, ih]

theorem serializeAt_before (t : List Scalar) (buff : Memory) {position q n : Nat}
    (h : q + n ≤ position) : (serializeAt position t buff).load q n = buff.load q n := by
  induction t generalizing position buff with
  | nil => rfl
  | cons s t ih =>
      rw [serializeAt, ih _ (by omega), Memory.load_store_before _ _ h]

theorem serializeAt_load (t : List Scalar) (buff : Memory) (position : Nat) :
    (serializeAt position t buff).load position (requiredBufferSize (t.map Scalar.type)) =
      tupleWire t := by
  induction t generalizing position buff with
  | nil => rfl
  | cons s t ih =>
      have hfirst : (buff.store position (append s.type s.value)).load position s.type.sizeOf =
          append s.type s.value := by
        simpa using Memory.load_store_self buff position (append s.type s.value)
      rw [List.map_cons, requiredBufferSize, Memory.load_append, serializeAt, ih,
        serializeAt_before _ _ (Nat.le_refl _), hfirst, tupleWire_cons]

theorem serialize_eq (t : List Scalar) : serialize t = tupleWire t :=
  serializeAt_load t _ 0

theorem deserialize_of_load (t : List Scalar) {buff : Memory} {position : Nat}
    (h : buff.load position (requiredBufferSize (t.map Scalar.type)) = tupleWire t) :
    deserialize position (t.map Scalar.type) buff = t := by
  induction t generalizing position with
  | nil => rfl
  | cons s t ih =>
      rw [List.map_cons, requiredBufferSize, Memory.load_append, tupleWire_cons] at h
      obtain ⟨hfirst, hrest⟩ := List.append_inj h (by simp)
      have hvalue : extract s.type (buff.offset position) = s.value := by
        apply extract_append
        rw [Memory.load_offset]
        exact hfirst
      rw [List.map_cons, deserialize, hvalue, ih hrest]

theorem deserialize_congr (ts : List ScalarType) {buff buff' : Memory} {position position' : Nat}
    (h : ∀ i < requiredBufferSize ts, buff (position + i) = buff' (position' + i)) :
    deserialize position ts buff = deserialize position' ts buff' := by
  induction ts generalizing position position' with
  | nil => rfl
  | cons t ts ih =>
      have hfirst : extract t (buff.offset position) = extract t (buff'.offset position') := by
        have hb : ∀ i < t.sizeOf, (buff.offset position) i = (buff'.offset position') i :=
          fun i hi => h i (by rw [requiredBufferSize]; omega)
        cases t <;> simp only [extract, extractUint8, extractUint16, extractUint32, extractUint64,
          extractBool, Memory.offset_apply, ScalarType.sizeOf] at hb ⊢
        all_goals simp only [hb 0 (by decide)]
        all_goals try simp only [hb 1 (by decide)]
        all_goals try simp only [hb 2 (by decide), hb 3 (by decide)]
        all_goals simp only [hb 4 (by decide), hb 5 (by decide), hb 6 (by decide), hb 7 (by decide)]
      have hrest : deserialize (position + t.sizeOf) ts buff =
          deserialize (position' + t.sizeOf) ts buff' := by
        apply ih
        intro i hi
        have hb := h (t.sizeOf + i) (by rw [requiredBufferSize]; omega)
        rwa [← Nat.add_assoc, ← Nat.add_assoc] at hb
      rw [deserialize, deserialize, hfirst, hrest]

@[simp] theorem deserialize_length (position : Nat) (ts : List ScalarType) (buff : Memory) :
    (deserialize position ts buff).length = ts.length := by
  induction ts generalizing position with
  | nil => rfl
  | cons t ts ih => rw [deserialize, List.length_cons, ih, List.length_cons]

theorem deserialize_ne {ts : List ScalarType} (hts : ts ≠ []) {buff buff' : Memory}
    {position k : Nat}
    (hk : requiredBufferSize ts = k + 1) (hsame : buff.load position k = buff'.load position k)
    (hzero : buff (position + k) = 0) (hone : buff' (position + k) = 1) :
    deserialize position ts buff ≠ deserialize position ts buff' := by
  induction ts generalizing position k with
  | nil => exact absurd rfl hts
  | cons t ts ih =>
      intro h
      obtain ⟨hfirst, hrest⟩ := List.cons.inj h
      cases ts with
      | nil =>
          have hfirst : extract t (buff.offset position) = extract t (buff'.offset position) := by
            simpa using hfirst
          refine extract_ne (k := k) hk ?_ hzero hone hfirst
          rw [Memory.load_offset, Memory.load_offset]
          exact hsame
      | cons t' ts =>
          rw [requiredBufferSize] at hk
          have hpos := t'.sizeOf_pos
          have hsize : requiredBufferSize (t' :: ts) = k - t.sizeOf + 1 := by
            rw [requiredBufferSize] at hk ⊢
            omega
          have hsplit : t.sizeOf ≤ k := by
            rw [requiredBufferSize] at hk
            omega
          have hplace : position + t.sizeOf + (k - t.sizeOf) = position + k := by omega
          refine ih (by simp) hsize ?_ (hplace ▸ hzero) (hplace ▸ hone) hrest
          rw [← Memory.load_drop buff position hsplit,
            ← Memory.load_drop buff' position hsplit, hsame]

def Scalar.toArg (s : Scalar) : Arg := .scalar s.type s.value

theorem argsWire_map_toArg (t : List Scalar) : argsWire (t.map Scalar.toArg) = tupleWire t := by
  induction t with
  | nil => rfl
  | cons s t ih => rw [List.map_cons, argsWire_cons, ih]; rfl

theorem exists_tuple {args : List Arg} {ts : List ScalarType}
    (h : args.map Arg.type = ts.map .scalar) :
    ∃ t : List Scalar, args = t.map Scalar.toArg ∧ t.map Scalar.type = ts := by
  induction args generalizing ts with
  | nil =>
      cases ts with
      | nil => exact ⟨[], rfl, rfl⟩
      | cons t ts => simp at h
  | cons a args ih =>
      cases ts with
      | nil => simp at h
      | cons t ts =>
          simp only [List.map_cons, List.cons.injEq] at h
          obtain ⟨tup, rfl, rfl⟩ := ih h.2
          cases a with
          | scalar t' value =>
              obtain rfl : t' = t := by simpa [Arg.type] using h.1
              exact ⟨⟨t', value⟩ :: tup, rfl, rfl⟩
          | array | vector | string => simp [Arg.type] at h

/-! ## `DynamicSerializer` -/

/-- `DynamicSerializer<SCALAR_PACK_LEN>`: the scalars not yet dumped. -/
structure DynamicSerializer where
  scalData : Memory
  scalSize : Nat

/-- `vector::resize` on a vector of bytes. -/
def resize (buffer : Bytes) (n : Nat) : Bytes :=
    buffer.take n ++ List.replicate (n - buffer.length) 0

@[simp] theorem resize_length (buffer : Bytes) (n : Nat) : (resize buffer n).length = n := by
  simp [resize]
  omega

namespace DynamicSerializer

variable (packLen : Nat)

/-- `append(t)`, as long as it stays inside `scal_data`. -/
def append (ser : DynamicSerializer) (t : ScalarType) (value : t.Val) : Option DynamicSerializer :=
  if ser.scalSize + t.sizeOf ≤ packLen then
    some
      { scalData := ser.scalData.store ser.scalSize (Wire.append t value)
        scalSize := ser.scalSize + t.sizeOf }
  else none

def dumpScalarPack (ser : DynamicSerializer) (buffer : Bytes) : DynamicSerializer × Bytes :=
  if ser.scalSize > 0 then
    ({ ser with scalSize := 0 }, buffer ++ ser.scalData.load 0 ser.scalSize)
  else (ser, buffer)

def dumpContainerToBuffer (buffer container : Bytes) : Bytes :=
  let nBytes : BitVec 32 := BitVec.ofNat 32 container.length
  let buffer := buffer ++ appendUint32 nBytes
  if nBytes.toNat > 0 then buffer ++ container.take nBytes.toNat else buffer

def dumpArrayToBuffer (buffer arr : Bytes) : Bytes :=
  if arr.length > 0 then buffer ++ arr else buffer

/-- The `command_serializer` overloads, one for each kind of the first argument. -/
def commandSerializer (ser : DynamicSerializer) (buffer : Bytes) :
    List Arg → Option (DynamicSerializer × Bytes)
  | [] => some (ser, buffer)
  | .scalar t value :: args =>
      match ser.append packLen t value with
      | none => none
      | some ser => commandSerializer ser buffer args
  | .vector _ container _ :: args | .string container :: args =>
      let dumped := ser.dumpScalarPack buffer
      commandSerializer dumped.1 (dumpContainerToBuffer dumped.2 container) args
  | .array _ _ arr _ :: args =>
      let dumped := ser.dumpScalarPack buffer
      commandSerializer dumped.1 (dumpArrayToBuffer dumped.2 arr) args

/-- `serialize(0U, class_id, func_id)`. -/
def header (classId funcId : BitVec 16) : Bytes :=
  serialize [⟨.uint32, (0 : BitVec 32)⟩, ⟨.uint16, classId⟩, ⟨.uint16, funcId⟩]

/-- `buffer.resize(...)` to the size of the header and the move of the header into it. -/
def putHeader (classId funcId : BitVec 16) (buffer : Bytes) : Bytes :=
  let h := header classId funcId
  let buffer := resize buffer (requiredBufferSize [.uint32, .uint16, .uint16])
  h ++ buffer.drop h.length

/-- `build_command<class_id, func_id>(buffer, args...)`. -/
def buildCommand (classId funcId : BitVec 16) (ser : DynamicSerializer) (buffer : Bytes) :
    List Arg → Option (DynamicSerializer × Bytes)
  | [] => some (ser, putHeader classId funcId buffer)
  | args =>
      let buffer := putHeader classId funcId buffer
      match commandSerializer packLen { ser with scalSize := 0 } buffer args with
      | none => none
      | some (ser, buffer) => some (ser.dumpScalarPack buffer)

end DynamicSerializer

/-- Every run of scalars, and so every maximal one, takes at most `packLen` bytes. -/
def RunsFit (packLen : Nat) (args : List Arg) : Prop :=
  ∀ run, run <:+: args → (∀ a ∈ run, a.IsScalar) → (argsWire run).length ≤ packLen

theorem RunsFit.of_suffix {packLen : Nat} {pre args : List Arg}
    (h : RunsFit packLen (pre ++ args)) :
    RunsFit packLen args :=
  fun run hrun hs => h run (hrun.trans (List.suffix_append pre args).isInfix) hs

theorem RunsFit.of_length {packLen : Nat} {args : List Arg} (h : (argsWire args).length ≤ packLen) :
    RunsFit packLen args := by
  rintro run ⟨pre, post, rfl⟩ _
  simp only [argsWire_append, List.length_append] at h
  omega

def messageWire (classId funcId : BitVec 16) (args : List Arg) : Bytes :=
  DynamicSerializer.header classId funcId ++ argsWire args

namespace DynamicSerializer

theorem header_eq (classId funcId : BitVec 16) :
    header classId funcId = [0, 0, 0, 0] ++ appendUint16 classId ++ appendUint16 funcId := by
  rw [header, serialize_eq]
  rfl

@[simp] theorem header_length (classId funcId : BitVec 16) :
    (header classId funcId).length = 8 := by
  rw [header, serialize_eq, tupleWire_length]
  rfl

@[simp] theorem putHeader_eq (classId funcId : BitVec 16) (buffer : Bytes) :
    putHeader classId funcId buffer = header classId funcId := by
  simp [putHeader, requiredBufferSize, ScalarType.sizeOf]

theorem dumpContainerToBuffer_eq (buffer container : Bytes) :
    dumpContainerToBuffer buffer container = buffer ++ Arg.containerWire container := by
  unfold dumpContainerToBuffer Arg.containerWire
  by_cases h : 0 < container.length % 2 ^ 32
  · simp only [BitVec.toNat_ofNat, gt_iff_lt, if_pos h, List.append_assoc]
  · have hz : container.length % 2 ^ 32 = 0 := by omega
    simp only [BitVec.toNat_ofNat, hz, gt_iff_lt, Nat.lt_irrefl, if_false, List.take_zero,
      List.append_nil]

theorem dumpArrayToBuffer_eq (buffer arr : Bytes) :
    dumpArrayToBuffer buffer arr = buffer ++ arr := by
  unfold dumpArrayToBuffer
  split
  · rfl
  · have hnil : arr = [] := List.eq_nil_of_length_eq_zero (by omega)
    simp [hnil]

/-- Dumping empties the pack and moves its bytes to the buffer. -/
theorem dumpScalarPack_spec (ser : DynamicSerializer) (buffer : Bytes) :
    (ser.dumpScalarPack buffer).1.scalSize = 0 ∧
      (ser.dumpScalarPack buffer).2 = buffer ++ ser.scalData.load 0 ser.scalSize := by
  unfold dumpScalarPack
  by_cases h : ser.scalSize > 0
  · simp [h]
  · have hz : ser.scalSize = 0 := by omega
    simp [hz]

/-- The scalars pending in the pack are a run `pack` of arguments; together with
`args` they reach the buffer and the pack in order. -/
theorem commandSerializer_eq {packLen : Nat} (args pack : List Arg) (ser : DynamicSerializer)
    (buffer : Bytes) (hscalar : ∀ a ∈ pack, a.IsScalar)
    (hpack : ser.scalData.load 0 ser.scalSize = argsWire pack)
    (hfit : RunsFit packLen (pack ++ args)) :
    ∃ ser' buffer', commandSerializer packLen ser buffer args = some (ser', buffer') ∧
      buffer' ++ ser'.scalData.load 0 ser'.scalSize = buffer ++ argsWire pack ++ argsWire args := by
  induction args generalizing pack ser buffer with
  | nil => exact ⟨ser, buffer, rfl, by simp [hpack]⟩
  | cons a args ih =>
      have hnext : RunsFit packLen args := by
        have hsplit : RunsFit packLen ((pack ++ [a]) ++ args) := by simpa using hfit
        exact hsplit.of_suffix
      -- A container flushes the pack, so the rest starts with an empty one.
      have hflush : ∀ bytes, ∃ ser' buffer',
          commandSerializer packLen (ser.dumpScalarPack buffer).1
            ((ser.dumpScalarPack buffer).2 ++ bytes) args = some (ser', buffer') ∧
          buffer' ++ ser'.scalData.load 0 ser'.scalSize =
            buffer ++ argsWire pack ++ bytes ++ argsWire args := by
        intro bytes
        obtain ⟨hempty, hbuffer⟩ := ser.dumpScalarPack_spec buffer
        rw [hbuffer, hpack]
        simpa using ih [] (ser.dumpScalarPack buffer).1 (buffer ++ argsWire pack ++ bytes)
          (by simp) (by rw [hempty]; rfl) hnext
      cases a with
      | scalar t value =>
          have hscalars : ∀ a ∈ pack ++ [.scalar t value], a.IsScalar := by
            intro a ha
            rcases List.mem_append.mp ha with ha | ha
            · exact hscalar a ha
            · exact ⟨t, by rw [List.mem_singleton.mp ha]; rfl⟩
          have hrun := hfit (pack ++ [.scalar t value]) ⟨[], args, by simp⟩ hscalars
          have hsize : ser.scalSize = (argsWire pack).length := by
            rw [← hpack, Memory.load_length]
          have hroom : ser.scalSize + t.sizeOf ≤ packLen := by
            simpa [hsize, Arg.wire] using hrun
          have hloaded : (ser.scalData.store ser.scalSize (Wire.append t value)).load 0
              (ser.scalSize + t.sizeOf) = argsWire (pack ++ [.scalar t value]) := by
            have hself := Memory.load_store_self ser.scalData ser.scalSize (Wire.append t value)
            rw [append_length] at hself
            rw [Memory.load_append, Memory.load_store_before _ _ (by omega), hpack, Nat.zero_add,
              hself]
            simp [Arg.wire]
          obtain ⟨ser', buffer', hrest, hwire⟩ := ih (pack ++ [.scalar t value])
            ⟨ser.scalData.store ser.scalSize (Wire.append t value), ser.scalSize + t.sizeOf⟩ buffer
            hscalars hloaded (by simpa using hfit)
          refine ⟨ser', buffer', ?_, ?_⟩
          · rw [commandSerializer, append, if_pos hroom]
            exact hrest
          · rw [hwire]
            simp
      | vector t container whole =>
          obtain ⟨ser', buffer', hrest, hwire⟩ := hflush (Arg.containerWire container)
          refine ⟨ser', buffer', ?_, ?_⟩
          · rw [commandSerializer, dumpContainerToBuffer_eq]
            exact hrest
          · rw [hwire]
            simp [Arg.wire]
      | string container =>
          obtain ⟨ser', buffer', hrest, hwire⟩ := hflush (Arg.containerWire container)
          refine ⟨ser', buffer', ?_, ?_⟩
          · rw [commandSerializer, dumpContainerToBuffer_eq]
            exact hrest
          · rw [hwire]
            simp [Arg.wire]
      | array t n arr size =>
          obtain ⟨ser', buffer', hrest, hwire⟩ := hflush arr
          refine ⟨ser', buffer', ?_, ?_⟩
          · rw [commandSerializer, dumpArrayToBuffer_eq]
            exact hrest
          · rw [hwire]
            simp [Arg.wire]

/-- Whatever the serializer and the vector held before, `build_command` leaves
the header and the bytes of the arguments in order. -/
theorem buildCommand_eq {packLen : Nat} {args : List Arg} (hfit : RunsFit packLen args)
    (classId funcId : BitVec 16) (ser : DynamicSerializer) (buffer : Bytes) :
    ∃ ser', buildCommand packLen classId funcId ser buffer args =
      some (ser', messageWire classId funcId args) := by
  cases args with
  | nil => exact ⟨ser, by simp [buildCommand, messageWire]⟩
  | cons a args =>
      obtain ⟨ser', buffer', hrest, hwire⟩ := commandSerializer_eq (a :: args) []
        { ser with scalSize := 0 } (header classId funcId) (by simp) rfl (by simpa using hfit)
      refine ⟨(ser'.dumpScalarPack buffer').1, ?_⟩
      rw [buildCommand, putHeader_eq, hrest]
      · have hbuffer := (ser'.dumpScalarPack_spec buffer').2
        rw [hwire] at hbuffer
        simp only [Option.some.injEq]
        exact Prod.ext rfl (by simpa [messageWire] using hbuffer)
      · simp

/-- The scalars that have reached the pack have found room in it. -/
theorem commandSerializer_fits {packLen : Nat} (args : List Arg) {ser : DynamicSerializer}
    {buffer : Bytes} {result : DynamicSerializer × Bytes} (hsize : ser.scalSize ≤ packLen)
    (h : commandSerializer packLen ser buffer args = some result) :
    (∀ run, run <+: args → (∀ a ∈ run, a.IsScalar) →
        ser.scalSize + (argsWire run).length ≤ packLen) ∧ RunsFit packLen args := by
  induction args generalizing ser buffer with
  | nil =>
      have hnil : ∀ run : List Arg, run <:+: [] → (argsWire run).length = 0 := by
        intro run hrun
        rw [List.infix_nil.mp hrun]
        rfl
      refine ⟨fun run hrun _ => ?_, fun run hrun _ => ?_⟩
      · rw [hnil run hrun.isInfix]
        exact hsize
      · rw [hnil run hrun]
        exact Nat.zero_le _
  | cons a args ih =>
      -- A container is in no run, and what is behind it starts with an empty pack.
      have hflush : ¬a.IsScalar → ∀ {bytes},
          commandSerializer packLen (ser.dumpScalarPack buffer).1 bytes args = some result →
          (∀ run, run <+: a :: args → (∀ a ∈ run, a.IsScalar) →
            ser.scalSize + (argsWire run).length ≤ packLen) ∧ RunsFit packLen (a :: args) := by
        intro hcontainer bytes hrest
        obtain ⟨-, hfit⟩ := ih (by rw [(ser.dumpScalarPack_spec buffer).1]; exact Nat.zero_le _) hrest
        have hnil : ∀ run, run <+: a :: args → (∀ a ∈ run, a.IsScalar) → run = [] := by
          intro run hrun hscalar
          cases run with
          | nil => rfl
          | cons b run =>
              obtain ⟨rfl, -⟩ := List.cons_prefix_cons.mp hrun
              exact absurd (hscalar b List.mem_cons_self) hcontainer
        refine ⟨fun run hrun hscalar => ?_, fun run hrun hscalar => ?_⟩
        · rw [hnil run hrun hscalar]
          exact hsize
        · rcases List.infix_cons_iff.mp hrun with hrun | hrun
          · rw [hnil run hrun hscalar]
            exact Nat.zero_le _
          · exact hfit run hrun hscalar
      cases a with
      | scalar t value =>
          rw [commandSerializer, append] at h
          by_cases hroom : ser.scalSize + t.sizeOf ≤ packLen
          · rw [if_pos hroom] at h
            obtain ⟨hbegins, hfit⟩ := ih hroom h
            have hfirst : ∀ run, run <+: Arg.scalar t value :: args → (∀ a ∈ run, a.IsScalar) →
                ser.scalSize + (argsWire run).length ≤ packLen := by
              intro run hrun hscalar
              cases run with
              | nil => exact hsize
              | cons b run =>
                  obtain ⟨rfl, hrest⟩ := List.cons_prefix_cons.mp hrun
                  have hle : ser.scalSize + t.sizeOf + (argsWire run).length ≤ packLen :=
                    hbegins run hrest fun a ha => hscalar a (List.mem_cons_of_mem _ ha)
                  simp only [argsWire_cons, Arg.wire, List.length_append, append_length]
                  omega
            refine ⟨hfirst, fun run hrun hscalar => ?_⟩
            rcases List.infix_cons_iff.mp hrun with hrun | hrun
            · have hle := hfirst run hrun hscalar
              omega
            · exact hfit run hrun hscalar
          · rw [if_neg hroom] at h
            cases h
      | vector t container whole => exact hflush (by rintro ⟨_, hs⟩; cases hs) h
      | string container => exact hflush (by rintro ⟨_, hs⟩; cases hs) h
      | array t n arr size => exact hflush (by rintro ⟨_, hs⟩; cases hs) h

/-- `build_command` has a result for no other arguments. -/
theorem buildCommand_fits {packLen : Nat} {args : List Arg} {classId funcId : BitVec 16}
    {ser : DynamicSerializer} {buffer : Bytes} {result : DynamicSerializer × Bytes}
    (h : buildCommand packLen classId funcId ser buffer args = some result) :
    RunsFit packLen args := by
  cases args with
  | nil => exact RunsFit.of_length (Nat.zero_le _)
  | cons a args =>
      rw [buildCommand] at h
      · split at h
        case h_1 => cases h
        case h_2 heq => exact (commandSerializer_fits _ (Nat.zero_le _) heq).2
      · simp

end DynamicSerializer

/-! ## Calls of a client -/

structure Call where
  device : BitVec 16
  operation : BitVec 16
  args : List Arg

def callsWire (calls : List Call) : Bytes :=
  calls.flatMap fun c => messageWire c.device c.operation c.args

@[simp] theorem callsWire_cons (c : Call) (calls : List Call) :
    callsWire (c :: calls) = messageWire c.device c.operation c.args ++ callsWire calls := rfl

def sendAll (packLen : Nat) : DynamicSerializer → Bytes → List Call → Option Bytes
  | _, _, [] => some []
  | ser, buffer, c :: calls =>
      match ser.buildCommand packLen c.device c.operation buffer c.args with
      | none => none
      | some (ser, buffer) => (sendAll packLen ser buffer calls).map (buffer ++ ·)

theorem sendAll_eq {packLen : Nat} {calls : List Call} (hfit : ∀ c ∈ calls, RunsFit packLen c.args)
    (ser : DynamicSerializer) (buffer : Bytes) :
    sendAll packLen ser buffer calls = some (callsWire calls) := by
  induction calls generalizing ser buffer with
  | nil => rfl
  | cons c calls ih =>
      obtain ⟨ser', hbuild⟩ :=
        DynamicSerializer.buildCommand_eq (hfit c (by simp)) c.device c.operation ser buffer
      rw [sendAll, hbuild]
      simp [ih fun d hd => hfit d (by simp [hd])]

end KoheronServer.Wire
