import KoheronServer.Session.Run
import KoheronServer.Session.TcpParse

/-!
# Running a TCP session

`Session<TCP>::read_command` and the loop over it. A stream of commands is run
from header to header; the boundary between two commands is where the parser of
the first stops, since the header says nothing about the length behind it.
-/

namespace KoheronServer.Session.Tcp

open Foundation Wire

def readCommand (s : ByteStream) : CommandRead ByteStream :=
  let r := rcvNBytes headerSize s
  if r.ret = 0 then ⟨r.ret, 0, 0, r.socket⟩
  else if r.ret < 0 then ⟨r.ret, 0, 0, r.socket⟩
  else
    let ids := decodeHeader (Memory.ofBytes r.buffer)
    ⟨r.ret, ids.1, ids.2, r.socket⟩

def transport : Transport ByteStream where
  toSessionAbstract := session
  readCommand := readCommand

/-- `Session<TCP>::run`. Every command takes eight bytes at least, so there are never more
turns than bytes. -/
def run (env : Env) (s : ByteStream) : Run ByteStream :=
  runLoop transport env (s.bytes.length + 1) 0 s

theorem decodeHeader_header (device operation : BitVec 16) :
    decodeHeader (Memory.ofBytes (DynamicSerializer.header device operation)) =
      (device.toNat, operation.toNat) := by
  have hdevice : extract .uint16
      ((Memory.ofBytes (DynamicSerializer.header device operation)).offset headerStart) =
        device := by
    apply extract_append
    rw [DynamicSerializer.header_eq]
    rfl
  have hoperation : extract .uint16 ((Memory.ofBytes (DynamicSerializer.header device operation)).offset
      (headerStart + ScalarType.sizeOf .uint16)) = operation := by
    apply extract_append
    rw [DynamicSerializer.header_eq]
    rfl
  exact Prod.ext (congrArg BitVec.toNat hdevice) (congrArg BitVec.toNat hoperation)

/-- The header of a command is read back, and exactly its bytes are taken. -/
theorem readCommand_header {s : ByteStream} (hs : s.Clean) {device operation : BitVec 16}
    {rest : Bytes} (hbytes : s.bytes = DynamicSerializer.header device operation ++ rest) :
    let cmd := transport.readCommand s
    cmd.ret = 8 ∧ cmd.device = device.toNat ∧ cmd.operation = operation.toNat ∧
      cmd.session.bytes = rest ∧ cmd.session.Clean := by
  have h := rcvNBytes_clean headerSize hs
  have hlen := DynamicSerializer.header_length device operation
  have hret : (rcvNBytes headerSize s).ret = 8 := by
    rw [h.ret, if_pos (by simp [hbytes, headerSize])]
    rfl
  have hbuffer : (rcvNBytes headerSize s).buffer = DynamicSerializer.header device operation := by
    rw [h.buffer, hbytes]
    exact List.take_left' hlen
  have hrest : (rcvNBytes headerSize s).socket.bytes = rest := by
    rw [h.rest, hbytes]
    exact List.drop_left' hlen
  have hids := decodeHeader_header device operation
  simp only [transport, readCommand, hret, hbuffer, hids]
  exact ⟨rfl, rfl, rfl, hrest, h.clean⟩

theorem readCommand_eof {s : ByteStream} (hs : s.Clean) (hend : s.bytes = []) :
    (transport.readCommand s).ret = 0 := by
  have h := rcvNBytes_clean headerSize hs
  have hret : (rcvNBytes headerSize s).ret = 0 := by
    rw [h.ret, hend, if_neg (by simp [headerSize])]
  simp [transport, readCommand, hret]

theorem messageWire_length_pos (device operation : BitVec 16) (args : List Arg) :
    0 < (messageWire device operation args).length := by
  simp only [messageWire, List.length_append, DynamicSerializer.header_length]
  omega

/-- A turn on the message of a known command. -/
theorem execute_call {devices : DeviceTable} {c : Call}
    (hsig : signatureOf devices c.device.toNat c.operation.toNat = some (c.args.map Arg.type))
    (hsize : ∀ a ∈ c.args, a.contents.length < 2 ^ 31) (slots : Nat → Slot) {s : ByteStream}
    (hs : s.Clean) {rest : Bytes}
    (hbytes : s.bytes = messageWire c.device c.operation c.args ++ rest) :
    let cmd := transport.readCommand s
    cmd.ret = 8 ∧ cmd.device = c.device.toNat ∧ cmd.operation = c.operation.toNat ∧
      (EmptyArraysLast c.args rest →
        ∃ s', execute session devices slots cmd.device cmd.operation cmd.session =
          .ok (.called c.args, s') ∧ s'.bytes = rest ∧ s'.Clean) ∧
      (¬ EmptyArraysLast c.args rest →
        ∃ s', execute session devices slots cmd.device cmd.operation cmd.session =
          .ok (.rejected, s')) := by
  rw [messageWire, List.append_assoc] at hbytes
  obtain ⟨hret, hdevice, hoperation, hpayload, hclean⟩ := readCommand_header hs hbytes
  obtain ⟨hok, hreject⟩ := parsePacks_whole slots (signatureOf_fits hsig) 0 hclean
    (buildArgsPacks_types _).symm hsize hpayload
  refine ⟨hret, hdevice, hoperation, ?_, ?_⟩
  · intro h
    obtain ⟨s', hparse, hrest⟩ := hok h
    refine ⟨s', ?_, hrest⟩
    rw [hdevice, hoperation, execute_known session hsig, executeOp, hparse]
    rfl
  · intro h
    obtain ⟨s', hparse⟩ := hreject h
    refine ⟨s', ?_⟩
    rw [hdevice, hoperation, execute_known session hsig, executeOp, hparse]
    rfl

/-! ## The round trip -/

/-- A run that executes exactly `calls`, in order and with their arguments, starts to read
a command exactly at the boundaries of the messages, and then returns 0. -/
structure RunsCalls (calls : List Call) (r : Run ByteStream) : Prop where
  ending : r.ending = .returned 0
  requests : r.requests = calls.map fun c =>
    ⟨c.device.toNat, c.operation.toNat, .called c.args⟩
  boundaries : r.reads.map ByteStream.bytes = calls.tails.map callsWire

theorem runLoop_calls {env : Env} (hexit : ∀ n, env.exitComm n = false)
    (hopen : ∀ n, env.closed n = false) {calls : List Call}
    (hknown : ∀ c ∈ calls,
      signatureOf env.devices c.device.toNat c.operation.toNat = some (c.args.map Arg.type))
    (hsize : ∀ c ∈ calls, ∀ a ∈ c.args, a.contents.length < 2 ^ 31) {s : ByteStream} (hs : s.Clean)
    (hbytes : s.bytes = callsWire calls) (fuel i : Nat) (hfuel : s.bytes.length < fuel) :
    RunsCalls calls (runLoop transport env fuel i s) ↔
      ∀ before c after, calls = before ++ c :: after →
      EmptyArraysLast c.args (callsWire after) := by
  induction calls generalizing s fuel i with
  | nil =>
      obtain ⟨fuel, rfl⟩ : ∃ k, fuel = k + 1 := ⟨fuel - 1, by omega⟩
      have hret := readCommand_eof hs hbytes
      have hrun : runLoop transport env (fuel + 1) i s = ⟨[s], [], .returned 0⟩ := by
        simp [runLoop, hexit, hret]
      rw [hrun]
      refine iff_of_true ⟨rfl, rfl, by simp [hbytes]⟩ ?_
      intro before c after h
      simp at h
  | cons c calls ih =>
      obtain ⟨fuel, rfl⟩ : ∃ k, fuel = k + 1 := ⟨fuel - 1, by omega⟩
      rw [callsWire_cons] at hbytes
      obtain ⟨hret, hdevice, hoperation, hok, hreject⟩ := execute_call (hknown c (by simp))
        (hsize c (by simp)) (env.slots i) hs hbytes
      have hpos : 0 < (transport.readCommand s).ret := by
        rw [hret]
        decide
      rw [forall_split_cons (P := fun c after => EmptyArraysLast c.args (callsWire after))]
      by_cases hlast : EmptyArraysLast c.args (callsWire calls)
      · obtain ⟨s', hexec, hrest, hs'⟩ := hok hlast
        have hlen := messageWire_length_pos c.device c.operation c.args
        have hfuel' : s'.bytes.length < fuel := by
          rw [hbytes, List.length_append] at hfuel
          rw [hrest]
          omega
        rw [runLoop_request transport env fuel (hexit _) (hexit _) hpos hexec, hopen,
          ← ih (fun d hd => hknown d (by simp [hd])) (fun d hd => hsize d (by simp [hd])) hs' hrest
            fuel (i + 1) hfuel']
        simp only [hlast, true_and, Bool.false_eq_true, if_false]
        rw [hdevice, hoperation]
        constructor
        · rintro ⟨hending, hrequests, hbounds⟩
          exact ⟨hending, (List.cons.inj hrequests).2, (List.cons.inj hbounds).2⟩
        · rintro ⟨hending, hrequests, hbounds⟩
          exact ⟨hending, by simp [Run.turn, hrequests], by simp [Run.turn, hbounds, hbytes]⟩
      · obtain ⟨s', hexec⟩ := hreject hlast
        rw [runLoop_request transport env fuel (hexit _) (hexit _) hpos hexec, hopen]
        refine iff_of_false ?_ fun h => hlast h.1
        rintro ⟨_, hrequests, _⟩
        have hfirst := (List.cons.inj hrequests).1
        cases congrArg Request.outcome hfirst

/-- Messages built one after the other and sent over TCP are run as they were made, unless
a `std::array<T, 0>` has a byte of the stream behind it: the server asks for `sizeof(T)`
bytes at a null pointer, where the client has sent none, and rejects the command. -/
theorem run_calls_iff {env : Env} (hexit : ∀ n, env.exitComm n = false)
    (hopen : ∀ n, env.closed n = false) {calls : List Call}
    (hknown : ∀ c ∈ calls,
      signatureOf env.devices c.device.toNat c.operation.toNat = some (c.args.map Arg.type))
    (hsize : ∀ c ∈ calls, ∀ a ∈ c.args, a.contents.length < 2 ^ 31) {packLen : Nat}
    (hfit : ∀ c ∈ calls, RunsFit packLen c.args) (ser : DynamicSerializer) (buffer : Bytes) :
    ∃ stream, sendAll packLen ser buffer calls = some stream ∧
      ∀ s : ByteStream, s.Clean → s.bytes = stream →
        (RunsCalls calls (run env s) ↔
          ∀ before c after, calls = before ++ c :: after →
            EmptyArraysLast c.args (callsWire after)) := by
  refine ⟨callsWire calls, sendAll_eq hfit ser buffer, ?_⟩
  intro s hs hbytes
  exact runLoop_calls hexit hopen hknown hsize hs hbytes _ 0 (Nat.lt_succ_self _)

/-- An array of no bytes, and then a command without arguments: only the second is executed. -/
theorem run_calls_rejected :
    let devices : DeviceTable := [[⟨[.array .uint32 0], by decide, by decide⟩]]
    let calls : List Call := [⟨2, 0, [.array .uint32 0 [] rfl]⟩, ⟨1, 3, []⟩]
    let s := ByteStream.ofBytes (callsWire calls)
    (∀ c ∈ calls,
      signatureOf devices c.device.toNat c.operation.toNat = some (c.args.map Arg.type)) ∧
    sendAll 1024 ⟨fun _ => 0, 0⟩ [] calls = some s.bytes ∧ s.Clean ∧
    (run (.quiet devices) s).requests.map (fun r => (r.device, r.operation, r.outcome.executed)) =
      [(2, 0, false), (1, 3, true)] ∧
    ¬ RunsCalls calls (run (.quiet devices) s) := by
  intro devices calls s
  have hrequests : (run (.quiet devices) s).requests.map
      (fun r => (r.device, r.operation, r.outcome.executed)) = [(2, 0, false), (1, 3, true)] := by
    decide
  refine ⟨by decide, by decide, ByteStream.ofBytes_clean _, hrequests, ?_⟩
  intro h
  rw [h.requests] at hrequests
  cases hrequests

theorem run_calls_iff_mixed :
    let devices : DeviceTable :=
      [[⟨[.scalar .uint16, .vector .uint16, .string], by decide, by decide⟩]]
    let calls : List Call :=
      [⟨2, 0, [.scalar .uint16 (513 : BitVec 16), .vector .uint16 [1, 2, 3, 4] (by decide),
        .string [75]]⟩, ⟨1, 5, [.scalar .uint32 (1 : BitVec 32)]⟩]
    ∃ stream, sendAll 1024 ⟨fun _ => 0, 0⟩ [] calls = some stream ∧
      ∀ s : ByteStream, s.Clean → s.bytes = stream →
        (RunsCalls calls (run (.quiet devices) s) ↔
          ∀ before c after, calls = before ++ c :: after →
            EmptyArraysLast c.args (callsWire after)) := by
  intro devices calls
  refine run_calls_iff (fun _ => rfl) (fun _ => rfl) (by decide) (by decide) ?_ _ _
  intro c hc
  have hshort : ∀ c ∈ calls, (argsWire c.args).length ≤ 1024 := by decide
  exact RunsFit.of_length (hshort c hc)

/-! ## Commands that are rejected -/

/-- A command on the stream: one for a known operation, or one that names device 0 or no
operation of its device, with whatever argument bytes. -/
inductive Sent where
  | known (c : Call)
  | unknown (device operation : BitVec 16) (payload : Bytes)

def Sent.wire : Sent → Bytes
  | known c => messageWire c.device c.operation c.args
  | unknown device operation payload => DynamicSerializer.header device operation ++ payload

/-- What makes a command known or unknown to the server. -/
def Sent.Valid (devices : DeviceTable) : Sent → Prop
  | known c =>
      signatureOf devices c.device.toNat c.operation.toNat = some (c.args.map Arg.type)
  | unknown device operation _ =>
      signatureOf devices device.toNat operation.toNat = none ∧ device.toNat < devices.deviceNum

def sentWire (sent : List Sent) : Bytes := sent.flatMap Sent.wire

@[simp] theorem sentWire_cons (x : Sent) (sent : List Sent) :
    sentWire (x :: sent) = x.wire ++ sentWire sent := rfl

/-- The argument bytes that executing the command leaves on the stream: all those of an unknown
one, and those behind the argument at which the parser of a known one stops. -/
def Sent.stray : Sent → Bytes
  | known c => argsWire (behindStop c.args)
  | unknown _ _ payload => payload

theorem Sent.wire_length_pos (x : Sent) : 0 < x.wire.length := by
  cases x with
  | known c => exact messageWire_length_pos c.device c.operation c.args
  | unknown device operation payload =>
      simp only [wire, List.length_append, DynamicSerializer.header_length]
      omega

/-- The session is still open and reads another command behind number `n`, when the first of the
commands is request `i`. -/
def KeptOpen (env : Env) (i n : Nat) : Prop :=
  (∀ m ≤ n, env.Continues (i + m)) ∧ env.exitComm (2 * (i + n + 1)) = false

theorem KeptOpen.first {env : Env} {i n : Nat} (h : KeptOpen env i n) : env.Continues i :=
  h.1 0 (Nat.zero_le n)

/-- The loads and writes behind a first request are those that the next one meets. -/
theorem KeptOpen.next {env : Env} {i n : Nat} (h : KeptOpen env i n) :
    env.exitComm (2 * (i + 1)) = false := by
  cases n with
  | zero => exact h.2
  | succ n => exact (h.1 1 (by omega)).1

theorem keptOpen_succ {env : Env} {i n : Nat} (hcont : env.Continues i) :
    KeptOpen env i (n + 1) ↔ KeptOpen env (i + 1) n := by
  unfold KeptOpen
  have hshift : i + 1 + n = i + (n + 1) := by omega
  rw [hshift]
  constructor
  · rintro ⟨hall, hload⟩
    refine ⟨fun m hm => ?_, hload⟩
    have hm' := hall (m + 1) (by omega)
    rwa [show i + (m + 1) = i + 1 + m by omega] at hm'
  · rintro ⟨hall, hload⟩
    refine ⟨fun m hm => ?_, hload⟩
    cases m with
    | zero => exact hcont
    | succ m =>
        have hm' := hall m (by omega)
        rwa [show i + 1 + m = i + (m + 1) by omega] at hm'

/-- No command behind which the session stays open leaves argument bytes on the stream. -/
def NoStrayBytes (env : Env) (i : Nat) (sent : List Sent) : Prop :=
  ∀ n x, sent[n]? = some x → KeptOpen env i n → x.stray = []

/-- Every `read_command` starts where a command starts, or behind the last one. -/
def ReadsAtBoundaries (sent : List Sent) (r : Run ByteStream) : Prop :=
  r.reads.map ByteStream.bytes <+: sent.tails.map sentWire

theorem readsAtBoundaries_nil {sent : List Sent} {r : Run ByteStream} (h : r.reads = []) :
    ReadsAtBoundaries sent r := by
  simp [ReadsAtBoundaries, h]

theorem readsAtBoundaries_singleton {sent : List Sent} {r : Run ByteStream} {s : ByteStream}
    (h : r.reads = [s]) (hbytes : s.bytes = sentWire sent) : ReadsAtBoundaries sent r := by
  cases sent <;> simp [ReadsAtBoundaries, h, hbytes]

theorem readsAtBoundaries_turn {x : Sent} {sent : List Sent} {r : Run ByteStream} {s : ByteStream}
    {request : Request} (hbytes : s.bytes = sentWire (x :: sent)) :
    ReadsAtBoundaries (x :: sent) (r.turn s request) ↔ ReadsAtBoundaries sent r := by
  simp [ReadsAtBoundaries, Run.turn, hbytes]

theorem not_readsAtBoundaries {sent : List Sent} {r : Run ByteStream} {s : ByteStream}
    {reads : List ByteStream} {stray : Bytes} (h : r.reads = s :: reads)
    (hbytes : s.bytes = stray ++ sentWire sent) (hstray : stray ≠ []) :
    ¬ ReadsAtBoundaries sent r := by
  rw [ReadsAtBoundaries, h, List.map_cons, hbytes]
  have hhead : ∃ tails, sent.tails.map sentWire = sentWire sent :: tails := by
    cases sent with
    | nil => exact ⟨[], rfl⟩
    | cons x sent => exact ⟨sent.tails.map sentWire, by simp⟩
  obtain ⟨tails, htails⟩ := hhead
  rw [htails, List.cons_prefix_cons]
  exact fun hpre => hstray (by simpa using hpre.1)

/-- A session that a shutdown or a close stops at the first command keeps nothing open. -/
theorem noStrayBytes_of_stop {env : Env} {i : Nat} (h : ¬ env.Continues i) (sent : List Sent) :
    NoStrayBytes env i sent :=
  fun _ _ _ hkept => absurd hkept.first h

theorem noStrayBytes_of_exit {env : Env} {i : Nat} (h : env.exitComm (2 * i) = true)
    (sent : List Sent) : NoStrayBytes env i sent := by
  apply noStrayBytes_of_stop
  rintro ⟨hload, _⟩
  rw [hload] at h
  cases h

theorem noStrayBytes_cons {env : Env} {i : Nat} {x : Sent} {sent : List Sent}
    (hcont : env.Continues i) :
    NoStrayBytes env i (x :: sent) ↔
      (env.exitComm (2 * (i + 1)) = false → x.stray = []) ∧ NoStrayBytes env (i + 1) sent := by
  constructor
  · intro h
    constructor
    · intro hnext
      refine h 0 x rfl ⟨fun m hm => ?_, hnext⟩
      rw [Nat.le_zero.mp hm]
      exact hcont
    · intro n y hn hkept
      exact h (n + 1) y hn ((keptOpen_succ hcont).mpr hkept)
  · rintro ⟨hfirst, hrest⟩ n y hn hkept
    cases n with
    | zero =>
        cases hn
        exact hfirst hkept.next
    | succ n => exact hrest n y hn ((keptOpen_succ hcont).mp hkept)

/-- A turn of the loop on any command that reads its header. -/
theorem readCommand_sent {x : Sent} {s : ByteStream} (hs : s.Clean) {rest : Bytes}
    (hbytes : s.bytes = x.wire ++ rest) : 0 < (transport.readCommand s).ret := by
  cases x with
  | known c =>
      rw [Sent.wire, messageWire, List.append_assoc] at hbytes
      rw [(readCommand_header hs hbytes).1]
      decide
  | unknown device operation payload =>
      rw [Sent.wire, List.append_assoc] at hbytes
      rw [(readCommand_header hs hbytes).1]
      decide

theorem execute_sent {devices : DeviceTable} {x : Sent} (hx : x.Valid devices) (slots : Nat → Slot)
    {s : ByteStream} (hs : s.Clean) {rest : Bytes} (hbytes : s.bytes = x.wire ++ rest) :
    let cmd := transport.readCommand s
    ∃ outcome s', execute session devices slots cmd.device cmd.operation cmd.session =
      .ok (outcome, s') ∧ s'.Clean ∧ s'.bytes = x.stray ++ rest := by
  cases x with
  | known c =>
      rw [Sent.wire, messageWire, List.append_assoc] at hbytes
      obtain ⟨_, hdevice, hoperation, hpayload, hclean⟩ := readCommand_header hs hbytes
      obtain ⟨parsed, s', hparse, hrest, hs'⟩ := parsePacks_leaves slots (signatureOf_fits hx) 0
        hclean (buildArgsPacks_types _).symm hpayload
      refine ⟨parsed.outcome, s', ?_, hs', hrest⟩
      rw [hdevice, hoperation, execute_known session hx, executeOp, hparse]
  | unknown device operation payload =>
      rw [Sent.wire, List.append_assoc] at hbytes
      obtain ⟨_, hdevice, hoperation, hpayload, hclean⟩ := readCommand_header hs hbytes
      obtain ⟨outcome, hexec⟩ :=
        execute_unknown session hx.1 hx.2 slots (transport.readCommand s).session
      exact ⟨outcome, _, by rw [hdevice, hoperation]; exact hexec, hclean, hpayload⟩

theorem runLoop_boundaries (env : Env) {sent : List Sent} (hvalid : ∀ x ∈ sent, x.Valid env.devices)
    {s : ByteStream} (hs : s.Clean) (hbytes : s.bytes = sentWire sent) (fuel i : Nat)
    (hfuel : s.bytes.length < fuel) :
    ReadsAtBoundaries sent (runLoop transport env fuel i s) ↔ NoStrayBytes env i sent := by
  induction sent generalizing s fuel i with
  | nil =>
      obtain ⟨fuel, rfl⟩ : ∃ k, fuel = k + 1 := ⟨fuel - 1, by omega⟩
      refine iff_of_true ?_ (fun n _ hn => by simp at hn)
      have hret := readCommand_eof hs hbytes
      by_cases hload : env.exitComm (2 * i) = true
      · exact readsAtBoundaries_nil (by simp [runLoop, hload])
      · exact readsAtBoundaries_singleton (s := s) (by simp [runLoop, hload, hret]) hbytes
  | cons x sent ih =>
      obtain ⟨fuel, rfl⟩ : ∃ k, fuel = k + 1 := ⟨fuel - 1, by omega⟩
      by_cases hloads : env.exitComm (2 * i) = false ∧ env.exitComm (2 * i + 1) = false
      · obtain ⟨hload, hload'⟩ := hloads
        rw [sentWire_cons] at hbytes
        have hret := readCommand_sent (x := x) hs hbytes
        obtain ⟨outcome, s', hexec, hs', hrest⟩ :=
          execute_sent (hvalid x (by simp)) (env.slots i) hs hbytes
        rw [runLoop_request transport env fuel hload hload' hret hexec]
        by_cases hclosed : env.closed i = true
        · rw [if_pos hclosed]
          refine iff_of_true (readsAtBoundaries_singleton rfl hbytes) (noStrayBytes_of_stop ?_ _)
          rintro ⟨_, _, hopen⟩
          rw [hopen] at hclosed
          cases hclosed
        · rw [if_neg hclosed, readsAtBoundaries_turn hbytes,
            noStrayBytes_cons ⟨hload, hload', by simpa using hclosed⟩]
          by_cases hstray : x.stray = []
          · rw [hstray, List.nil_append] at hrest
            have hlen : s'.bytes.length < fuel := by
              have hpos := x.wire_length_pos
              rw [hbytes, List.length_append] at hfuel
              rw [hrest]
              omega
            rw [ih (fun y hy => hvalid y (by simp [hy])) hs' hrest fuel (i + 1) hlen]
            simp [hstray]
          · obtain ⟨fuel, rfl⟩ : ∃ k, fuel = k + 1 := by
              have hpos := x.wire_length_pos
              rw [hbytes, List.length_append] at hfuel
              exact ⟨fuel - 1, by omega⟩
            cases hnext : env.exitComm (2 * (i + 1)) with
            | true =>
                refine iff_of_true (readsAtBoundaries_nil (by simp [runLoop, hnext])) ?_
                exact ⟨fun h => absurd h (by simp), noStrayBytes_of_exit hnext sent⟩
            | false =>
                obtain ⟨reads, hreads⟩ := runLoop_reads transport env s' fuel hnext
                refine iff_of_false (not_readsAtBoundaries hreads hrest hstray) ?_
                exact fun h => hstray (h.1 rfl)
      · have hstop : env.exitComm (2 * i) = true ∨ env.exitComm (2 * i + 1) = true := by
          simpa [Decidable.or_iff_not_not_and_not] using hloads
        refine iff_of_true ?_ (noStrayBytes_of_stop (fun h => hloads ⟨h.1, h.2.1⟩) _)
        rcases runLoop_stop transport env s fuel hstop with h | h
        · exact readsAtBoundaries_nil h
        · exact readsAtBoundaries_singleton h hbytes

/-- A stream of commands, some of them rejected, is read at the boundaries of its commands
exactly when no command that leaves the session open leaves argument bytes: nothing takes
these bytes, and the next header is read from them. -/
theorem run_boundaries_iff (env : Env) {sent : List Sent} (hvalid : ∀ x ∈ sent, x.Valid env.devices)
    {s : ByteStream} (hs : s.Clean) (hbytes : s.bytes = sentWire sent) :
    ReadsAtBoundaries sent (run env s) ↔ NoStrayBytes env 0 sent :=
  runLoop_boundaries env hvalid hs hbytes _ 0 (Nat.lt_succ_self _)

/-- An unknown operation of KServer whose argument bytes look like `SUBSCRIBE_PUBSUB`: the
client asked for one thing, which is refused, and another one is executed. -/
theorem run_boundaries_shifted :
    let sent : List Sent := [.unknown 1 7 (messageWire 1 5 [.scalar .uint32 (0 : BitVec 32)])]
    let r := run (.quiet []) (.ofBytes (sentWire sent))
    (∀ x ∈ sent, x.Valid []) ∧ ¬ ReadsAtBoundaries sent r ∧
      r.requests.map (fun request => (request.device, request.operation)) = [(1, 7), (1, 5)] := by
  intro sent r
  have hreads : r.reads.map (fun s => s.bytes.length) = [20, 12, 0] := by decide
  refine ⟨by simp [sent, Sent.Valid, signatureOf, KServerOp.ofId, DeviceTable.deviceNum],
    ?_, by decide⟩
  intro h
  have hcount : r.reads.length = 3 := by simpa using congrArg List.length hreads
  have hle : (r.reads.map ByteStream.bytes).length ≤ 2 := h.length_le
  rw [List.length_map] at hle
  omega

theorem run_boundaries_iff_bare :
    ReadsAtBoundaries
      [.unknown 0 9 [], .known ⟨1, 5, [.scalar .uint32 (1 : BitVec 32)]⟩, .unknown 1 7 []]
      (run (.quiet []) (.ofBytes (sentWire
        [.unknown 0 9 [], .known ⟨1, 5, [.scalar .uint32 (1 : BitVec 32)]⟩, .unknown 1 7 []]))) := by
  refine (run_boundaries_iff (.quiet []) ?_ (ByteStream.ofBytes_clean _) (by simp)).mpr ?_
  · simp [Sent.Valid, signatureOf, KServerOp.ofId, KServerOp.arguments, DeviceTable.deviceNum,
      Env.quiet, Arg.type]
  · intro n x hn _
    rcases n with _ | _ | _ | n
    · cases hn
      rfl
    · cases hn
      rfl
    · cases hn
      rfl
    · simp at hn

end KoheronServer.Session.Tcp
