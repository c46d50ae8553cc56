import KoheronServer.Session.Send
import KoheronServer.Session.TcpRun
import KoheronServer.Session.Transports
import KoheronServer.Session.WebsockRun

/-!
# Commands over a WebSocket

Messages that a client builds and puts each into a masked frame of its own, from the
stream to the calls of the device functions.
-/

namespace KoheronServer.Session.Websock

open Foundation Wire

/-! ## The parser of one command -/

theorem containerWire_prefix {bytes : Bytes} (h : bytes.length < 2 ^ 32) (rest : Bytes) :
    beValue ((Arg.containerWire bytes ++ rest).take 4) = bytes.length := by
  have hprefix := (Tcp.prefix_containerWire ⟨fun _ => 0, []⟩ bytes rest).1
  rwa [Tcp.prefixValue_eq _ (by rw [List.length_append, Arg.containerWire_length]; omega),
    Nat.mod_eq_of_lt h] at hprefix

theorem need_segment {p : Pack} {seg : List Arg} (htypes : seg.map Arg.type = p.types)
    (hsize : ∀ a ∈ seg, a.contents.length < 2 ^ 31) (hnone : ∀ a ∈ seg, ¬a.IsEmptyArray)
    (rest : Bytes) : need p (argsWire seg ++ rest) = (argsWire seg).length := by
  cases p with
  | scalar ts =>
      obtain ⟨t, rfl, rfl⟩ := exists_tuple htypes
      rw [argsWire_map_toArg, tupleWire_length, need]
  | array t n =>
      obtain ⟨a, rfl, ha⟩ := List.map_eq_singleton_iff.mp htypes
      cases a with
      | array t' n' bytes size =>
          simp only [Arg.type, ArgType.array.injEq] at ha
          obtain ⟨rfl, rfl⟩ := ha
          cases n' with
          | zero => exact absurd ⟨t', rfl⟩ (hnone _ (List.mem_singleton_self _))
          | succ n =>
              rw [argsWire_cons, argsWire_nil, List.append_nil, Arg.wire, size, need]
              exact Nat.mul_comm _ _
      | scalar | vector | string => cases ha
  | vector t =>
      obtain ⟨a, rfl, ha⟩ := List.map_eq_singleton_iff.mp htypes
      cases a with
      | vector t' bytes whole =>
          simp only [Arg.type, ArgType.vector.injEq] at ha
          subst ha
          have hlt := hsize _ (List.mem_singleton_self _)
          simp only [Arg.contents] at hlt
          rw [argsWire_cons, argsWire_nil, List.append_nil, Arg.wire, need,
            containerWire_prefix (by omega), Nat.div_mul_cancel whole, Arg.containerWire_length,
            Nat.mod_eq_of_lt (by omega)]
      | scalar | array | string => cases ha
  | string =>
      obtain ⟨a, rfl, ha⟩ := List.map_eq_singleton_iff.mp htypes
      cases a with
      | string bytes =>
          have hlt := hsize _ (List.mem_singleton_self _)
          simp only [Arg.contents] at hlt
          rw [argsWire_cons, argsWire_nil, List.append_nil, Arg.wire, need,
            containerWire_prefix (by omega), Arg.containerWire_length, Nat.mod_eq_of_lt (by omega)]
      | scalar | array | vector => cases ha

theorem demand_args {packs : List Pack} {args : List Arg}
    (htypes : args.map Arg.type = packs.flatMap Pack.types)
    (hsize : ∀ a ∈ args, a.contents.length < 2 ^ 31) (hnone : ∀ a ∈ args, ¬a.IsEmptyArray) :
    demand packs (argsWire args) = (argsWire args).length := by
  induction packs generalizing args with
  | nil =>
      obtain rfl : args = [] := by simpa using htypes
      rfl
  | cons p packs ih =>
      obtain ⟨seg, args', rfl, hseg, hargs'⟩ := Tcp.split_packs htypes
      have hneed := need_segment hseg (fun a ha => hsize a (List.mem_append_left _ ha))
        (fun a ha => hnone a (List.mem_append_left _ ha)) (argsWire args')
      have hrest := ih hargs' (fun a ha => hsize a (List.mem_append_right _ ha))
        (fun a ha => hnone a (List.mem_append_right _ ha))
      rw [argsWire_append, demand, hneed, List.drop_left, hrest, List.length_append]

theorem parsePacks_args {args : List Arg} (hfit : ∀ p ∈ (buildArgsPacks (args.map Arg.type)).1, p.Fits)
    (hsize : ∀ a ∈ args, a.contents.length < 2 ^ 31) (hnone : ∀ a ∈ args, ¬a.IsEmptyArray)
    {payload : Buffer} (h : Holds payload (argsWire args)) (slots : Nat → Slot) :
    ∃ payload', executeOp session slots (args.map Arg.type) payload =
      .ok (.called args, payload') := by
  have htypes := (buildArgsPacks_types (args.map Arg.type)).symm
  have hclean := ByteStream.ofBytes_clean (argsWire args)
  have hbytes : (ByteStream.ofBytes (argsWire args)).bytes = argsWire args ++ [] := by
    rw [ByteStream.ofBytes_bytes, List.append_nil]
  have hcarries : Carries (argsWire args) [] (.ofBytes (argsWire args)) payload :=
    ⟨hclean, hbytes, h⟩
  have hlast : EmptyArraysLast args [] := by
    rintro pre a post rfl ha
    exact absurd ha (hnone a (List.mem_append_right pre List.mem_cons_self))
  have harrays : ∀ t, ArgType.array t 0 ∉ args.map Arg.type := by
    intro t ht
    obtain ⟨a, ha, htype⟩ := List.mem_map.mp ht
    exact hnone a ha ⟨t, htype⟩
  obtain ⟨args', s', htcp, hwebsock, -⟩ := parsePacks_agree false hcarries
    (Nat.le_of_eq (demand_args htypes hsize hnone)) slots slots 0 (no_emptyArray_packs harrays)
  rw [sessionIn_release] at hwebsock
  obtain ⟨s'', htcp', -⟩ := (Tcp.parsePacks_whole slots hfit 0 hclean htypes hsize hbytes).1 hlast
  rw [htcp] at htcp'
  cases htcp'
  exact ⟨_, hwebsock⟩

/-! ## A turn of the loop -/

theorem parsePacks_transport (slots : Nat → Slot) (packs : List Pack) (idx : Nat) (s : RunState) :
    parsePacks transport.toSessionAbstract slots idx packs s =
      (parsePacks session slots idx packs s.payload).map fun r =>
        (r.1, { s with payload := r.2 }) := by
  induction packs generalizing idx s with
  | nil => rfl
  | cons p packs ih =>
      have hreceive : transport.receive p (slots idx) s =
          (session.receive p (slots idx) s.payload).map fun r =>
            ⟨r.ret, r.args, { s with payload := r.session }⟩ := by
        cases h : session.receive p (slots idx) s.payload with
        | error e => simp [transport, h, Except.map]
        | ok r => simp [transport, h, Except.map]
      rw [parsePacks, parsePacks, hreceive]
      cases session.receive p (slots idx) s.payload with
      | error e => rfl
      | ok r =>
          simp only [Except.map]
          split_ifs with hret
          · rfl
          · rw [ih]
            cases parsePacks session slots (idx + 1) packs r.session with
            | error e => rfl
            | ok result =>
                obtain ⟨parsed, payload⟩ := result
                cases parsed with
                | rejected => rfl
                | called args => rfl

/-- A command in a frame of its own, with any key and in any form that carries it. -/
structure SentCall where
  call : Call
  frame : Websocket.Frame
  payload : frame.payload = Session.message call

/-- The frame with its header is as long as the buffer of another part of the server. -/
def SentCall.Full (x : SentCall) : Prop :=
  x.frame.form.headerSize + x.frame.payload.length = Websocket.kserverReadStrLen

def sentWire (sent : List SentCall) : Bytes := sent.flatMap fun x => x.frame.wire

/-- The state in front of a command: the connection is open, and no write finds it closed. -/
structure Open (s : RunState) : Prop where
  connection : s.websock.connectionClosed = false
  writes : ∀ n, s.sendClosed n = false

theorem Open.waiting {s : RunState} (h : Open s) : s.waiting = s.websock := by
  rw [RunState.waiting, h.connection, h.writes, Bool.or_false, ← h.connection]

/-- What a turn finds behind a command that has been received. -/
structure CallRead (x : SentCall) (rest : Bytes) (s : RunState)
    (cmd : CommandRead RunState) : Prop where
  ret : cmd.ret = 8
  device : cmd.device = x.call.device.toNat
  operation : cmd.operation = x.call.operation.toNat
  opened : Open cmd.session
  bytes : cmd.session.websock.socket.bytes = rest
  payload : Holds cmd.session.payload (argsWire x.call.args)

theorem SentCall.payload_parts (x : SentCall) :
    x.frame.payload.take 8 = DynamicSerializer.header x.call.device x.call.operation ∧
      x.frame.payload.drop 8 = argsWire x.call.args ∧
      x.frame.payload.length = 8 + (argsWire x.call.args).length := by
  have hlength := DynamicSerializer.header_length x.call.device x.call.operation
  rw [x.payload, Session.message, messageWire]
  exact ⟨List.take_left' hlength, List.drop_left' hlength, by rw [List.length_append, hlength]⟩

theorem decodeHeader_load {header : Memory} {device operation : BitVec 16}
    (h : header.load 0 8 = DynamicSerializer.header device operation) :
    decodeHeader header = (device.toNat, operation.toNat) := by
  have hpart : ∀ p n, p + n ≤ 8 →
      (header.offset p).load 0 n = ((DynamicSerializer.header device operation).drop p).take n := by
    intro p n hn
    rw [← h, Memory.load_drop header 0 (show p ≤ 8 by omega), Memory.load_take header _ (by omega),
      Memory.load_offset, Nat.add_zero, Nat.zero_add]
  have hdevice : extract .uint16 (header.offset headerStart) = device := by
    apply extract_append
    rw [hpart headerStart _ (by decide), DynamicSerializer.header_eq]
    rfl
  have hoperation : extract .uint16
      (header.offset (headerStart + ScalarType.sizeOf .uint16)) = operation := by
    apply extract_append
    rw [hpart (headerStart + ScalarType.sizeOf .uint16) _ (by decide), DynamicSerializer.header_eq]
    rfl
  exact Prod.ext (congrArg BitVec.toNat hdevice) (congrArg BitVec.toNat hoperation)

theorem readCommand_call {x : SentCall} {s : RunState} (h : Open s) {rest : Bytes}
    (hbytes : s.websock.socket.bytes = x.frame.wire ++ rest)
    (hmost : x.frame.payload.length ≤ Websocket.websockReadStrLen - 56) :
    (x.Full → (readCommand s).ret ≤ 0) ∧ (¬x.Full → CallRead x rest s (readCommand s)) := by
  obtain ⟨hheader, hargs, hlength⟩ := x.payload_parts
  have hdelivers : s.websock.socket.Delivers (x.frame.wire ++ rest) := by
    rw [← hbytes]
    exact s.clean.errorFree.delivers
  have hread := s.readCommand_eq
  rw [h.waiting] at hread
  constructor
  · intro hfull
    obtain ⟨ws', hstream, -⟩ :=
      Websocket.readStream_frame x.frame (by omega) hmost h.connection hdelivers
    rw [SentCall.Full] at hfull
    rw [if_pos hfull] at hstream
    have hnone : Websocket.readCommand (s.stack s.turn) s.websock =
        some (⟨-1, 0, 0, ws'⟩, s.stack s.turn) := by
      simp [Websocket.readCommand, Websocket.receiveCmd, h.connection, hstream]
    rw [hread] at hnone
    have hret : s.read.1.ret = -1 := by rw [Option.some.inj hnone]
    show s.read.1.ret ≤ 0
    omega
  · intro hfull
    obtain ⟨ws', hreceives, hframe⟩ :=
      (Websocket.receives_frame (by omega) hmost h.connection hdelivers).2 hfull
    obtain ⟨⟨cmd', -, hcommand, hhead, hpayload⟩, hconsumed⟩ := hreceives (s.stack s.turn)
    rw [hread] at hcommand
    have hresult : s.read = _ := Option.some.inj hcommand
    rw [hheader] at hhead
    rw [hargs] at hpayload
    have hids := decodeHeader_load hhead
    rw [hids] at hresult
    rw [hbytes, List.append_cancel_left_eq] at hconsumed
    constructor
    · show s.read.1.ret = 8
      rw [hresult]
    · show s.read.1.device = _
      rw [hresult]
    · show s.read.1.operation = _
      rw [hresult]
    · refine ⟨?_, h.writes⟩
      show s.read.1.session.connectionClosed = false
      rw [hresult]
      exact hframe.connectionClosed
    · show s.read.1.session.socket.bytes = rest
      rw [hresult]
      exact hconsumed.symm
    · have hcount : x.frame.payload.length - 8 = (argsWire x.call.args).length := by omega
      rw [hcount] at hpayload
      constructor
      · show s.read.2.payload.load 0 _ = _
        rw [hresult]
        exact hpayload
      · show 0 + _ ≤ _
        simp only [Websocket.websockReadStrLen, cmdPayloadBufferLen] at hmost ⊢
        omega

theorem readCommand_end {s : RunState} (hbytes : s.websock.socket.bytes = []) :
    (readCommand s).ret ≤ 0 := by
  by_contra hpos
  obtain ⟨f, hreceives⟩ := (readCommand_sound s).1 (by omega)
  have hconsumed := hreceives.consumed
  rw [hbytes] at hconsumed
  exact absurd (List.append_eq_nil_iff.mp hconsumed.symm).1 (List.cons_ne_nil _ _)

/-! ## The run -/

/-- A run that executes exactly these commands, in order and with their arguments, and starts to
read a command exactly at the boundaries of the frames. -/
structure RunsSent (sent : List SentCall) (r : Run RunState) : Prop where
  ending : ∃ ret ≤ 0, r.ending = .returned ret
  requests : r.requests = sent.map fun x =>
    ⟨x.call.device.toNat, x.call.operation.toNat, .called x.call.args⟩
  boundaries : r.reads.map (fun s => s.websock.socket.bytes) = sent.tails.map sentWire

/-- What a server and the read buffer take of a command. -/
structure SentCall.Valid (devices : DeviceTable) (x : SentCall) : Prop where
  known : signatureOf devices x.call.device.toNat x.call.operation.toNat =
    some (x.call.args.map Arg.type)
  size : ∀ a ∈ x.call.args, a.contents.length < 2 ^ 31
  most : x.frame.payload.length ≤ Websocket.websockReadStrLen - 56
  arrays : ∀ a ∈ x.call.args, ¬a.IsEmptyArray

theorem execute_read {devices : DeviceTable} {x : SentCall} (hx : x.Valid devices) {rest : Bytes}
    {s : RunState} {cmd : CommandRead RunState} (h : CallRead x rest s cmd) (slots : Nat → Slot) :
    ∃ s', execute transport.toSessionAbstract devices slots cmd.device cmd.operation cmd.session =
        .ok (.called x.call.args, s') ∧ Open s' ∧ s'.websock.socket.bytes = rest := by
  obtain ⟨payload, hparse⟩ :=
    parsePacks_args (signatureOf_fits hx.known) hx.size hx.arrays h.payload slots
  refine ⟨{ cmd.session with payload := payload }, ?_, ⟨h.opened.connection, h.opened.writes⟩,
    h.bytes⟩
  rw [h.device, h.operation, execute_known _ hx.known, executeOp, parsePacks_transport, ← executeOp,
    hparse]
  rfl

theorem runLoop_sent {env : Env} (hexit : ∀ n, env.exitComm n = false)
    (hclosed : ∀ n, env.closed n = false) {sent : List SentCall}
    (hvalid : ∀ x ∈ sent, x.Valid env.devices) {s : RunState} (hs : Open s)
    (hbytes : s.websock.socket.bytes = sentWire sent) (fuel i : Nat)
    (hfuel : s.websock.socket.bytes.length < fuel) :
    RunsSent sent (runLoop transport env fuel i s) ↔ ∀ x ∈ sent, ¬x.Full := by
  induction sent generalizing s fuel i with
  | nil =>
      obtain ⟨fuel, rfl⟩ : ∃ n, fuel = n + 1 := ⟨fuel - 1, by omega⟩
      have hret : (transport.readCommand s).ret ≤ 0 := readCommand_end hbytes
      have hrun : runLoop transport env (fuel + 1) i s =
          ⟨[s], [], .returned (transport.readCommand s).ret⟩ := by
        simp [runLoop, hexit, hret]
      rw [hrun]
      exact iff_of_true ⟨⟨_, hret, rfl⟩, rfl, by simp [hbytes]⟩ (List.forall_mem_nil _)
  | cons x sent ih =>
      obtain ⟨fuel, rfl⟩ : ∃ n, fuel = n + 1 := ⟨fuel - 1, by omega⟩
      have hx := hvalid x List.mem_cons_self
      obtain ⟨hbad, hgood⟩ := @readCommand_call x s hs (sentWire sent) hbytes hx.most
      rw [List.forall_mem_cons]
      by_cases hfull : x.Full
      · -- The frame is an error, and its command is never executed.
        have hret : (transport.readCommand s).ret ≤ 0 := hbad hfull
        have hrun : runLoop transport env (fuel + 1) i s =
            ⟨[s], [], .returned (transport.readCommand s).ret⟩ := by
          simp [runLoop, hexit, hret]
        rw [hrun]
        refine iff_of_false (fun h => ?_) fun h => h.1 hfull
        have hrequests := h.requests
        cases hrequests
      · have hread : CallRead x (sentWire sent) s (transport.readCommand s) := hgood hfull
        obtain ⟨s', hexec, hs', hrest⟩ := execute_read hx hread (env.slots i)
        have hpos : 0 < (transport.readCommand s).ret := by
          rw [hread.ret]
          decide
        have hlength : s'.websock.socket.bytes.length < fuel := by
          have hwire : 0 < x.frame.wire.length := by
            rw [Websocket.Frame.wire_length]
            have hlength := x.payload_parts.2.2
            omega
          rw [hbytes, sentWire, List.flatMap_cons, List.length_append] at hfuel
          rw [hrest, sentWire]
          omega
        rw [runLoop_request transport env fuel (hexit _) (hexit _) hpos hexec, hclosed,
          and_iff_right hfull,
          ← ih (fun y hy => hvalid y (List.mem_cons_of_mem x hy)) hs' hrest fuel (i + 1) hlength,
          hread.device, hread.operation]
        constructor
        · rintro ⟨hending, hrequests, hbounds⟩
          exact ⟨hending, (List.cons.inj hrequests).2, (List.cons.inj hbounds).2⟩
        · rintro ⟨hending, hrequests, hbounds⟩
          exact ⟨hending, by simp [Run.turn, hrequests], by simp [Run.turn, hbounds, hbytes]⟩

/-- Messages that are sent each in a masked frame of its own are run as they were made, exactly when
none of the frames is as long as the buffer whose length is compared with that of another. -/
theorem run_sent_iff {env : Env} (hexit : ∀ n, env.exitComm n = false)
    (hclosed : ∀ n, env.closed n = false) {sent : List SentCall}
    (hvalid : ∀ x ∈ sent, x.Valid env.devices) {s : RunState} (hs : Open s)
    (hbytes : s.websock.socket.bytes = sentWire sent) :
    RunsSent sent (run env s) ↔ ∀ x ∈ sent, ¬x.Full :=
  runLoop_sent hexit hclosed hvalid hs hbytes _ 0 (Nat.lt_succ_self _)

theorem binary_fin : (0x82 : Byte) &&& 0x80 ≠ 0 := by decide

theorem binary_opcode : (0x82 : Byte) &&& 0x0F = 0x1 ∨ (0x82 : Byte) &&& 0x0F = 0x2 := .inr rfl

def SentCall.small (call : Call) (key : Memory) (h : (Session.message call).length ≤ 125) :
    SentCall where
  call := call
  frame :=
    { first := 0x82
      fin := binary_fin
      opcode := binary_opcode
      form := .small
      key := key
      payload := Session.message call
      carries := h }
  payload := rfl

def sentMixed : List SentCall :=
  [.small ⟨2, 0, [.scalar .uint16 (513 : BitVec 16), .vector .uint16 [1, 2, 3, 4] (by decide),
      .string [75]]⟩ (fun i => BitVec.ofNat 8 (31 * i)) (by decide),
    .small ⟨1, 5, [.scalar .uint32 (1 : BitVec 32)]⟩ (fun _ => 0x5A) (by decide)]

theorem run_sent_iff_mixed :
    RunsSent sentMixed
      (run (.quiet [[⟨[.scalar .uint16, .vector .uint16, .string], by decide, by decide⟩]])
        (.ofBytes (sentWire sentMixed))) := by
  refine (@run_sent_iff (.quiet [[⟨[.scalar .uint16, .vector .uint16, .string], by decide,
    by decide⟩]]) (fun _ => rfl) (fun _ => rfl) sentMixed ?_ _ ⟨rfl, fun _ => rfl⟩
    (ByteStream.ofBytes_bytes _)).mpr ?_
  · intro x hx
    have hall : ∀ x ∈ sentMixed, (signatureOf
        [[⟨[.scalar .uint16, .vector .uint16, .string], by decide, by decide⟩]]
          x.call.device.toNat x.call.operation.toNat = some (x.call.args.map Arg.type)) ∧
        (∀ a ∈ x.call.args, a.contents.length < 2 ^ 31) ∧
        (∀ a ∈ x.call.args, ¬a.IsEmptyArray) ∧ x.frame.payload.length ≤ 125 := by
      decide
    obtain ⟨hknown, hsize, harrays, hlength⟩ := hall x hx
    exact ⟨hknown, hsize, Nat.le_trans hlength (by decide), harrays⟩
  · have hall : ∀ x ∈ sentMixed, x.frame.form.headerSize + x.frame.payload.length ≤ 200 := by
      decide
    intro x hx hfull
    have hle := hall x hx
    rw [SentCall.Full, Websocket.kserverReadStrLen] at hfull
    omega

end KoheronServer.Session.Websock
