import KoheronServer.Session.WebsockRun

/-!
# Messages of a WebSocket client

What a client sends is a sequence of frames. The server notes FIN and MASK in the
header of a frame, but nothing looks at them: a first fragment is a command like
any other, and four bytes are taken for a key that an unmasked frame does not have.
-/

namespace KoheronServer.Session.Websock

open Foundation Wire Websocket

/-! ## Frames of a client -/

/-- A frame as a client sends it: there is a key with the MASK bit only. -/
structure ClientFrame where
  first : Byte
  second : Byte
  extended : Bytes
  key : Bytes
  data : Bytes
  key_length : key.length = if second &&& 0x80 != 0 then 4 else 0
  stated : statedLength second extended = some data.length

namespace ClientFrame

def wire (c : ClientFrame) : Bytes := c.first :: c.second :: (c.extended ++ c.key) ++ c.data

def opcode (c : ClientFrame) : Nat := (c.first &&& 0x0F).toNat

def fin (c : ClientFrame) : Bool := c.first &&& 0x80 != 0

def masked (c : ClientFrame) : Bool := c.second &&& 0x80 != 0

def toStream (c : ClientFrame) (h : c.masked = true) : StreamFrame where
  first := c.first
  second := c.second
  extended := c.extended
  key := c.key
  data := c.data
  key_length := by
    have hlen := c.key_length
    unfold masked at h
    rwa [h, if_pos rfl] at hlen
  stated := c.stated

def taken (c : ClientFrame) : Nat := 6 + c.extended.length + c.data.length

/-- The server receives the frame as a command when `n` bytes come from its first one on. -/
structure Accepted (c : ClientFrame) (n : Nat) : Prop where
  opcode : c.opcode = 0x1 ∨ c.opcode = 0x2
  least : headerSize ≤ c.data.length
  most : c.data.length ≤ websockReadStrLen - 56
  length : c.taken ≠ kserverReadStrLen
  comes : c.taken ≤ n

end ClientFrame

/-- The second byte of a frame says how many more bytes its length has. -/
theorem statedLength_extended {second : Byte} {extended extended' : Bytes} {n n' : Nat}
    (h : statedLength second extended = some n) (h' : statedLength second extended' = some n') :
    extended.length = extended'.length := by
  unfold statedLength at h h'
  by_cases hsmall : (second &&& 0x7F).toNat ≤ 125
  · rw [if_pos hsmall, Option.ite_none_right_eq_some] at h h'
    exact h.1.trans h'.1.symm
  · by_cases hmedium : (second &&& 0x7F).toNat = 126
    · rw [if_neg hsmall, if_pos hmedium, Option.ite_none_right_eq_some] at h h'
      exact h.1.trans h'.1.symm
    · rw [if_neg hsmall, if_neg hmedium, Option.ite_none_right_eq_some] at h h'
      exact h.1.trans h'.1.symm

/-- A stream that begins with the two frames has the same header for both. -/
theorem header_eq {f : StreamFrame} {c : ClientFrame} {xs ys : Bytes}
    (h : f.wire ++ xs = c.wire ++ ys) :
    f.first = c.first ∧ f.second = c.second ∧ f.extended = c.extended ∧
      f.data.length = c.data.length ∧ f.key ++ (f.data ++ xs) = c.key ++ (c.data ++ ys) := by
  simp only [StreamFrame.wire, ClientFrame.wire, List.cons_append, List.append_assoc,
    List.cons.injEq] at h
  obtain ⟨hfirst, hsecond, h⟩ := h
  have hstated := f.stated
  rw [hsecond] at hstated
  obtain ⟨hextended, h⟩ := List.append_inj h (statedLength_extended hstated c.stated)
  rw [hextended, c.stated, Option.some.injEq] at hstated
  exact ⟨hfirst, hsecond, hextended, hstated.symm, h⟩

theorem eq_toStream {f : StreamFrame} {c : ClientFrame} {xs ys : Bytes}
    (h : f.wire ++ xs = c.wire ++ ys) (hmasked : c.masked = true) : f = c.toStream hmasked := by
  obtain ⟨hfirst, hsecond, hextended, hlen, hrest⟩ := header_eq h
  have hkey : f.key.length = c.key.length :=
    f.key_length.trans (c.toStream hmasked).key_length.symm
  obtain ⟨hkey, hrest⟩ := List.append_inj hrest hkey
  obtain ⟨hdata, -⟩ := List.append_inj hrest hlen
  exact StreamFrame.ext hfirst hsecond hextended hkey hdata

/-! ## Commands and messages -/

/-- The session reads its next command behind the frames `before`, at the first byte of `c`. -/
structure ReadsAt (frames : List ClientFrame) (sent : Bytes) (before : List ClientFrame)
    (c : ClientFrame) (s : RunState) : Prop where
  frames : ∃ after, frames = before ++ c :: after
  sent : sent = before.flatMap ClientFrame.wire ++ s.websock.socket.bytes

/-- The command of a turn, if there is one, is a whole masked message: the payload of one of
the frames that the client has sent. -/
def ExecutesMessage (frames : List ClientFrame) (sent : Bytes) (s : RunState) : Prop :=
  0 < (readCommand s).ret →
    ∃ before c, ReadsAt frames sent before c s ∧
      c.fin = true ∧ ∃ hmasked : c.masked = true, Receives (c.toStream hmasked) s

/-- A frame that an open session would receive as a command in this turn has FIN and MASK. -/
def FinAndMask (frames : List ClientFrame) (sent : Bytes) (s : RunState) : Prop :=
  ∀ before c, ReadsAt frames sent before c s → s.waiting.connectionClosed = false →
    c.Accepted s.websock.socket.bytes.length → c.fin = true ∧ c.masked = true

/-- The session reads at the beginning of a frame, or at the end of all. -/
def AtBoundary (frames : List ClientFrame) (sent : Bytes) (s : RunState) : Prop :=
  ∃ before after, frames = before ++ after ∧
    sent = before.flatMap ClientFrame.wire ++ s.websock.socket.bytes

/-- A command is read from a frame of the client, at whose beginning the session stands. -/
theorem readsAt_of_command {frames : List ClientFrame} {sent : Bytes}
    (hsent : sent <+: frames.flatMap ClientFrame.wire) {s : RunState}
    (hat : AtBoundary frames sent s) (hret : 0 < (readCommand s).ret) :
    ∃ before c after, frames = before ++ c :: after ∧ ReadsAt frames sent before c s ∧
      s.waiting.connectionClosed = false ∧ c.Accepted s.websock.socket.bytes.length ∧
      ∀ hmasked : c.masked = true, Receives (c.toStream hmasked) s := by
  obtain ⟨before, after, rfl, hbytes⟩ := hat
  obtain ⟨f, htaken⟩ := readCommand_frame hret
  have hreceives := receives_of_taken htaken
  have hbegins : s.websock.socket.bytes <+: after.flatMap ClientFrame.wire := by
    rw [hbytes, List.flatMap_append] at hsent
    exact (List.prefix_append_right_inj _).mp hsent
  cases after with
  | nil =>
      rw [hreceives.consumed] at hbegins
      simp [StreamFrame.wire] at hbegins
  | cons c after =>
      obtain ⟨rest, hrest⟩ := hbegins
      have hsame : f.wire ++ ((readCommand s).session.websock.socket.bytes ++ rest) =
          c.wire ++ after.flatMap ClientFrame.wire := by
        rw [← List.append_assoc, ← hreceives.consumed, hrest, List.flatMap_cons]
      obtain ⟨hfirst, -, hextended, hlen, -⟩ := header_eq hsame
      have hwire : f.wire.length = c.taken := by
        simp only [StreamFrame.wire, ClientFrame.taken, List.length_append, List.length_cons,
          f.key_length, hextended, hlen]
        omega
      have hleast := hreceives.least
      have hmost := hreceives.most
      rw [f.payload_length, hlen] at hleast hmost
      refine ⟨before, c, after, rfl, ⟨⟨after, rfl⟩, hbytes⟩, htaken.before, ?_, ?_⟩
      · refine ⟨?_, hleast, hmost, ?_, ?_⟩
        · have hopcode := hreceives.opcode
          unfold StreamFrame.opcode at hopcode
          rwa [hfirst] at hopcode
        · rw [← hwire]
          exact htaken.frame.length
        · rw [← hwire, hreceives.consumed, List.length_append]
          omega
      · intro hmasked
        rw [← eq_toStream hsame hmasked]
        exact hreceives

/-- The execution of a command does not touch the connection. -/
theorem execute_websock {devices : DeviceTable} {slots : Nat → Slot} {device operation : Nat}
    {s s' : RunState} {outcome : Outcome}
    (h : execute transport.toSessionAbstract devices slots device operation s = .ok (outcome, s')) :
    s'.websock = s.websock := by
  refine execute_keeps transport.toSessionAbstract (P := fun s' => s'.websock = s.websock) ?_ h rfl
  intro pack slot s₁ r hr hs₁
  simp only [transport] at hr
  cases hreceive : session.receive pack slot s₁.payload with
  | error e => simp [hreceive] at hr
  | ok r' =>
      simp only [hreceive] at hr
      cases hr
      exact hs₁

/-- A turn goes from one frame of the client to the next. -/
theorem atBoundary_turn {frames : List ClientFrame} {sent : Bytes}
    (hsent : sent <+: frames.flatMap ClientFrame.wire) {s s' : RunState}
    (hat : AtBoundary frames sent s) (hmeets : FinAndMask frames sent s)
    (hret : 0 < (readCommand s).ret) (hnext : s'.websock = (readCommand s).session.websock) :
    AtBoundary frames sent s' := by
  obtain ⟨before, c, after, hframes, hreads, hopen, haccepted, hreceives⟩ :=
    readsAt_of_command hsent hat hret
  have hmasked := (hmeets before c hreads hopen haccepted).2
  refine ⟨before ++ [c], after, by rw [hframes, List.append_assoc]; rfl, ?_⟩
  have hconsumed : s.websock.socket.bytes = c.wire ++
    (readCommand s).session.websock.socket.bytes :=
    (hreceives hmasked).consumed
  rw [hreads.sent, hconsumed, hnext, List.flatMap_append, List.append_assoc]
  simp

/-- Over any sequence of client frames, cut at any byte: while no frame without FIN or MASK is
one that the server receives as a command, every command is a whole masked message. -/
theorem run_messages (frames : List ClientFrame) (s : RunState)
    (hsent : s.websock.socket.bytes <+: frames.flatMap ClientFrame.wire) (env : Env)
    (hmeets : ∀ s' ∈ (run env s).reads, FinAndMask frames s.websock.socket.bytes s') :
    ∀ s' ∈ (run env s).reads, ExecutesMessage frames s.websock.socket.bytes s' := by
  have hturn : ∀ s', AtBoundary frames s.websock.socket.bytes s' →
      FinAndMask frames s.websock.socket.bytes s' → 0 < (transport.readCommand s').ret →
      ∀ slots outcome s'', execute transport.toSessionAbstract env.devices slots
        (transport.readCommand s').device (transport.readCommand s').operation
        (transport.readCommand s').session = .ok (outcome, s'') →
      AtBoundary frames s.websock.socket.bytes s'' := by
    intro s' hat hfin hret slots outcome s'' hexec
    exact atBoundary_turn hsent hat hfin hret (execute_websock hexec)
  have hboundaries := runLoop_keeps transport env hturn (s := s) ⟨[], frames, rfl, rfl⟩ hmeets
  intro s' hs' hret
  obtain ⟨before, c, after, -, hreads, hopen, haccepted, hreceives⟩ :=
    readsAt_of_command hsent (hboundaries s' hs') hret
  obtain ⟨hfin, hmasked⟩ := hmeets s' hs' before c hreads hopen haccepted
  exact ⟨before, c, hreads, hfin, hmasked, hreceives hmasked⟩

def message : ClientFrame where
  first := 0x81
  second := 0x89
  extended := []
  key := [7, 0, 7, 0]
  data := [7, 0, 7, 0, 7, 1, 7, 4, 2]
  key_length := by decide
  stated := by decide

def ping : ClientFrame where
  first := 0x89
  second := 0x00
  extended := []
  key := []
  data := []
  key_length := by decide
  stated := by decide

theorem run_messages_ping :
    let s := RunState.ofBytes (message.wire ++ ping.wire)
    ∀ s' ∈ (run (.quiet []) s).reads,
      ExecutesMessage [message, ping] s.websock.socket.bytes s' := by
  intro s
  refine run_messages [message, ping] s ?_ (.quiet []) ?_
  · exact ⟨[], by decide⟩
  · intro s' _ before c hreads _ haccepted
    obtain ⟨after, hframes⟩ := hreads.frames
    have hmem : c ∈ [message, ping] := hframes ▸ List.mem_append_right before
      (List.mem_cons_self ..)
    simp only [List.mem_cons, List.not_mem_nil, or_false] at hmem
    rcases hmem with rfl | rfl
    · exact ⟨rfl, rfl⟩
    · have hopcode := haccepted.opcode
      revert hopcode
      decide

/-- The first frame of a stream is read at the first byte. -/
theorem readsAt_first {c c' : ClientFrame} {frames before : List ClientFrame} {s : RunState}
    {sent : Bytes} (hreads : ReadsAt (c :: frames) sent before c' s)
    (hsent : s.websock.socket.bytes = sent) : c' = c := by
  obtain ⟨after, hframes⟩ := hreads.frames
  have hbytes := congrArg List.length hreads.sent
  rw [hsent, List.length_append] at hbytes
  cases before with
  | nil => exact (List.cons.inj hframes).1.symm
  | cons b before =>
      simp only [List.flatMap_cons, List.length_append, ClientFrame.wire,
        List.length_cons] at hbytes
      omega

def fragment : ClientFrame where
  first := 0x02
  second := 0x88
  extended := []
  key := [1, 2, 3, 4]
  data := [1, 2, 3, 4, 1, 3, 3, 7]
  key_length := by decide
  stated := by decide

/-- A frame without MASK. Its first four bytes are taken for a key, and the others for the
header of a command. -/
def unmasked : ClientFrame where
  first := 0x82
  second := 0x0C
  extended := []
  key := []
  data := [0, 0, 0, 0, 0, 0, 0, 0, 0, 1, 0, 3]
  key_length := by decide
  stated := by decide

theorem fragment_executed :
    (run (.quiet []) (.ofBytes fragment.wire)).requests = [⟨1, 3, .called []⟩] ∧
      (∃ s' ∈ (run (.quiet []) (.ofBytes fragment.wire)).reads,
        ¬ExecutesMessage [fragment] fragment.wire s') ∧
      (run (.quiet []) (.ofBytes (unmasked.wire ++ fragment.wire))).requests =
      [⟨1, 3, .called []⟩] ∧
      ∃ s' ∈ (run (.quiet []) (.ofBytes (unmasked.wire ++ fragment.wire))).reads,
        ¬ExecutesMessage [unmasked, fragment] (unmasked.wire ++ fragment.wire) s' := by
  refine ⟨rfl, ⟨.ofBytes fragment.wire, List.mem_cons_self .., ?_⟩, rfl,
    ⟨.ofBytes (unmasked.wire ++ fragment.wire), List.mem_cons_self .., ?_⟩⟩
  · intro h
    obtain ⟨before, c, hreads, hfin, -⟩ := h (by decide)
    rw [readsAt_first hreads (ByteStream.ofBytes_bytes _)] at hfin
    cases hfin
  · intro h
    obtain ⟨before, c, hreads, -, hmasked, -⟩ := h (by decide)
    rw [readsAt_first hreads (ByteStream.ofBytes_bytes _)] at hmasked
    cases hmasked

end KoheronServer.Session.Websock
