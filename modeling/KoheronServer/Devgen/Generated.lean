import KoheronServer.Foundation.Statements
import KoheronServer.Devgen.ReqBuffSize
import KoheronServer.Session.TcpReceive
import KoheronServer.Session.WebsockReceive
import KoheronServer.Wire.Inverse
import Mathlib.Logic.Function.Basic

/-!
# Generated operations

`parser_generator` and `generate_call` write the body of an `execute_op`: the statements that
receive the packs into the members of `args_<operation>`, and the call of the device with these
members. What they do is what `Session.executeOp` does with the types of the header, and the
device gets the arguments of the command in the order of its header.
-/

namespace KoheronServer.Devgen

open Foundation Wire Session

/-! ## The statements that are written -/

/-- The statements of an `execute_op`, in the forms that devgen knows. -/
inductive Statement where
  | declareSize (declaration : List Char)
  | deserialize (idx : Nat) (types : List (List Char))
  | checkTuple (idx : Nat)
  | getTuple (name : List Char) (i idx : Nat)
  | recv (name family : List Char)
  | callVoid (operation : List Char) (names : List (List Char))
  | sendCall (device operation : Nat) (name : List Char) (names : List (List Char))
  deriving DecidableEq

/-- `args_<operation>.<name>` -/
def memberText (operation name : List Char) : List Char :=
  "args_".toList ++ operation ++ ".".toList ++ name

def buildFuncCall (device operation : List Char) (names : List (List Char)) : List Char :=
  "__".toList ++ device ++ ".".toList ++ operation ++ "(".toList ++
    ", ".toList.intercalate (names.map (memberText operation)) ++ ")".toList

def Statement.text (device operation : List Char) : Statement → List Char
  | declareSize declaration =>
      declaration ++
        "    static_assert(req_buff_size <= cmd.payload.size(), \"Buffer size too small\");\n\n".toList
  | deserialize idx types =>
      "\n    auto args_tuple".toList ++ Nat.toDigits 10 idx ++ " = cmd.sess->deserialize<".toList ++
        ", ".toList.intercalate types ++ ">(cmd);\n".toList
  | checkTuple idx =>
      "    if (std::get<0>(args_tuple".toList ++ Nat.toDigits 10 idx ++ ") < 0) \x7b\n".toList ++
        "        kserver->syslog.print<ERROR>(\"[".toList ++ device ++ " - ".toList ++ operation ++
        "] Failed to deserialize buffer.\\n\");\n        return -1;\n    \x7d\n".toList
  | getTuple name i idx =>
      "    ".toList ++ memberText operation name ++ " = std::get<".toList ++ Nat.toDigits 10 i ++
        ">(args_tuple".toList ++ Nat.toDigits 10 idx ++ ");\n".toList
  | recv name family =>
      "    if (cmd.sess->recv(".toList ++ memberText operation name ++
        ", cmd) < 0) \x7b\n".toList ++
        "        kserver->syslog.print<ERROR>(\"[".toList ++ device ++ " - ".toList ++ operation ++
        "] Failed to receive ".toList ++ family ++
        ".\\n\");\n        return -1;\n    \x7d\n\n".toList
  | callVoid name names =>
      "    ".toList ++ buildFuncCall device name names ++ ";\n    return 0;\n".toList
  | sendCall dev op name names =>
      "    return cmd.sess->send<".toList ++ Nat.toDigits 10 dev ++ ", ".toList ++
        Nat.toDigits 10 op ++ ">(".toList ++ buildFuncCall device name names ++ ");\n".toList

def packStatements (idx : Nat) : Pack → List Statement
  | .scalar args =>
      .deserialize idx (args.map Argument.type) :: .checkTuple idx ::
        args.zipIdx.map fun arg => .getTuple arg.1.name (arg.2 + 1) idx
  | .array arg => [.recv arg.name "array".toList]
  | .vector arg => [.recv arg.name "vector".toList]
  | .string arg => [.recv arg.name "string".toList]

def packsStatements : Nat → List Pack → List Statement
  | _, [] => []
  | idx, pack :: packs => packStatements idx pack ++ packsStatements (idx + 1) packs

/-- `parser_generator`, as statements. -/
def parserStatements (op : Operation) : Except Raised (List Statement) :=
  match op.arguments with
  | none => .ok []
  | some args => do
      let packs := (buildArgsPacks args).1
      if (buildArgsPacks args).2 then return packsStatements 0 packs
      let declaration ← printReqBuffSize packs
      return .declareSize declaration :: packsStatements 0 packs

def parserGenerator (device : List Char) (op : Operation) : Except Raised (List Char) := do
  let statements ← parserStatements op
  return statements.flatMap (Statement.text device op.name)

/-- The body for `void set_name(std::string name)`. -/
example :
    parserGenerator "Tests".toList
        ⟨"SET_NAME".toList, "set_name".toList, "void".toList,
          some [⟨"name".toList, "std::string".toList, false, false⟩], none⟩ =
      .ok ("    if (cmd.sess->recv(args_set_name.name, cmd) < 0) \x7b\n".toList ++
        "        kserver->syslog.print<ERROR>(\"[Tests - set_name] Failed to receive string.\\n\");\n".toList ++
        "        return -1;\n    \x7d\n\n".toList) := by
  decide +kernel

/-- `generate_call`, as statements. -/
def generateCall (devId : Nat) (op : DeviceOperation) : Statement :=
  let names := (op.arguments.getD []).map Argument.name
  if op.retType = "void".toList then .callVoid op.name names
  else .sendCall devId op.id op.name names

/-! ## What the statements do -/

/-- How an `execute_op` ends: with -1, with 0 behind a call, or with what `send` returns for what
the call has returned. -/
inductive Ended where
  | rejected
  | called (operation : List Char) (args : List Arg)
  | sent (device operationId : Nat) (operation : List Char) (args : List Arg)

/-- What stops an `execute_op`: code that does not compile, or a receive that leaves the
language. -/
inductive Stop where
  | illFormed
  | abort (e : Abort)
  deriving DecidableEq

/-- The members of `args_<operation>`, which have the values of the last command at first. -/
abbrev Members := List Char → Option Arg

structure Frame (σ : Type) where
  session : σ
  members : Members
  tuples : Nat → Option (Received σ)
  received : Nat

/-- The overload of `recv` for a member. -/
def recvPack : ArgType → Option Wire.Pack
  | .scalar _ => none
  | .array t n => some (.array t n)
  | .vector t => some (.vector t)
  | .string => some .string

section

variable {σ : Type} (sess : SessionAbstract σ) (slots : Nat → Slot)
variable (declared : List Char → Option ArgType)

def Frame.assign (f : Frame σ) (name : List Char) (a : Arg) : Except Stop (Frame σ) :=
  if declared name = some a.type then
    .ok { f with members := Function.update f.members name (some a) }
  else .error .illFormed

def Frame.values (f : Frame σ) (names : List (List Char)) : Except Stop (List Arg) :=
  match names.mapM f.members with
  | some args => .ok args
  | none => .error .illFormed

def Frame.receive {α : Type} (f : Frame σ) (pack : Wire.Pack)
    (go : Received σ → Frame σ → Except Stop α) : Except Stop α :=
  match sess.receive pack (slots f.received) f.session with
  | .error e => .error (.abort e)
  | .ok r => go r { f with session := r.session, received := f.received + 1 }

def Statement.run (statement : Statement) (f : Frame σ) : Except Stop ((Ended × σ) ⊕ Frame σ) :=
  match statement with
  | declareSize _ => .ok (.inr f)
  | deserialize idx types =>
      match types.mapM typeNamed with
      | none => .error .illFormed
      | some ts =>
          f.receive sess slots (.scalar ts) fun tuple f =>
            .ok (.inr { f with tuples := Function.update f.tuples idx (some tuple) })
  | checkTuple idx =>
      match f.tuples idx with
      | none => .error .illFormed
      | some tuple => .ok (if tuple.ret < 0 then .inl (.rejected, f.session) else .inr f)
  | getTuple name i idx =>
      match (f.tuples idx).bind fun tuple => tuple.args[i - 1]? with
      | none => .error .illFormed
      | some a => (f.assign declared name a).map .inr
  | recv name _ =>
      match (declared name).bind recvPack with
      | none => .error .illFormed
      | some pack =>
          f.receive sess slots pack fun received f =>
            if received.ret < 0 then .ok (.inl (.rejected, f.session))
            else
              match received.args with
              | [a] => (f.assign declared name a).map .inr
              | _ => .error .illFormed
  | callVoid name names => (f.values names).map fun args => .inl (.called name args, f.session)
  | sendCall dev op name names =>
      (f.values names).map fun args => .inl (.sent dev op name args, f.session)

/-- A body, from what the members have been left with. -/
def runBody (statements : List Statement) (members : Members) (s : σ) : Except Stop (Ended × σ) :=
  runStatements (Statement.run sess slots declared) .illFormed statements
    ⟨s, members, fun _ => none, 0⟩

end

/-! ## Sessions that receive what they are asked for -/

/-- Where a receive succeeds, its values have the types of the pack. -/
def WellTyped {σ : Type} (sess : SessionAbstract σ) : Prop :=
  ∀ pack slot s r, sess.receive pack slot s = .ok r → ¬r.ret < 0 → r.args.map Arg.type = pack.types

theorem map_toArg_types (position : Nat) (ts : List ScalarType) (buff : Memory) :
    ((Wire.deserialize position ts buff).map Scalar.toArg).map Arg.type = ts.map .scalar := by
  have htypes := congrArg (List.map ArgType.scalar) (deserialize_types position ts buff)
  rw [List.map_map] at htypes ⊢
  exact htypes

theorem tcp_wellTyped : WellTyped Tcp.session := by
  intro pack slot s r h hret
  cases pack with
  | scalar ts =>
      obtain rfl := Except.ok.inj h
      unfold Tcp.deserializePack
      split
      case isTrue hnone =>
        rw [List.eq_nil_of_length_eq_zero hnone]
        rfl
      case isFalse => exact map_toArg_types 0 ts _
  | array t n =>
      obtain rfl := Except.ok.inj h
      rfl
  | vector t =>
      simp only [Tcp.session, Tcp.recvVector] at h
      split at h
      case isTrue => cases h
      case isFalse =>
        obtain rfl := Except.ok.inj h
        rfl
  | string =>
      obtain rfl := Except.ok.inj h
      simp only [Tcp.recvString]
      split
      case isTrue => rfl
      case isFalse => rfl

theorem reading_ok {α : Type} {buff : Buffer} {len n : Nat} {result a : α}
    (h : buff.reading len n result = .ok a) : a = result := by
  unfold Buffer.reading at h
  split at h
  case isTrue => exact (Except.ok.inj h).symm
  case isFalse => cases h

theorem websock_wellTyped : WellTyped Websock.session := by
  intro pack slot s r h hret
  cases pack with
  | scalar ts =>
      simp only [Websock.session, Websock.deserializePack] at h
      split at h
      case isTrue hnone =>
        obtain rfl := Except.ok.inj h
        rw [List.eq_nil_of_length_eq_zero hnone]
        rfl
      case isFalse =>
        split at h
        case h_1 => cases h
        case h_2 hread =>
          obtain rfl := Except.ok.inj h
          obtain rfl := (Prod.mk.inj (reading_ok hread)).1
          exact map_toArg_types 0 ts _
  | array t n =>
      simp only [Websock.session, Websock.recvArray] at h
      split at h
      case h_1 => cases h
      case h_2 hread =>
        obtain rfl := Except.ok.inj h
        obtain rfl := (Prod.mk.inj (reading_ok hread)).1
        rfl
  | vector t =>
      simp only [Websock.session, Websock.recvVector] at h
      split at h
      case h_1 => cases h
      case h_2 =>
        split at h
        case isTrue =>
          obtain rfl := Except.ok.inj h
          exact absurd (show (-1 : Int) < 0 by decide) hret
        case isFalse =>
          split at h
          case h_1 => cases h
          case h_2 hread =>
            obtain rfl := Except.ok.inj h
            obtain rfl := (Prod.mk.inj (reading_ok hread)).1
            rfl
  | string =>
      simp only [Websock.session, Websock.recvString] at h
      split at h
      case h_1 => cases h
      case h_2 =>
        split at h
        case isTrue =>
          obtain rfl := Except.ok.inj h
          exact absurd (show (-1 : Int) < 0 by decide) hret
        case isFalse =>
          split at h
          case h_1 => cases h
          case h_2 hread =>
            obtain rfl := Except.ok.inj h
            obtain rfl := (Prod.mk.inj (reading_ok hread)).1
            rfl

/-! ## Members -/

def Members.assignAll : List (List Char) → List Arg → Members → Members
  | name :: names, a :: args, m => assignAll names args (Function.update m name (some a))
  | _, _, m => m

namespace Members

theorem assignAll_append {names : List (List Char)} {args : List Arg}
    (hlength : names.length = args.length) (names' : List (List Char)) (args' : List Arg)
    (m : Members) :
    assignAll (names ++ names') (args ++ args') m =
    assignAll names' args' (assignAll names args m) := by
  induction names generalizing args m with
  | nil =>
      cases args with
      | nil => rfl
      | cons a args => cases hlength
  | cons name names ih =>
      cases args with
      | nil => cases hlength
      | cons a args => exact ih (Nat.succ.inj hlength) _

theorem assignAll_notMem {name : List Char} {names : List (List Char)} (h : name ∉ names)
    (args : List Arg) (m : Members) : assignAll names args m name = m name := by
  induction names generalizing args m with
  | nil => rfl
  | cons other names ih =>
      cases args with
      | nil => rfl
      | cons a args =>
          rw [List.mem_cons, not_or] at h
          rw [assignAll, ih h.2, Function.update_of_ne h.1]

/-- Distinct members have the values that they were given, whatever they had before. -/
theorem mapM_assignAll {names : List (List Char)} {args : List Arg} (hnodup : names.Nodup)
    (hlength : names.length = args.length) (m : Members) :
    names.mapM (assignAll names args m) = some args := by
  induction names generalizing args m with
  | nil =>
      cases args with
      | nil => rfl
      | cons a args => cases hlength
  | cons name names ih =>
      cases args with
      | nil => cases hlength
      | cons a args =>
          have hname := (List.nodup_cons.mp hnodup).1
          have hrest := ih (List.nodup_cons.mp hnodup).2 (Nat.succ.inj hlength)
            (Function.update m name (some a))
          have hfirst : assignAll (name :: names) (a :: args) m name = some a := by
            rw [assignAll, assignAll_notMem hname, Function.update_self]
          rw [List.mapM_cons, hfirst]
          simp only [assignAll, Option.bind_eq_bind, Option.bind_some, hrest]
          rfl

end Members

/-! ## The body of an operation -/

section

variable {σ : Type} {sess : SessionAbstract σ} {slots : Nat → Slot}
variable {declared : List Char → Option ArgType} {value : List Char → Option Nat}

theorem Frame.assign_of_declared {f : Frame σ} {name : List Char} {a : Arg}
    (h : declared name = some a.type) :
    f.assign declared name a =
      .ok { f with members := Function.update f.members name (some a) } := if_pos h

/-- The elements of a tuple go to the members of the pack. -/
theorem goesOn_getTuple {args : List Argument} {vals : List Arg}
    (h : List.Forall₂ (fun arg a => declared arg.name = some a.type) args vals) {idx k : Nat}
    {f : Frame σ} {tuple : Received σ} (htuple : f.tuples idx = some tuple)
    (hvals : tuple.args.drop k = vals) :
    GoesOn (Statement.run sess slots declared)
      ((args.zipIdx k).map fun arg => .getTuple arg.1.name (arg.2 + 1) idx) f
      { f with members := .assignAll (args.map Argument.name) vals f.members } := by
  induction h generalizing k f with
  | nil => exact .nil f
  | @cons arg a args vals ha _ ih =>
      have hget : tuple.args[k]? = some a := by
        rw [← List.head?_drop, hvals, List.head?_cons]
      have hrest : tuple.args.drop (k + 1) = vals := by
        rw [← List.tail_drop, hvals, List.tail_cons]
      have hrun : Statement.run sess slots declared (.getTuple arg.name (k + 1) idx) f =
          .ok (.inr { f with members := Function.update f.members arg.name (some a) }) := by
        simp only [Statement.run, htuple, Option.bind_some, Nat.add_sub_cancel, hget,
          Frame.assign_of_declared ha]
        rfl
      rw [List.zipIdx_cons, List.map_cons]
      exact .cons hrun (ih (f := { f with members := _ }) htuple hrest)

structure Frame.Behind (f : Frame σ) (names : List (List Char)) (r : Received σ) (f' : Frame σ) :
    Prop where
  session : f'.session = r.session
  members : f'.members = .assignAll names r.args f.members
  received : f'.received = f.received + 1

/-- What statements do that receive a pack, in front of others. -/
structure ReceivesPack (sess : SessionAbstract σ) (slots : Nat → Slot)
    (declared : List Char → Option ArgType) (names : List (List Char)) (w : Wire.Pack)
    (statements rest : List Statement) (f : Frame σ) : Prop where
  error : ∀ e, sess.receive w (slots f.received) f.session = .error e →
    runStatements (Statement.run sess slots declared) .illFormed (statements ++ rest) f =
      .error (.abort e)
  rejected : ∀ r, sess.receive w (slots f.received) f.session = .ok r → r.ret < 0 →
    runStatements (Statement.run sess slots declared) .illFormed (statements ++ rest) f =
      .ok (.rejected, r.session)
  received : ∀ r, sess.receive w (slots f.received) f.session = .ok r → ¬r.ret < 0 →
    ∃ f', f.Behind names r f' ∧
      runStatements (Statement.run sess slots declared) .illFormed (statements ++ rest) f =
        runStatements (Statement.run sess slots declared) .illFormed rest f'

/-- A container goes to its member. -/
theorem receivesPack_recv (hsess : WellTyped sess) {name : List Char} {ty : ArgType}
    {w : Wire.Pack} (hdeclared : declared name = some ty) (hpack : recvPack ty = some w)
    (htypes : w.types = [ty]) (family : List Char) (rest : List Statement) (f : Frame σ) :
    ReceivesPack sess slots declared [name] w [.recv name family] rest f := by
  have hoverload : (declared name).bind recvPack = some w := by
    rw [hdeclared]
    exact hpack
  constructor
  · intro e h
    apply runStatements_error
    simp only [Statement.run, hoverload, Frame.receive, h]
  · intro r h hret
    apply runStatements_ended
    simp only [Statement.run, hoverload, Frame.receive, h, if_pos hret]
  · intro r h hret
    have hargs := hsess w _ _ r h hret
    rw [htypes] at hargs
    rcases List.map_eq_singleton_iff.mp hargs with ⟨a, ha, htype⟩
    have hassigned := hdeclared.trans (congrArg some htype.symm)
    refine ⟨⟨r.session, Function.update f.members name (some a), f.tuples, f.received + 1⟩,
      ⟨rfl, ?_, rfl⟩, ?_⟩
    · rw [ha]
      rfl
    · apply runStatements_next
      simp only [Statement.run, hoverload, Frame.receive, h, if_neg hret, ha,
        Frame.assign_of_declared hassigned]
      rfl

def Frame.withTuple (f : Frame σ) (idx : Nat) (r : Received σ) : Frame σ :=
  ⟨r.session, f.members, Function.update f.tuples idx (some r), f.received + 1⟩

/-- The scalars of a pack go to their members. -/
theorem receivesPack_scalar (hsess : WellTyped sess) {args : List Argument} {ts : List ScalarType}
    (hreads : (args.map Argument.type).mapM typeNamed = some ts)
    (hdeclared : List.Forall₂ (fun arg ty => declared arg.name = some ty) args
      (ts.map ArgType.scalar)) (idx : Nat) (rest : List Statement) (f : Frame σ) :
    ReceivesPack sess slots declared (args.map Argument.name) (.scalar ts)
      (packStatements idx (.scalar args)) rest f := by
  have hreceive : ∀ r, sess.receive (.scalar ts) (slots f.received) f.session = .ok r →
      Statement.run sess slots declared (.deserialize idx (args.map Argument.type)) f =
        .ok (.inr (f.withTuple idx r)) := by
    intro r h
    simp only [Statement.run, hreads, Frame.receive, h]
    rfl
  have htuple : ∀ r, (f.withTuple idx r).tuples idx = some r := fun r => Function.update_self _ _ _
  constructor
  · intro e h
    apply runStatements_error
    simp only [Statement.run, hreads, Frame.receive, h]
  · intro r h hret
    rw [packStatements, List.cons_append, runStatements_next (hreceive r h)]
    apply runStatements_ended
    simp only [Statement.run, htuple r, if_pos hret]
    rfl
  · intro r h hret
    have hchecked : Statement.run sess slots declared (.checkTuple idx) (f.withTuple idx r) =
        .ok (.inr (f.withTuple idx r)) := by
      simp only [Statement.run, htuple r, if_neg hret]
    have hvals : List.Forall₂ (fun arg a => declared arg.name = some (Arg.type a)) args r.args := by
      have htypes : ts.map ArgType.scalar = r.args.map Arg.type := (hsess _ _ _ r h hret).symm
      rw [htypes, List.forall₂_map_right_iff] at hdeclared
      exact hdeclared
    have hgets : GoesOn (Statement.run sess slots declared)
        (args.zipIdx.map fun arg => .getTuple arg.1.name (arg.2 + 1) idx) (f.withTuple idx r)
        { f.withTuple idx r with
          members := .assignAll (args.map Argument.name) r.args f.members } :=
      goesOn_getTuple hvals (htuple r) List.drop_zero
    refine ⟨{ f.withTuple idx r with
      members := .assignAll (args.map Argument.name) r.args f.members }, ⟨rfl, rfl, rfl⟩, ?_⟩
    rw [packStatements, List.cons_append, List.cons_append, runStatements_next (hreceive r h),
      runStatements_next hchecked, hgets.append]

theorem mapM_typeNamed_types {args : List Argument} {ts : List ScalarType}
    (h : List.Forall₂ (fun a t => Declares value a.type (.scalar t)) args ts) :
    (args.map Argument.type).mapM typeNamed = some ts := by
  induction h with
  | nil => rfl
  | @cons a t args ts ha _ ih =>
      have hname : typeNamed a.type = some t := by
        have hstrip := ha.scalar_strip.1
        have hspec := typeName_spec t
        rw [typeNamed, hspec.2.1] at hspec
        rw [typeNamed, hstrip]
        exact hspec.2.2
      rw [List.map_cons, List.mapM_cons, hname, ih]
      rfl

/-- The statements of a pack receive the pack of its types. -/
theorem receivesPack (hsess : WellTyped sess) {p : Pack} {w : Wire.Pack} (hp : ReadsPack value p w)
    (hdeclared : List.Forall₂ (fun arg ty => declared arg.name = some ty) p.args w.types)
    (idx : Nat) (rest : List Statement) (f : Frame σ) :
    ReceivesPack sess slots declared (p.args.map Argument.name) w
      (packStatements idx p) rest f := by
  cases hp with
  | scalar h => exact receivesPack_scalar hsess (mapM_typeNamed_types h) hdeclared idx rest f
  | array =>
      cases hdeclared with
      | cons hty => exact receivesPack_recv hsess hty rfl rfl _ rest f
  | vector =>
      cases hdeclared with
      | cons hty => exact receivesPack_recv hsess hty rfl rfl _ rest f
  | string =>
      cases hdeclared with
      | cons hty => exact receivesPack_recv hsess hty rfl rfl _ rest f

/-! ## All packs -/

/-- How a body ends behind its packs, by how the parse of the packs ends. -/
def behindPacks (parsed : Except Abort (Parsed × σ)) (go : List Arg → σ → Except Stop (Ended × σ)) :
    Except Stop (Ended × σ) :=
  match parsed with
  | .error e => .error (.abort e)
  | .ok (.rejected, s) => .ok (.rejected, s)
  | .ok (.called args, s) => go args s

theorem behindPacks_continues {args : List Arg} {rest result : Except Abort (Parsed × σ)}
    (h : Continues args rest result) (go : List Arg → σ → Except Stop (Ended × σ)) :
    behindPacks result go = behindPacks rest fun args' s => go (args ++ args') s := by
  cases hrest : rest with
  | error e => rw [h.error e hrest, behindPacks, behindPacks]
  | ok result' =>
      rcases result' with ⟨parsed, s⟩
      cases parsed with
      | rejected => rw [h.rejected s hrest, behindPacks, behindPacks]
      | called args' => rw [h.called args' s hrest, behindPacks, behindPacks]

/-- The statements of all packs, in front of what goes on with the members. -/
theorem runStatements_packs (hsess : WellTyped sess) {packs : List Pack} {ws : List Wire.Pack}
    (h : List.Forall₂ (ReadsPack value) packs ws)
    (hdeclared : List.Forall₂ (fun p w => List.Forall₂ (fun arg ty => declared arg.name = some ty)
      (Pack.args p) (Wire.Pack.types w)) packs ws)
    (rest : List Statement) (f : Frame σ) (go : List Arg → σ → Except Stop (Ended × σ))
    (hgo : ∀ args f', args.map Arg.type = ws.flatMap Wire.Pack.types →
      f'.members = .assignAll ((packs.flatMap Pack.args).map Argument.name) args f.members →
      runStatements (Statement.run sess slots declared) .illFormed rest f' = go args f'.session) :
    runStatements (Statement.run sess slots declared) .illFormed
        (packsStatements f.received packs ++ rest) f =
      behindPacks (parsePacks sess slots f.received ws f.session) go := by
  induction h generalizing f go with
  | nil => exact hgo [] f rfl rfl
  | @cons p w packs ws hp _ ih =>
      cases hdeclared with
      | cons hfirst hrest =>
          have hpack : ReceivesPack sess slots declared (p.args.map Argument.name) w
              (packStatements f.received p) (packsStatements (f.received + 1) packs ++ rest) f :=
            receivesPack hsess hp hfirst f.received _ f
          rw [packsStatements, List.append_assoc]
          cases hr : sess.receive w (slots f.received) f.session with
          | error e => rw [hpack.error e hr, parsePacks_error ws hr, behindPacks]
          | ok r =>
              by_cases hret : r.ret < 0
              · rw [hpack.rejected r hr hret, parsePacks_rejected ws hr hret, behindPacks]
              · rcases hpack.received r hr hret with ⟨f', hf', hrun⟩
                have htypes := hsess w _ _ r hr hret
                have hlength : (p.args.map Argument.name).length = r.args.length := by
                  rw [List.length_map, hfirst.length_eq, ← htypes, List.length_map]
                rw [hrun, ← hf'.received, ih hrest f' fun args s => go (r.args ++ args) s,
                  hf'.received, hf'.session, behindPacks_continues (parsePacks_received ws hr hret)]
                intro args f'' hargs hmembers
                apply hgo
                · rw [List.map_append, htypes, hargs, List.flatMap_cons]
                · rw [hmembers, hf'.members, List.flatMap_cons, List.map_append,
                    Members.assignAll_append hlength]

end

/-! ## Whole operations -/

/-- What a compiler makes of the arguments of an operation: members with distinct names, of these
types. -/
structure Operation.Compiled (value : List Char → Option Nat) (op : Operation) (types : Signature) :
    Prop where
  names : ((op.arguments.getD []).map Argument.name).Nodup
  declares : List.Forall₂ (fun arg ty => Declares value arg.type ty) (op.arguments.getD []) types

def declaredType (args : List Argument) (types : Signature) (name : List Char) : Option ArgType :=
  ((args.zip types).find? fun p => p.1.name = name).map Prod.snd

/-- How an operation ends that was called. -/
def DeviceOperation.ended (op : DeviceOperation) (devId : Nat) (args : List Arg) : Ended :=
  if op.retType = "void".toList then .called op.name args else .sent devId op.id op.name args

theorem declaredType_of_nodup {args : List Argument} {types : Signature}
    (hnodup : (args.map Argument.name).Nodup) (hlength : args.length = types.length) :
    List.Forall₂ (fun arg ty => declaredType args types arg.name = some ty) args types := by
  induction args generalizing types with
  | nil =>
      cases types with
      | nil => exact .nil
      | cons ty types => cases hlength
  | cons arg args ih =>
      cases types with
      | nil => cases hlength
      | cons ty types =>
          have hnotMem := (List.nodup_cons.mp hnodup).1
          have hrest := ih (List.nodup_cons.mp hnodup).2 (Nat.succ.inj hlength)
          refine .cons (by simp [declaredType]) ?_
          rw [List.forall₂_iff_get] at hrest ⊢
          refine ⟨hrest.1, fun i hi hi' => ?_⟩
          have hne : arg.name ≠ (args.get ⟨i, hi⟩).name := by
            intro heq
            exact hnotMem (heq ▸ List.mem_map_of_mem (List.get_mem args ⟨i, hi⟩))
          rw [← hrest.2 i hi hi', declaredType, List.zip_cons_cons, List.find?_cons_of_neg]
          · rfl
          · simpa using hne

theorem forall₂_flatMap {α β γ δ : Type} {R : γ → δ → Prop} {f : α → List γ} {g : β → List δ}
    {xs : List α} {ys : List β}
    (hcut : List.Forall₂ (fun x y => (f x).length = (g y).length) xs ys)
    (h : List.Forall₂ R (xs.flatMap f) (ys.flatMap g)) :
    List.Forall₂ (fun x y => List.Forall₂ R (f x) (g y)) xs ys := by
  induction hcut with
  | nil => exact .nil
  | @cons x y xs ys hlength _ ih =>
      rw [List.flatMap_cons, List.flatMap_cons] at h
      have hfirst := List.forall₂_take_append _ _ _ h
      have hrest := List.forall₂_drop_append _ _ _ h
      rw [← hlength, List.take_left] at hfirst
      rw [← hlength, List.drop_left] at hrest
      exact .cons hfirst (ih hrest)

theorem ReadsPack.length_eq {value : List Char → Option Nat} {p : Pack} {w : Wire.Pack}
    (h : ReadsPack value p w) : p.args.length = w.types.length := by
  cases h with
  | scalar h => rw [Pack.args, Wire.Pack.types, List.length_map, h.length_eq]
  | array => rfl
  | vector => rfl
  | string => rfl

section

variable {value : List Char → Option Nat} {op : DeviceOperation} {types : Signature}

/-- The parser of an operation that compiles is written. -/
theorem Operation.Compiled.parserStatements_ok (h : op.Compiled value types) :
    ∃ declaration, parserStatements op.toOperation =
        .ok (declaration ++ packsStatements 0 (buildArgsPacks (op.arguments.getD [])).1) ∧
      ∀ statement ∈ declaration, ∃ text, statement = .declareSize text := by
  rw [parserStatements]
  cases hargs : op.arguments with
  | none => exact ⟨[], rfl, by simp⟩
  | some args =>
      have hdeclares := h.declares
      rw [hargs] at hdeclares
      rcases buildArgsPacks_reads hdeclares with ⟨hpacks, hflag⟩
      rw [Option.getD_some]
      simp only
      split
      case isTrue => exact ⟨[], rfl, by simp⟩
      case isFalse hvector =>
        have hprinted : ∃ text, printReqBuffSize (buildArgsPacks args).1 = .ok text := by
          by_cases hsome : (buildArgsPacks args).1 = []
          · rw [hsome]
            exact ⟨_, rfl⟩
          · have hfixed := pack_of_not_hasVector (hflag ▸ Bool.eq_false_iff.mpr hvector)
            rcases printReqBuffSize_reads hpacks hsome hfixed (buildArgsPacks_nonempty types) with
              ⟨text, htext, -⟩
            exact ⟨text, htext⟩
        rcases hprinted with ⟨text, htext⟩
        refine ⟨[.declareSize text], ?_, by simp⟩
        rw [htext]
        rfl

/-- The call takes the members. -/
theorem generateCall_run {σ : Type} {sess : SessionAbstract σ} {slots : Nat → Slot}
    {declared : List Char → Option ArgType} (devId : Nat) {f : Frame σ} {args : List Arg}
    (hvalues : ((op.arguments.getD []).map Argument.name).mapM f.members = some args) :
    Statement.run sess slots declared (generateCall devId op) f =
      .ok (.inl (op.ended devId args, f.session)) := by
  unfold generateCall DeviceOperation.ended
  split
  case isTrue =>
    simp only [Statement.run, Frame.values, hvalues]
    rfl
  case isFalse =>
    simp only [Statement.run, Frame.values, hvalues]
    rfl

/-- The body that is generated for an operation receives what the parser of its types receives, and
calls the device with it. Nothing that an earlier command has left in the members is used. -/
theorem executeOp_generated (h : op.Compiled value types) {σ : Type} {sess : SessionAbstract σ}
    (hsess : WellTyped sess) :
    ∃ statements, parserStatements op.toOperation = .ok statements ∧
      ∀ (slots : Nat → Slot) (devId : Nat) (members : Members) (s : σ),
        runBody sess slots (declaredType (op.arguments.getD []) types)
            (statements ++ [generateCall devId op]) members s =
          behindPacks (executeOp sess slots types s) fun args s' =>
            .ok (op.ended devId args, s') := by
  rcases h.parserStatements_ok with ⟨declaration, hparser, hdeclaration⟩
  refine ⟨_, hparser, fun slots devId members s => ?_⟩
  have hpacks := (buildArgsPacks_reads h.declares).1
  have hflatten := (buildArgsPacks_partition (op.arguments.getD [])).flatten
  have hdeclared : List.Forall₂ (fun p w => List.Forall₂ (fun arg ty =>
      declaredType (op.arguments.getD []) types arg.name = some ty) (Pack.args p)
      (Wire.Pack.types w)) (buildArgsPacks (op.arguments.getD [])).1
      (Wire.buildArgsPacks types).1 := by
    apply forall₂_flatMap (hpacks.imp fun _ _ hp => hp.length_eq)
    rw [hflatten, buildArgsPacks_types]
    exact declaredType_of_nodup h.names h.declares.length_eq
  have hdeclares : GoesOn (Statement.run sess slots (declaredType (op.arguments.getD []) types))
      declaration ⟨s, members, fun _ => none, 0⟩ ⟨s, members, fun _ => none, 0⟩ := by
    clear hparser
    induction declaration with
    | nil => exact .nil _
    | cons statement declaration ih =>
        rcases hdeclaration statement List.mem_cons_self with ⟨text, rfl⟩
        exact .cons rfl (ih fun statement hmem => hdeclaration statement (List.mem_cons_of_mem _ hmem))
  rw [runBody, List.append_assoc, hdeclares.append, executeOp]
  refine runStatements_packs hsess hpacks hdeclared [generateCall devId op]
    ⟨s, members, fun _ => none, 0⟩ _ ?_
  intro args f' htypes hmembers
  rw [buildArgsPacks_types] at htypes
  rw [hflatten] at hmembers
  apply runStatements_ended
  apply generateCall_run
  rw [hmembers]
  apply Members.mapM_assignAll h.names
  rw [List.length_map, h.declares.length_eq, ← htypes, List.length_map]

end

end KoheronServer.Devgen
