import KoheronServer.Devgen.Header
import KoheronServer.Devgen.PlainSizes

/-!
# The table of commands

`get_json` dumps the devices with their operations, and makes a C++ string literal of the dump by
two replacements, with the sizes of arrays and the deduced types as expressions between literals.
What the statement of the template writes is JSON again, of the same data with the values of the
expressions, exactly when the sizes of the arrays are operands of `<<` that are written in digits
and the types have no white space that JSON escapes.
-/

namespace KoheronServer.Devgen

open Foundation

/-! ## `get_json` -/

/-- The order in which dictionaries are iterated. -/
structure DictOrder where
  order : List (List Char × Json) → List (List Char × Json)
  perm : ∀ members, (order members).Perm members

def dict (order : DictOrder) (members : List (String × Json)) : Json :=
  .object (order.order (members.map fun m => (m.1.toList, m.2)))

structure Device extends HeaderDevice where
  id : Nat

def kserverFunction (order : DictOrder) (name : String) (id : Nat) (args : List Json)
    (retType : String) : Json :=
  dict order [("name", .string name.toList), ("id", .number id), ("args", .array args),
    ("ret_type", .string retType.toList)]

def kserverJson (order : DictOrder) : Json :=
  dict order [("class", .string "KServer".toList), ("id", .number 1), ("functions", .array
    [kserverFunction order "get_version" 0 [] "const char *",
      kserverFunction order "get_cmds" 1 [] "std::string",
      kserverFunction order "get_stats" 2 [] "const char *",
      kserverFunction order "get_dev_status" 3 [] "void",
      kserverFunction order "get_running_sessions" 4 [] "const char *",
      kserverFunction order "subscribe_pubsub" 5
        [dict order [("name", .string "channel".toList), ("type", .string "uint32_t".toList)]] "void",
      kserverFunction order "pubsub_ping" 6 [] "void"])]

def clientArgJson (order : DictOrder) (arg : ClientArg) : Json :=
  dict order [("name", .string arg.name), ("type", .string arg.type)]

def operationJson (order : DictOrder) (device : Device) (op : DeviceOperation) : Json :=
  dict order [("name", .string op.name), ("id", .number op.id),
    ("ret_type", .string (formatRetType device.name op.toOperation)),
    ("args", .array ((op.argsClient.getD []).map (clientArgJson order)))]

def deviceJson (order : DictOrder) (device : Device) : Json :=
  dict order [("class", .string device.name), ("id", .number device.id),
    ("functions", .array (device.operations.map (operationJson order device)))]

def jsonData (order : DictOrder) (devices : List Device) : Json :=
  .array (kserverJson order :: devices.map (deviceJson order))

/-- `replace('"', '\\"').replace('\\\\', '')` -/
def quoted (s : List Char) : List Char :=
  replace ['\\', '\\'] [] (replace ['"'] ['\\', '"'] s)

def Identifier (s : List Char) : Prop := s ≠ [] ∧ s.all (fun c => c.isAlphanum || c = '_') = true

instance (s : List Char) : Decidable (Identifier s) := inferInstanceAs (Decidable (_ ∧ _))

/-- The size in the text of an array whose element type and size have no `<`, `>` and comma. -/
def ArraySize (type n : List Char) : Prop :=
  isStdArray type = true ∧ ∃ front t rest,
    type = front ++ '<' :: (t ++ ',' :: (n ++ '>' :: rest)) ∧ '<' ∉ front ∧ Simple t ∧ Simple n

/-- A text with the expression that it splices into the stream replaced by its value. -/
def denote (value : List Char → List Char) (s : List Char) : List Char :=
  match s.splitOn '"' with
  | [a, e, b] => a ++ value (strip ((e.drop 4).rdrop 4)) ++ b
  | _ => s

/-- The call that gives the name of a deduced type. -/
def typeStr (className : List Char) (op : Operation) : List Char :=
  "get_type_str<".toList ++ getExactRetType className op ++ ">()".toList

theorem parseParameter_client {devname opname : List Char} {param : Parameter}
    {arg : Argument × ClientArg} (h : parseParameter devname opname param = .ok arg) :
    arg.2.name = arg.1.name ∧ formatType arg.1.type = .ok arg.2.type := by
  obtain ⟨⟨⟩, -, hrest⟩ := bind_ok_iff.mp h
  obtain ⟨type, hformat, harg⟩ := bind_ok_iff.mp hrest
  obtain rfl := Except.ok.inj harg
  exact ⟨rfl, hformat⟩

theorem parseParameters_client {devname opname : List Char} {params : List Parameter}
    {args : List (Argument × ClientArg)}
    (h : List.Forall₂ (fun p a => parseParameter devname opname p = .ok a) params args) :
    List.Forall₂ (fun a c => c.name = a.name ∧ formatType a.type = .ok c.type)
      (args.map Prod.fst) (args.map Prod.snd) := by
  induction h with
  | nil => exact .nil
  | cons harg _ ih => exact .cons (parseParameter_client harg) ih

/-- The clients get every argument under its name, with its type as `format_type` writes it. -/
theorem parseHeaderOperation_client {devname : List Char} {method : Method} {op : Operation}
    (h : parseHeaderOperation devname method = .ok op) :
    List.Forall₂ (fun a c => c.name = a.name ∧ formatType a.type = .ok c.type)
      (op.arguments.getD []) (op.argsClient.getD []) := by
  obtain ⟨⟨⟩, -, hrest⟩ := bind_ok_iff.mp h
  split at hrest
  case isTrue =>
    obtain ⟨args, hargs, hop⟩ := bind_ok_iff.mp hrest
    obtain rfl := Except.ok.inj hop
    exact parseParameters_client (mapM_ok_iff.mp hargs)
  case isFalse =>
    obtain rfl := Except.ok.inj hrest
    exact .nil

/-! ## The strings of the data -/

/-- An expression of the table, and what stands in the text behind it. -/
inductive Splice (cc : Compiler) : List Char → List Char → Prop where
  | size {n : List Char} {k : Nat} (hn : cc.argument n = some k) : Splice cc n ">".toList
  | typeStr {e t : List Char} (hstreamed : cc.streamed e = some t) (hshown : cc.shown e = t)
      (ht : Verbatim t) : Splice cc e []

/-- A text of a dump: as it stands, or with one expression that it splices into the stream, which
an escape sequence would spoil. -/
inductive Spliced (cc : Compiler) : List Char → Prop where
  | source {s : List Char} (hs : Source s) : Spliced cc s
  | expression {a e b : List Char} (ha : Source a) (he : Source e) (hb : Verbatim b)
      (hescape : ¬SpacesOnly e → cc.streamed (e.flatMap escapeChar) = none)
      (hsplice : Splice cc e b) :
      Spliced cc (a ++ '"' :: ((" << ".toList ++ (e ++ " << ".toList)) ++ '"' :: b))

/-- The expression that a text splices into the stream. -/
def embedded (s : List Char) : Option (List Char) :=
  match s.splitOn '"' with
  | [_, e, _] => some ((e.drop 4).rdrop 4)
  | _ => none

/-- The text between the literals of the statement. -/
def dumped (e : List Char) : List Char := strip (e.flatMap escapeChar)

/-- The statement compiles with what the text splices into it. -/
def Inserts (streamed : List Char → Option (List Char)) (s : List Char) : Prop :=
  ∀ e, embedded s = some e → (streamed (dumped e)).isSome = true

def inserted (streamed : List Char → Option (List Char)) (s : List Char) : List Char :=
  match s.splitOn '"' with
  | [a, e, b] => a ++ (streamed (dumped ((e.drop 4).rdrop 4))).getD [] ++ b
  | _ => s

theorem source_between {e : List Char} (he : Source e) :
    Source (" << ".toList ++ (e ++ " << ".toList)) := by
  have hop : Source " << ".toList := by decide
  exact hop.append (he.append hop)

theorem verbatim_of_identifier {s : List Char} (h : Identifier s) : Verbatim s := by
  intro c hc
  have hchar := List.all_eq_true.mp h.2 c hc
  rw [Bool.or_eq_true, decide_eq_true_iff] at hchar
  rcases hchar with hchar | rfl
  · exact isVerbatim_of_alphanum hchar
  · decide

variable {value : List Char → List Char} {streamed : List Char → Option (List Char)}

theorem denote_source {s : List Char} (h : Source s) : denote value s = s := by
  rw [denote, List.splitOn_eq_singleton h.notMem]

theorem denote_verbatim {s : List Char} (h : Verbatim s) : denote value s = s :=
  denote_source h.source

theorem inserted_source {s : List Char} (h : Source s) : inserted streamed s = s := by
  rw [inserted, List.splitOn_eq_singleton h.notMem]

theorem embedded_source {s : List Char} (h : Source s) : embedded s = none := by
  rw [embedded, List.splitOn_eq_singleton h.notMem]

section

variable {a e b : List Char}

theorem splitOn_expression (ha : Source a) (he : Source e) (hb : Source b) :
    (a ++ '"' :: ((" << ".toList ++ (e ++ " << ".toList)) ++ '"' :: b)).splitOn '"' =
      [a, " << ".toList ++ (e ++ " << ".toList), b] := by
  rw [List.splitOn_append_cons_self_of_not_mem ha.notMem,
    List.splitOn_append_cons_self_of_not_mem (source_between he).notMem,
    List.splitOn_eq_singleton hb.notMem]

theorem drop_rdrop_between (e : List Char) :
    ((" << ".toList ++ (e ++ " << ".toList)).drop 4).rdrop 4 = e := by
  have hop : " << ".toList = [' ', '<', '<', ' '] := by decide
  have hfront : (" << ".toList ++ (e ++ " << ".toList)).drop 4 = e ++ " << ".toList := rfl
  rw [hfront, hop, List.append_cons, List.append_cons, List.append_cons,
    List.rdrop_concat_succ, List.rdrop_concat_succ, List.rdrop_concat_succ,
    List.rdrop_concat_succ, List.rdrop_zero]

theorem inserted_expression (ha : Source a) (he : Source e) (hb : Source b) :
    inserted streamed (a ++ '"' :: ((" << ".toList ++ (e ++ " << ".toList)) ++ '"' :: b)) =
      a ++ (streamed (dumped e)).getD [] ++ b := by
  rw [inserted, splitOn_expression ha he hb]
  simp only [drop_rdrop_between]

theorem embedded_expression (ha : Source a) (he : Source e) (hb : Source b) :
    embedded (a ++ '"' :: ((" << ".toList ++ (e ++ " << ".toList)) ++ '"' :: b)) = some e := by
  rw [embedded, splitOn_expression ha he hb]
  simp only [drop_rdrop_between]

theorem inserts_expression_iff (ha : Source a) (he : Source e) (hb : Source b) :
    Inserts streamed (a ++ '"' :: ((" << ".toList ++ (e ++ " << ".toList)) ++ '"' :: b)) ↔
      (streamed (dumped e)).isSome = true := by
  rw [Inserts, embedded_expression ha he hb]
  simp

end

variable {cc : Compiler}

section

variable {p : List Char → Prop} {order : DictOrder}

variable (hp : ∀ s, Verbatim s → p s)
include hp

end

theorem quoted_verbatim_cons {c : Char} (h : isVerbatim c = true) (s : List Char) :
    quoted (c :: s) = c :: quoted s := by
  obtain ⟨-, -, hquote, hslash⟩ := isVerbatim_iff.mp h
  rw [quoted, replace_cons_of_ne hquote, replace_cons_of_ne hslash, quoted]

theorem quoted_verbatim_append {s : List Char} (h : Verbatim s) (rest : List Char) :
    quoted (s ++ rest) = s ++ quoted rest := by
  induction s with
  | nil => rfl
  | cons c s ih =>
      rw [List.cons_append, quoted_verbatim_cons (h c List.mem_cons_self),
        ih fun d hd => h d (List.mem_cons_of_mem c hd)]
      rfl

@[simp] theorem quoted_nil : quoted [] = [] := rfl

theorem quoted_verbatim {s : List Char} (h : Verbatim s) : quoted s = s := by
  have happend := quoted_verbatim_append h []
  rwa [quoted_nil, List.append_nil] at happend

theorem quoted_quote (s : List Char) : quoted ('"' :: s) = '\\' :: '"' :: quoted s := by
  rw [quoted, replace_char, List.cons_append, List.singleton_append,
    replace_pair_of_ne (by decide), replace_cons_of_ne (by decide), quoted]

/-- An escaped quote of the dump becomes the end, or the start, of a literal. -/
theorem quoted_escaped (s : List Char) : quoted ('\\' :: '"' :: s) = '"' :: quoted s := by
  rw [quoted, replace_cons_of_ne (by decide), replace_char, List.cons_append,
    List.singleton_append, replace_pair, List.nil_append, replace_cons_of_ne (by decide), quoted]

/-- An escape sequence whose second character is neither a quote nor a backslash stays. -/
theorem quoted_slash {d : Char} (h : isVerbatim d = true) (s : List Char) :
    quoted ('\\' :: d :: s) = '\\' :: quoted (d :: s) := by
  obtain ⟨-, -, hquote, hslash⟩ := isVerbatim_iff.mp h
  rw [quoted, replace_cons_of_ne (by decide), replace_cons_of_ne hquote,
    replace_pair_of_ne hslash, quoted, replace_cons_of_ne hquote]

theorem quoted_source_append {s : List Char} (h : Source s) (rest : List Char) :
    quoted (s.flatMap escapeChar ++ rest) = s.flatMap escapeChar ++ quoted rest := by
  induction s with
  | nil => rfl
  | cons c s ih =>
      have hrest := ih fun d hd => h d (List.mem_cons_of_mem c hd)
      rw [List.flatMap_cons, List.append_assoc]
      rcases escapeChar_source (h c List.mem_cons_self) with ⟨hc, hescape⟩ | ⟨d, t, hescape, ht⟩
      · rw [hescape, List.singleton_append, quoted_verbatim_cons hc, hrest]
        rfl
      · have hverbatim : Verbatim (d :: t) := fun b hb => isVerbatim_of_alphanum (ht b hb)
        rw [hescape, List.cons_append, List.cons_append,
          quoted_slash (hverbatim d List.mem_cons_self), ← List.cons_append,
          quoted_verbatim_append hverbatim, hrest]
        simp only [List.cons_append, List.append_assoc]

theorem quoted_source {s : List Char} (h : Source s) :
    quoted (s.flatMap escapeChar) = s.flatMap escapeChar := by
  have happend := quoted_source_append h []
  rwa [quoted_nil, List.append_nil] at happend

/-- The dump of a text with an expression. -/
theorem flatMap_escapeChar_expression (a e : List Char) {b : List Char} (hb : Verbatim b) :
    (a ++ '"' :: ((" << ".toList ++ (e ++ " << ".toList)) ++ '"' :: b)).flatMap escapeChar =
      a.flatMap escapeChar ++ ('\\' :: '"' :: ((" << ".toList ++
        (e.flatMap escapeChar ++ " << ".toList)) ++ ['\\', '"'])) ++ b := by
  have hop : Verbatim " << ".toList := by decide
  have hquote : escapeChar '"' = ['\\', '"'] := by decide
  rw [List.flatMap_append, List.flatMap_cons, List.flatMap_append, List.flatMap_append,
    List.flatMap_append, List.flatMap_cons, hquote, flatMap_escapeChar hop, flatMap_escapeChar hb]
  simp only [List.append_assoc, List.cons_append, List.nil_append]

/-- A part of the dump that is replaced on its own, what it then writes, and the condition under
which the statement compiles with it. -/
structure Writes (streamed : List Char → Option (List Char)) (compiles : Prop)
    (part output : List Char) : Prop where
  apart : ∀ rest, quoted (part ++ rest) = quoted part ++ quoted rest
  writes : compiles → ∀ rest, writtenFrom streamed .literal (quoted part ++ rest) =
    (writtenFrom streamed .literal rest).map (output ++ ·)
  fails : ¬compiles → ∀ rest, writtenFrom streamed .literal (quoted part ++ rest) = none

namespace Writes

theorem of_iff {c d : Prop} (h : c ↔ d) {p s : List Char} (hp : Writes streamed c p s) :
    Writes streamed d p s where
  apart := hp.apart
  writes hd := hp.writes (h.mpr hd)
  fails hd := hp.fails fun hc => hd (h.mp hc)

theorem nil : Writes streamed True [] [] where
  apart _ := rfl
  writes _ rest := by
    change writtenFrom streamed .literal rest = _
    cases writtenFrom streamed .literal rest with
    | none => rfl
    | some t => rfl
  fails h := absurd trivial h

theorem append {c d : Prop} {p q s t : List Char} (hp : Writes streamed c p s)
    (hq : Writes streamed d q t) : Writes streamed (c ∧ d) (p ++ q) (s ++ t) where
  apart rest := by
    rw [List.append_assoc, hp.apart, hq.apart, hp.apart, List.append_assoc]
  writes h rest := by
    rw [hp.apart, List.append_assoc, hp.writes h.1, hq.writes h.2, Option.map_map]
    congr 1
    funext u
    exact (List.append_assoc s t u).symm
  fails h rest := by
    rw [hp.apart, List.append_assoc]
    by_cases hc : c
    · rw [hp.writes hc, hq.fails fun hd => h ⟨hc, hd⟩, Option.map_none]
    · exact hp.fails hc _

theorem verbatim {s : List Char} (h : Verbatim s) : Writes streamed True s s where
  apart rest := by
    rw [quoted_verbatim_append h, quoted_verbatim h]
  writes _ rest := by
    rw [quoted_verbatim h, writtenFrom_verbatim h]
  fails hnot := absurd trivial hnot

/-- White space is escaped in the dump, and again white space in what is written. -/
theorem source {s : List Char} (h : Source s) :
    Writes streamed True (s.flatMap escapeChar) s where
  apart rest := by
    rw [quoted_source_append h, quoted_source h]
  writes _ rest := by
    rw [quoted_source h, writtenFrom_source h]
  fails hnot := absurd trivial hnot

theorem quote : Writes streamed True ['"'] ['"'] where
  apart rest := by
    rw [List.singleton_append, quoted_quote, quoted_quote]
    rfl
  writes _ rest := by
    rw [quoted_quote]
    exact writtenFrom_quote rest
  fails hnot := absurd trivial hnot

/-- An expression between two escaped quotes is what is written between two literals. -/
theorem expression {e : List Char} (he : Source e) :
    Writes streamed ((streamed (dumped e)).isSome = true)
      ('\\' :: '"' :: ((" << ".toList ++ (e.flatMap escapeChar ++ " << ".toList)) ++ ['\\', '"']))
      ((streamed (dumped e)).getD []) := by
  let escaped := e.flatMap escapeChar
  have hop : Verbatim " << ".toList := by decide
  have hquoted : ∀ rest, quoted ('\\' :: '"' :: ((" << ".toList ++ (escaped ++ " << ".toList)) ++
        '\\' :: '"' :: rest)) =
      '"' :: ((" << ".toList ++ (escaped ++ " << ".toList)) ++ '"' :: quoted rest) := by
    intro rest
    rw [quoted_escaped, List.append_assoc, List.append_assoc, quoted_verbatim_append hop,
      quoted_source_append he, quoted_verbatim_append hop, quoted_escaped]
    simp only [escaped, List.append_assoc]
  have hread : ∀ rest, writtenFrom streamed .literal
      (quoted ('\\' :: '"' :: ((" << ".toList ++ (escaped ++ " << ".toList)) ++ ['\\', '"'])) ++
        rest) =
      (streamed (dumped e)).bind fun t =>
        (writtenFrom streamed .literal rest).map (t ++ ·) := by
    intro rest
    have hwritten := @writtenFrom_operand streamed escaped (quote_notMem_escaped he) rest
    have hdumped : dumped e = strip escaped := rfl
    rw [hquoted [], hdumped]
    simpa [quoted] using hwritten
  refine ⟨fun rest => ?_, fun hsome rest => ?_, fun hnone rest => ?_⟩
  · have hrest := hquoted rest
    have hnil := hquoted []
    simp only [List.cons_append, List.append_assoc, List.nil_append] at hrest hnil ⊢
    rw [hrest, hnil]
    simp [quoted]
  · obtain ⟨t, ht⟩ := Option.isSome_iff_exists.mp hsome
    rw [hread, ht]
    rfl
  · rw [hread, Option.not_isSome_iff_eq_none.mp hnone]
    rfl

theorem cons_verbatim {c : Prop} {d : Char} (hd : isVerbatim d = true) {p q : List Char}
    (h : Writes streamed c p q) : Writes streamed c (d :: p) (d :: q) := by
  have hchar : Writes streamed True [d] [d] :=
    verbatim fun b hb => List.mem_singleton.mp hb ▸ hd
  exact (hchar.append h).of_iff (iff_of_eq (true_and c))

theorem append_verbatim {c : Prop} {p q : List Char} (h : Writes streamed c p q) {s : List Char}
    (hs : Verbatim s) : Writes streamed c (p ++ s) (q ++ s) :=
  (h.append (verbatim hs)).of_iff (iff_of_eq (and_true c))

theorem between_quotes {c : Prop} {p q : List Char} (h : Writes streamed c p q) :
    Writes streamed c ('"' :: (p ++ ['"'])) ('"' :: (q ++ ['"'])) := by
  have hboth := quote.append (h.append quote)
  exact hboth.of_iff (by simp)

/-- A string of the dump writes the text with what is written for its expression. -/
theorem string {s : List Char} (h : Spliced cc s) :
    Writes streamed (Inserts streamed s) (dumpString s)
    ('"' :: (inserted streamed s ++ ['"'])) := by
  cases h with
  | source hs =>
      have hinserts : True ↔ Inserts streamed s := by
        simp [Inserts, embedded_source hs]
      rw [inserted_source hs, dumpString]
      exact (between_quotes (source hs)).of_iff hinserts
  | @expression a e b ha he hb hescape hsplice =>
      have hparts := ((@source streamed a ha).append (expression he)).append_verbatim hb
      rw [dumpString, flatMap_escapeChar_expression a e hb, inserted_expression ha he hb.source]
      refine (between_quotes hparts).of_iff ?_
      rw [inserts_expression_iff ha he hb.source, true_and]

theorem key {k : List Char} (hk : Verbatim k) :
    Writes streamed True (dumpString k) (dumpString k) := by
  rw [dumpString_verbatim hk]
  exact between_quotes (verbatim hk)

mutual

/-- The dump of a value writes its text with what is written for each expression. -/
theorem dumps : ∀ j : Json, j.AllStrings Verbatim (Spliced cc) →
    Writes streamed (j.AllStrings Verbatim (Inserts streamed)) j.dumps
      (j.dumpsWith (inserted streamed))
  | .number n, _ => by
      rw [Json.dumps, Json.dumpsWith, Json.dumpsWith]
      exact (verbatim (verbatim_toDigits n)).of_iff (iff_of_true trivial (Json.allStrings_number n))
  | .string s, h => by
      rw [Json.AllStrings] at h ⊢
      rw [Json.dumps, Json.dumpsWith, Json.dumpsWith]
      exact string h
  | .array items, h => by
      rw [Json.AllStrings] at h ⊢
      rw [Json.dumps, Json.dumpsWith, Json.dumpsWith]
      exact cons_verbatim (by decide) ((dumpItems items h).append_verbatim (by decide))
  | .object members, h => by
      rw [Json.AllStrings] at h ⊢
      rw [Json.dumps, Json.dumpsWith, Json.dumpsWith]
      exact cons_verbatim (by decide) ((dumpMembers members h).append_verbatim (by decide))

theorem dumpItems : ∀ js : List Json, Json.AllItems Verbatim (Spliced cc) js →
    Writes streamed (Json.AllItems Verbatim (Inserts streamed) js)
      (Json.dumpItemsWith (fun s => s.flatMap escapeChar) js)
      (Json.dumpItemsWith (inserted streamed) js)
  | [], _ => nil
  | [j], h => by
      rw [Json.AllItems] at h ⊢
      rw [Json.dumpItemsWith, Json.dumpItemsWith]
      exact (dumps j h.1).of_iff (iff_of_eq (and_true _)).symm
  | j :: k :: js, h => by
      rw [Json.AllItems] at h ⊢
      rw [Json.dumpItemsWith_cons_cons, Json.dumpItemsWith_cons_cons]
      exact (dumps j h.1).append (cons_verbatim (by decide) (dumpItems (k :: js) h.2))

theorem dumpMembers : ∀ ms : List (List Char × Json), Json.AllMembers Verbatim (Spliced cc) ms →
    Writes streamed (Json.AllMembers Verbatim (Inserts streamed) ms)
      (Json.dumpMembersWith (fun s => s.flatMap escapeChar) ms)
      (Json.dumpMembersWith (inserted streamed) ms)
  | [], _ => nil
  | [(k, v)], h => by
      rw [Json.AllMembers] at h ⊢
      rw [Json.dumpMembersWith, Json.dumpMembersWith]
      have hmember := (key h.1).append (cons_verbatim (d := ':') (by decide) (dumps v h.2.1))
      exact hmember.of_iff (by simp [h.1, Json.AllMembers])
  | (k, v) :: m :: ms, h => by
      rw [Json.AllMembers] at h ⊢
      rw [Json.dumpMembersWith_cons_cons, Json.dumpMembersWith_cons_cons]
      have hrest := cons_verbatim (d := ',') (by decide) (dumpMembers (m :: ms) h.2.2)
      have hmember := (key h.1).append
        (cons_verbatim (d := ':') (by decide) ((dumps v h.2.1).append hrest))
      exact hmember.of_iff (by simp [h.1])

end

end Writes

theorem ArraySize.params {type n : List Char} (h : ArraySize type n) :
    ∃ t, getStdArrayParams type = .ok ⟨t, strip n⟩ := by
  obtain ⟨-, front, t, rest, rfl, hfront, ht, hn⟩ := h
  have hcut : (n ++ '>' :: rest).takeWhile isPlain = n := by
    rw [List.takeWhile_append_of_pos hn, List.takeWhile_cons_of_neg (by decide), List.append_nil]
  exact ⟨strip t, by rw [getStdArrayParams_of_simple hfront ht, hcut]⟩

def literalOrder : DictOrder := ⟨id, fun members => .refl members⟩

def ten : Expression := .word (.numeral 10)

/-- `A ? 4 : 8` -/
def chosen : Expression :=
  .conditional (.word ⟨"A".toList, by decide, by decide⟩) (.word (.numeral 4)) (.word (.numeral 8))

def setTapsType : List Char :=
  "decltype(std::declval<Filter>().set_taps(std::declval<std::array<float, 10>>()))".toList

def setTapsStr : Expression :=
  .call (.templateId (.word ⟨"get_type_str".toList, by decide, by decide⟩) [setTapsType]) []

def filterValue : Expression → Option Value
  | .word w =>
      if w.text.all Char.isDigit then some (.integer (Nat.ofDigitChars 10 w.text 0))
      else if w.text = "A".toList then some (.integer 1)
      else none
  | .conditional c t f =>
      (filterValue c).bind fun v => if v.number = some 0 then filterValue f else filterValue t
  | .call (.templateId ..) [] => some (.text "std::vector<float, std::allocator<float> >".toList)
  | _ => none

def filterCompiler : Compiler where
  read s :=
    if strip s = "10".toList then some ten
    else if strip s = "A ? 4 : 8".toList then some chosen
    else if strip s = "get_type_str<".toList ++ setTapsType ++ ">()".toList then some setTapsStr
    else none
  spelled := by
    intro s e hread
    refine Spells.of_strip ?_
    split_ifs at hread with hten hchosen hstr
    · obtain rfl := Option.some.inj hread
      rw [hten]
      exact .cons (b := []) blank_nil (.nil blank_nil) (by decide)
    · obtain rfl := Option.some.inj hread
      rw [hchosen]
      exact .cons (b := []) blank_nil (.cons (b := [' ']) (by decide) (.cons (b := [' ']) (by decide)
        (.cons (b := [' ']) (by decide) (.cons (b := [' ']) (by decide) (.nil blank_nil) (by decide))
          (by decide)) (by decide)) (by decide)) (by decide)
    · obtain rfl := Option.some.inj hread
      rw [hstr]
      exact .cons (b := []) blank_nil (.cons (b := []) blank_nil (.cons (b := []) blank_nil
        (.cons (b := []) blank_nil (.cons (b := []) blank_nil (.cons (b := []) blank_nil
          (.nil blank_nil) (by decide)) (by decide)) (by decide)) (by decide)) (by decide))
        (by decide)
  read_strip := by
    intro s
    rw [strip_trimmed s]
  value := filterValue

end KoheronServer.Devgen
