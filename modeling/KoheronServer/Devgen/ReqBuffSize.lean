import KoheronServer.Foundation.Expressions
import KoheronServer.Devgen.ArgPacks
import KoheronServer.Wire.Packs

/-!
# The buffer size of the generated parser

`print_req_buff_size` writes a constant into the generated parser, which a C++ compiler then reads.
The packs behind it are those of `Wire.buildArgsPacks`. The constant is the number of bytes of the
arguments in a message, up to arrays of size 0.
-/

namespace KoheronServer.Devgen

open Foundation Wire

/-! ## The printer -/

def printTypeListPack (args : List Argument) : List Char :=
  args.zipIdx.flatMap fun a =>
    if a.2 < args.length - 1 then a.1.type ++ ", ".toList else a.1.type

/-- A round of the loop in `print_req_buff_size`, of which there are `count`. -/
def printPack (count idx : Nat) : Pack → Except Raised (List Char)
  | .scalar args =>
      .ok ((if idx = 0 then "required_buffer_size<".toList
          else "                                     + required_buffer_size<".toList) ++
        printTypeListPack args ++
        (if idx < count - 1 then ">()\n".toList else ">();\n".toList))
  | .array arg => do
      let arrayParams ← getStdArrayParams arg.type
      return (if idx = 0 then "size_of<".toList
          else "                                     + size_of<".toList) ++
        (arrayParams.T ++ ", ".toList ++ arrayParams.N ++ ">".toList) ++
        (if idx < count - 1 then "\n".toList else ";\n".toList)
  | .vector _ | .string _ => .ok []

def printReqBuffSize (packs : List Pack) : Except Raised (List Char) := do
  let lines ← packs.zipIdx.mapM fun pack => printPack packs.length pack.2 pack.1
  return "    constexpr size_t req_buff_size = ".toList ++ lines.flatten

/-! ## What the compiler reads -/

def typeName : ScalarType → List Char
  | .uint8 => "uint8_t".toList
  | .int8 => "int8_t".toList
  | .uint16 => "uint16_t".toList
  | .int16 => "int16_t".toList
  | .uint32 => "uint32_t".toList
  | .int32 => "int32_t".toList
  | .uint64 => "uint64_t".toList
  | .int64 => "int64_t".toList
  | .float => "float".toList
  | .double => "double".toList
  | .bool => "bool".toList

def scalarTypes : List ScalarType :=
  [.uint8, .int8, .uint16, .int16, .uint32, .int32, .uint64, .int64, .float, .double, .bool]

def typeNamed (s : List Char) : Option ScalarType := scalarTypes.find? fun t => typeName t = strip s

def behind (c : Char) (s : List Char) : List Char := (s.dropWhile (· ≠ c)).drop 1

/-- The value of a call `required_buffer_size<T, ...>()` or of a variable `size_of<T, N>`, and the
text behind it. `value` are the values of the sizes. -/
def termValue (value : List Char → Option Nat) (name : List Char) (params : List (List Char))
    (rest : List Char) : Option (Nat × List Char) :=
  if name = "required_buffer_size".toList then
    if "()".toList.isPrefixOf rest then
      (params.mapM typeNamed).map fun ts => (requiredBufferSize ts, rest.drop 2)
    else none
  else if name = "size_of".toList then
    match params with
    | [t, n] =>
        (typeNamed t).bind fun t => (value (strip n)).map fun n => (t.sizeOfArray n, rest)
    | _ => none
  else none

def readTerm (value : List Char → Option Nat) (s : List Char) : Option (Nat × List Char) :=
  termValue value (strip (s.takeWhile (· ≠ '<')))
    (((behind '<' s).takeWhile (· ≠ '>')).splitOn ',') (behind '>' (behind '<' s))

/-- A sum of such terms, up to the semicolon at the end of the text. -/
def readSum (value : List Char → Option Nat) : Nat → List Char → Option Nat
  | 0, _ => none
  | fuel + 1, s =>
      (readTerm value s).bind fun term =>
        match term.2.dropWhile isBlank with
        | '+' :: rest => (readSum value fuel rest).map (term.1 + ·)
        | ';' :: rest => if Blank rest then some term.1 else none
        | _ => none

/-- The value of the constant that a declaration of `req_buff_size` defines. -/
def declaredSize (value : List Char → Option Nat) (s : List Char) : Option Nat :=
  let declarator := "    constexpr size_t req_buff_size = ".toList
  if declarator.isPrefixOf s then readSum value s.length (s.drop declarator.length) else none

/-! ## Types -/

/-- The text of an argument type, and the type. The size of an array is written without `<`, `>` and
comma, and `value` gives its value. -/
inductive Declares (value : List Char → Option Nat) : List Char → ArgType → Prop where
  | scalar {s : List Char} (t : ScalarType) (hs : Spells [typeName t] s) :
      Declares value s (.scalar t)
  | array {s N : List Char} {n : Nat} (t : ScalarType) (hsimple : Simple N) (htrim : Trimmed N)
      (hvalue : value N = some n)
      (hs : Spells ["std::array".toList, ['<'], typeName t, [','], N, ['>']] s) :
      Declares value s (.array t n)
  | vector {s : List Char} (t : ScalarType)
      (hs : Spells ["std::vector".toList, ['<'], typeName t, ['>']] s) :
        Declares value s (.vector t)
  | string {s : List Char} (hs : Spells ["std::string".toList] s) : Declares value s .string

theorem typeName_spec : ∀ t : ScalarType,
    Simple (typeName t) ∧ Trimmed (typeName t) ∧ typeNamed (typeName t) = some t := by
  intro t
  cases t <;> decide

/-- A scalar type has the name of no container. -/
theorem typeName_not_container : ∀ t : ScalarType,
    decide (typeName t ∈ ["std::array".toList, "const std::array".toList]) = false ∧
      decide (typeName t ∈ ["std::vector".toList, "const std::vector".toList]) = false ∧
      decide (typeName t ∈ ["std::string".toList, "const std::string".toList]) = false := by
  intro t
  cases t <;> decide

theorem spells_container {c s : List Char} {ts : List (List Char)} (hsimple : Simple c)
    (htrim : Trimmed c) (h : Spells (c :: ['<'] :: ts) s) :
    ∃ front rest, '<' ∉ front ∧ strip front = c ∧ Spells ts rest ∧ s = front ++ '<' :: rest := by
  obtain ⟨b, r, hb, hr, rfl⟩ := h.cons_inv
  obtain ⟨d, rest, hd, hrest, rfl⟩ := hr.cons_inv
  refine ⟨b ++ c ++ d, rest, (Simple.between hb hsimple hd).notMem.1, strip_between htrim hb hd,
    hrest, ?_⟩
  simp only [List.append_assoc, List.cons_append, List.nil_append]

namespace Declares

variable {value : List Char → Option Nat} {s : List Char} {t : ScalarType} {n : Nat}

theorem scalar_strip (h : Declares value s (.scalar t)) : strip s = typeName t ∧ Simple s := by
  cases h with
  | scalar _ hs =>
      obtain ⟨hsimple, htrim, -⟩ := typeName_spec t
      obtain ⟨b, c, hb, hc, rfl⟩ := hs.singleton_inv
      exact ⟨strip_between htrim hb hc, .between hb hsimple hc⟩

theorem scalar_not_container (h : Declares value s (.scalar t)) :
    isStdArray s = false ∧ isStdVector s = false ∧ isStdString s = false := by
  obtain ⟨hstrip, hsimple⟩ := h.scalar_strip
  rw [isStdArray, isStdVector, isStdString, containerType_of_notMem hsimple.notMem.1, hstrip]
  exact typeName_not_container t

/-- The text of an array, and its parameters. -/
theorem array_spec (h : Declares value s (.array t n)) :
    isStdArray s = true ∧ ∃ N, Simple N ∧ Trimmed N ∧ value N = some n ∧
      getStdArrayParams s = .ok ⟨typeName t, N⟩ := by
  cases h with
  | @array N _ _ hsimple htrim hvalue hs =>
      obtain ⟨front, rest, hfront, hname, hrest, rfl⟩ :=
        spells_container (by decide) (by decide) hs
      obtain ⟨htSimple, htTrim, -⟩ := typeName_spec t
      obtain ⟨b, _, hb, hcomma, rfl⟩ := hrest.cons_inv
      obtain ⟨c, _, hc, hsize, rfl⟩ := hcomma.cons_inv
      obtain ⟨d, _, hd, hclose, rfl⟩ := hsize.cons_inv
      obtain ⟨e, r, he, -, rfl⟩ := hclose.cons_inv
      refine ⟨?_, N, hsimple, htrim, hvalue, ?_⟩
      · rw [isStdArray, containerType_append hfront, hname]
        decide
      · have htext : b ++ typeName t ++ (c ++ [','] ++ (d ++ N ++ (e ++ ['>'] ++ r))) =
            (b ++ typeName t ++ c) ++ ',' :: (d ++ N ++ e ++ '>' :: r) := by
          simp only [List.append_assoc, List.cons_append, List.nil_append]
        have hcut : (d ++ N ++ e ++ '>' :: r).takeWhile isPlain = d ++ N ++ e := by
          rw [List.takeWhile_append_of_pos (Simple.between hd hsimple he),
            List.takeWhile_cons_of_neg (by decide), List.append_nil]
        rw [htext, getStdArrayParams_of_simple hfront (.between hb htSimple hc), hcut,
          strip_between htTrim hb hc, strip_between htrim hd he]

theorem vector_spec (h : Declares value s (.vector t)) :
    isStdArray s = false ∧ isStdVector s = true := by
  cases h with
  | vector _ hs =>
      obtain ⟨front, rest, hfront, hname, -, rfl⟩ := spells_container (by decide) (by decide) hs
      rw [isStdArray, isStdVector, containerType_append hfront, hname]
      decide

theorem string_spec (h : Declares value s .string) :
    isStdArray s = false ∧ isStdVector s = false ∧ isStdString s = true := by
  cases h with
  | string hs =>
      obtain ⟨b, c, hb, hc, rfl⟩ := hs.singleton_inv
      have hsimple : Simple (b ++ "std::string".toList ++ c) := .between hb (by decide) hc
      have hstrip : strip (b ++ "std::string".toList ++ c) = "std::string".toList :=
        strip_between (by decide) hb hc
      rw [isStdArray, isStdVector, isStdString, containerType_of_notMem hsimple.notMem.1, hstrip]
      decide

end Declares

def isDynamic : ArgType → Bool
  | .vector _ | .string => true
  | _ => false

theorem Declares.isDynamic_eq {value : List Char → Option Nat} {s : List Char} {ty : ArgType}
    (h : Declares value s ty) : (isStdVector s || isStdString s) = isDynamic ty := by
  cases ty with
  | scalar t =>
      obtain ⟨-, hvector, hstring⟩ := h.scalar_not_container
      rw [hvector, hstring]
      rfl
  | array t n =>
      rw [not_vector_of_array h.array_spec.1, not_string_of_array h.array_spec.1]
      rfl
  | vector t =>
      rw [h.vector_spec.2]
      rfl
  | string =>
      rw [h.string_spec.2.1, h.string_spec.2.2]
      rfl

theorem exists_dynamic_iff {value : List Char → Option Nat} {args : List Argument}
    {types : Signature} (h : List.Forall₂ (fun a ty => Declares value a.type ty) args types) :
    (∃ a ∈ args, (isStdVector a.type || isStdString a.type) = true) ↔
      ∃ ty ∈ types, isDynamic ty = true := by
  induction h with
  | nil => simp
  | cons ha _ ih => rw [List.exists_mem_cons_iff, List.exists_mem_cons_iff, ih, ha.isDynamic_eq]

/-! ## The packs and their arguments -/

inductive ReadsPack (value : List Char → Option Nat) : Pack → Wire.Pack → Prop where
  | scalar {args : List Argument} {ts : List ScalarType}
      (h : List.Forall₂ (fun a t => Declares value a.type (.scalar t)) args ts) :
      ReadsPack value (.scalar args) (.scalar ts)
  | array {a : Argument} {t : ScalarType} {n : Nat} (h : Declares value a.type (.array t n)) :
      ReadsPack value (.array a) (.array t n)
  | vector {a : Argument} {t : ScalarType} (h : Declares value a.type (.vector t)) :
      ReadsPack value (.vector a) (.vector t)
  | string {a : Argument} (h : Declares value a.type .string) : ReadsPack value (.string a) .string

structure ReadsState (value : List Char → Option Nat) (st : PackState) (st' : Wire.PackState) :
    Prop where
  packs : List.Forall₂ (ReadsPack value) st.packs st'.packs
  argsList : List.Forall₂ (fun a t => Declares value a.type (.scalar t)) st.argsList st'.argsList
  hasVector : st.hasVector = st'.hasVector

namespace ReadsState

variable {value : List Char → Option Nat} {st : PackState} {st' : Wire.PackState}

theorem flush (h : ReadsState value st st') : ReadsState value st.flush st'.flush := by
  have hlen := h.argsList.length_eq
  unfold PackState.flush Wire.PackState.flush
  split
  case isTrue hpos =>
    rw [if_pos (hlen ▸ hpos)]
    exact ⟨List.rel_append h.packs (.cons (.scalar h.argsList) .nil), .nil, h.hasVector⟩
  case isFalse hpos =>
    rw [if_neg (hlen ▸ hpos)]
    exact h

theorem push (h : ReadsState value st st') {p : Pack} {p' : Wire.Pack} (hp : ReadsPack value p p') :
    ReadsState value (st.push p) { st' with packs := st'.packs ++ [p'] } :=
  ⟨List.rel_append h.packs (.cons hp .nil), h.argsList, h.hasVector⟩

theorem marked (h : ReadsState value st st') :
    ReadsState value { st with hasVector := true } { st' with hasVector := true } :=
  ⟨h.packs, h.argsList, rfl⟩

/-- A round does the same on the texts and on the types. -/
theorem packArgument (h : ReadsState value st st') {a : Argument} {ty : ArgType}
    (ha : Declares value a.type ty) :
    ReadsState value (Devgen.packArgument st a) (packArg st' ty) := by
  unfold Devgen.packArgument
  cases ty with
  | scalar t =>
      obtain ⟨harray, hvector, hstring⟩ := ha.scalar_not_container
      rw [harray, hvector, hstring]
      exact ⟨h.packs, List.rel_append h.argsList (.cons ha .nil), h.hasVector⟩
  | array t n =>
      rw [ha.array_spec.1]
      exact h.flush.push (.array ha)
  | vector t =>
      obtain ⟨harray, hvector⟩ := ha.vector_spec
      rw [harray, hvector]
      exact h.marked.flush.push (.vector ha)
  | string =>
      obtain ⟨harray, hvector, hstring⟩ := ha.string_spec
      rw [harray, hvector, hstring]
      exact h.marked.flush.push (.string ha)

end ReadsState

/-- The packs of an argument list are those of its types. -/
theorem buildArgsPacks_reads {value : List Char → Option Nat} {args : List Argument}
    {types : Signature} (h : List.Forall₂ (fun a ty => Declares value a.type ty) args types) :
    List.Forall₂ (ReadsPack value) (buildArgsPacks args).1 (Wire.buildArgsPacks types).1 ∧
      (buildArgsPacks args).2 = (Wire.buildArgsPacks types).2 := by
  have hrun : ∀ (st : PackState) (st' : Wire.PackState), ReadsState value st st' →
      ReadsState value (args.foldl packArgument st) (types.foldl packArg st') := by
    induction h with
    | nil =>
        intro st st' hst
        exact hst
    | cons ha _ ih =>
        intro st st' hst
        exact ih _ _ (hst.packArgument ha)
  have hend := (hrun ⟨[], [], false⟩ ⟨[], [], false⟩ ⟨.nil, .nil, rfl⟩).flush
  exact ⟨hend.packs, hend.hasVector⟩

/-! ## The printed constant -/

/-- The commas of a type list stand between its types. -/
theorem printTypeListPack_eq (args : List Argument) :
    printTypeListPack args = ", ".toList.intercalate (args.map Argument.type) := by
  have hrun : ∀ (args : List Argument) (k count : Nat), count = k + args.length →
      (args.zipIdx k).flatMap (fun a =>
        if a.2 < count - 1 then a.1.type ++ ", ".toList else a.1.type) =
      ", ".toList.intercalate (args.map Argument.type) := by
    intro args
    induction args with
    | nil =>
        intro k count _
        rfl
    | cons a args ih =>
        intro k count hcount
        rw [List.zipIdx_cons, List.flatMap_cons]
        cases args with
        | nil =>
            have hlast : ¬k < count - 1 := by
              rw [hcount, List.length_singleton]
              omega
            rw [if_neg hlast]
            simp
        | cons b args =>
            have hnext : k < count - 1 := by
              rw [hcount, List.length_cons, List.length_cons]
              omega
            rw [if_pos hnext, ih (k + 1) count (by rw [hcount, List.length_cons]; omega),
              List.map_cons, List.map_cons, List.map_cons, List.intercalate_cons_cons]
  exact hrun args 0 args.length (Nat.zero_add _).symm

theorem mapM_typeNamed {value : List Char → Option Nat} {args : List Argument}
    {ts : List ScalarType}
    (h : List.Forall₂ (fun a t => Declares value a.type (.scalar t)) args ts) (hne : args ≠ [])
    {b : List Char} (hb : Blank b) :
    ((b ++ ", ".toList.intercalate (args.map Argument.type)).splitOn ',').mapM typeNamed =
      some ts := by
  have hnamed : ∀ {a : Argument} {t : ScalarType} {b : List Char}, Blank b →
      Declares value a.type (.scalar t) → typeNamed (b ++ a.type) = some t ∧ ',' ∉ b ++ a.type := by
    intro a t b hb ha
    obtain ⟨hstrip, hsimple⟩ := ha.scalar_strip
    obtain ⟨-, htrim, hname⟩ := typeName_spec t
    refine ⟨?_, ((Simple.of_blank hb).append hsimple).notMem.2.2⟩
    rw [typeNamed, htrim] at hname
    rw [typeNamed, strip_append_left hb, hstrip, hname]
  induction h generalizing b with
  | nil => exact absurd rfl hne
  | @cons a t args ts ha hrest ih =>
      obtain ⟨hfirst, hcomma⟩ := hnamed hb ha
      cases hrest with
      | nil =>
          rw [List.map_singleton, List.intercalate_singleton, List.splitOn_eq_singleton hcomma]
          simp [hfirst]
      | @cons a' t' args ts ha' hrest =>
          have hmore := ih (by simp) (b := [' ']) (by decide)
          have hsplit : b ++ (a.type ++ ", ".toList ++
              ", ".toList.intercalate (a'.type :: args.map Argument.type)) =
              (b ++ a.type) ++ ',' :: ([' '] ++
                ", ".toList.intercalate ((a' :: args).map Argument.type)) := by
            have hsep : ", ".toList = [',', ' '] := by decide
            rw [hsep]
            simp only [List.append_assoc, List.cons_append, List.nil_append, List.map_cons]
          rw [List.map_cons, List.map_cons, List.intercalate_cons_cons, hsplit,
            List.splitOn_append_cons_self_of_not_mem hcomma, List.mapM_cons, hfirst, hmore]
          rfl

def ReadsTerm (value : List Char → Option Nat) (term : List Char) (n : Nat) : Prop :=
  ∀ b rest, Blank b → readTerm value (b ++ (term ++ rest)) = some (n, rest)

theorem readTerm_parts (value : List Char → Option Nat) {b name params : List Char} (hb : Blank b)
    (hsimple : Simple name) (htrim : Trimmed name) (hclose : '>' ∉ params) (rest : List Char) :
    readTerm value (b ++ (name ++ '<' :: (params ++ '>' :: rest))) =
      termValue value name (params.splitOn ',') rest := by
  have hopen : '<' ∉ b ++ name := ((Simple.of_blank hb).append hsimple).notMem.1
  have htext : b ++ (name ++ '<' :: (params ++ '>' :: rest)) =
      (b ++ name) ++ '<' :: (params ++ '>' :: rest) := (List.append_assoc ..).symm
  have hbehind : ∀ {c : Char} {s : List Char} (r : List Char), c ∉ s →
    behind c (s ++ c :: r) = r := by
    intro c s r hnot
    have hpass : ∀ d ∈ s, decide (d ≠ c) = true := fun d hd =>
      decide_eq_true fun heq => hnot (heq ▸ hd)
    rw [behind, List.dropWhile_append_of_pos hpass, List.dropWhile_cons_of_neg (by simp)]
    rfl
  rw [readTerm, htext, takeWhile_ne_append hopen, hbehind _ hopen, takeWhile_ne_append hclose,
    hbehind _ hclose, strip_append_left hb, htrim]

theorem notMem_intercalate {value : List Char → Option Nat} {args : List Argument}
    {ts : List ScalarType}
    (h : List.Forall₂ (fun a t => Declares value a.type (.scalar t)) args ts) :
    '>' ∉ ", ".toList.intercalate (args.map Argument.type) := by
  induction h with
  | nil => decide
  | @cons a _ args _ ha hrest ih =>
      have hfirst := ha.scalar_strip.2.notMem.2.1
      cases args with
      | nil =>
          rw [List.map_singleton, List.intercalate_singleton]
          exact hfirst
      | cons b args =>
          have hsep : '>' ∉ ", ".toList := by decide
          rw [List.map_cons, List.map_cons, List.intercalate_cons_cons]
          simp only [List.mem_append, not_or]
          exact ⟨⟨hfirst, hsep⟩, ih⟩

def lineStart (idx : Nat) : List Char :=
  if idx = 0 then [] else "                                     + ".toList

def lineEnd (count idx : Nat) : List Char :=
  if idx < count - 1 then "\n".toList else ";\n".toList

theorem printPack_scalar {value : List Char → Option Nat} {args : List Argument}
    {ts : List ScalarType}
    (h : List.Forall₂ (fun a t => Declares value a.type (.scalar t)) args ts) (hne : args ≠ []) :
    ∃ term, ReadsTerm value term (requiredBufferSize ts) ∧ ∀ count idx,
      printPack count idx (.scalar args) =
        .ok (lineStart idx ++ (term ++ lineEnd count idx)) := by
  let params := ", ".toList.intercalate (args.map Argument.type)
  refine ⟨"required_buffer_size".toList ++ '<' :: (params ++ '>' :: "()".toList), ?_, ?_⟩
  · intro b rest hb
    have htext : "required_buffer_size".toList ++ '<' :: (params ++ '>' :: "()".toList) ++ rest =
        "required_buffer_size".toList ++ '<' :: (params ++ '>' :: ("()".toList ++ rest)) := by
      simp only [List.append_assoc, List.cons_append]
    have hcall : "()".toList.isPrefixOf ("()".toList ++ rest) = true :=
      List.isPrefixOf_iff_prefix.mpr (List.prefix_append _ _)
    have hread : (params.splitOn ',').mapM typeNamed = some ts := mapM_typeNamed h hne blank_nil
    rw [htext, readTerm_parts value hb (by decide) (by decide) (notMem_intercalate h)]
    unfold termValue
    rw [if_pos rfl, if_pos hcall, hread]
    rfl
  · intro count idx
    have hfirst : "required_buffer_size<".toList = "required_buffer_size".toList ++
      ['<'] := by decide
    have hnext : "                                     + required_buffer_size<".toList =
        "                                     + ".toList ++
          "required_buffer_size<".toList := by decide
    have hend : ">()\n".toList = '>' :: "()".toList ++ "\n".toList := by decide
    have hlast : ">();\n".toList = '>' :: "()".toList ++ ";\n".toList := by decide
    rw [printPack, printTypeListPack_eq, lineStart, lineEnd, hnext, hend, hlast, hfirst]
    split_ifs <;> simp only [params, List.append_assoc, List.cons_append, List.nil_append]

theorem printPack_array {value : List Char → Option Nat} {a : Argument} {t : ScalarType} {n : Nat}
    (h : Declares value a.type (.array t n)) :
    ∃ term, ReadsTerm value term (t.sizeOfArray n) ∧ ∀ count idx,
      printPack count idx (.array a) = .ok (lineStart idx ++ (term ++ lineEnd count idx)) := by
  obtain ⟨-, N, hsimple, htrim, hvalue, hparams⟩ := h.array_spec
  obtain ⟨hname, htrimName, hnamed⟩ := typeName_spec t
  let params := typeName t ++ ',' :: ' ' :: N
  have hclose : '>' ∉ params := by
    have hspace : '>' ∉ [',', ' '] := by decide
    have hsplit : params = typeName t ++ ([',', ' '] ++ N) := rfl
    rw [hsplit]
    simp only [List.mem_append, not_or]
    exact ⟨hname.notMem.2.1, hspace, hsimple.notMem.2.1⟩
  refine ⟨"size_of".toList ++ '<' :: (params ++ '>' :: []), ?_, ?_⟩
  · intro b rest hb
    have htext : "size_of".toList ++ '<' :: (params ++ '>' :: []) ++ rest =
        "size_of".toList ++ '<' :: (params ++ '>' :: rest) := by
      simp only [List.append_assoc, List.cons_append, List.nil_append]
    have hcomma : ',' ∉ ' ' :: N := by
      simp only [List.mem_cons, not_or]
      exact ⟨by decide, hsimple.notMem.2.2⟩
    have hpieces : params.splitOn ',' = [typeName t, ' ' :: N] := by
      rw [List.splitOn_append_cons_self_of_not_mem hname.notMem.2.2,
        List.splitOn_eq_singleton hcomma]
    have hstrip : strip (' ' :: N) = N := by
      rw [← List.singleton_append, strip_append_left (by decide), htrim]
    rw [htext, readTerm_parts value hb (by decide) (by decide) hclose, hpieces]
    simp only [termValue, hnamed, hstrip, hvalue, Option.bind_some, Option.map_some]
    rfl
  · intro count idx
    have hfirst : "size_of<".toList = "size_of".toList ++ ['<'] := by decide
    have hnext : "                                     + size_of<".toList =
        "                                     + ".toList ++ "size_of<".toList := by decide
    have hsep : ", ".toList = [',', ' '] := by decide
    have hopen : ">".toList = ['>'] := by decide
    rw [printPack, hparams, lineStart, lineEnd, hnext, hsep, hopen, hfirst]
    simp only [bind, Except.bind, pure, Except.pure, Except.ok.injEq]
    split_ifs <;> simp only [params, List.append_assoc, List.cons_append, List.nil_append]

theorem printPack_reads {value : List Char → Option Nat} {p : Pack} {w : Wire.Pack}
    (h : ReadsPack value p w) (hfixed : (∃ ts, w = .scalar ts) ∨ ∃ t n, w = .array t n)
    (hne : w ≠ .scalar []) :
    ∃ term, ReadsTerm value term (reqBuffSize [w]) ∧
      ∀ count idx, printPack count idx p = .ok (lineStart idx ++ (term ++ lineEnd count idx)) := by
  cases h with
  | @scalar args ts hargs =>
      have hargsNe : args ≠ [] := by
        rintro rfl
        cases hargs
        exact hne rfl
      exact printPack_scalar hargs hargsNe
  | array ha => exact printPack_array ha
  | vector _ =>
      rcases hfixed with ⟨_, hw⟩ | ⟨_, _, hw⟩
      · cases hw
      · cases hw
  | string _ =>
      rcases hfixed with ⟨_, hw⟩ | ⟨_, _, hw⟩
      · cases hw
      · cases hw

theorem reqBuffSize_cons (w : Wire.Pack) (ws : List Wire.Pack) :
    reqBuffSize (w :: ws) = reqBuffSize [w] + reqBuffSize ws := by
  cases w <;> simp [reqBuffSize]

theorem dropWhile_blank_append {b : List Char} (hb : Blank b) {c : Char} (hc : isBlank c = false)
    (s : List Char) : (b ++ c :: s).dropWhile isBlank = c :: s := by
  rw [List.dropWhile_append_of_pos hb, List.dropWhile_cons_of_neg (by simp [hc])]

theorem readSum_last {value : List Char → Option Nat} {term : List Char} {n : Nat}
    (hterm : ReadsTerm value term n) (fuel : Nat) {b : List Char} (hb : Blank b) :
    readSum value (fuel + 1) (b ++ (term ++ ";\n".toList)) = some n := by
  have hsemicolon : (";\n".toList).dropWhile isBlank = [';', '\n'] := by decide
  have hblank : Blank ['\n'] := by decide
  simp only [readSum, hterm b _ hb, Option.bind_some, hsemicolon, if_pos hblank]

theorem readSum_more {value : List Char → Option Nat} {term body : List Char} {n m fuel : Nat}
    (hterm : ReadsTerm value term n) (idx : Nat)
    (hrest : readSum value fuel ([' '] ++ body) = some m) {b : List Char} (hb : Blank b) :
    readSum value (fuel + 1) (b ++ (term ++ ("\n".toList ++ (lineStart (idx + 1) ++ body)))) =
      some (n + m) := by
  have hstart : lineStart (idx + 1) = "                                     ".toList ++
      '+' :: [' '] := by
    rw [lineStart, if_neg (Nat.succ_ne_zero idx)]
    decide
  have hplus : ("\n".toList ++ (lineStart (idx + 1) ++ body)).dropWhile isBlank =
      '+' :: ([' '] ++ body) := by
    rw [hstart, ← List.append_assoc, ← List.append_assoc, List.append_assoc]
    exact dropWhile_blank_append (by decide) (by decide) ([' '] ++ body)
  simp only [readSum, hterm b _ hb, Option.bind_some, hplus, hrest, Option.map_some]

/-- The lines from the pack `idx` on, behind the start of the first one, are read as the sum over
their packs. -/
theorem printPacks_reads {value : List Char → Option Nat} {p : Pack} {w : Wire.Pack}
    {packs : List Pack} {ws : List Wire.Pack} (h : ReadsPack value p w)
    (hrest : List.Forall₂ (ReadsPack value) packs ws)
    (hfixed : ∀ v ∈ w :: ws, (∃ ts, v = .scalar ts) ∨ ∃ t n, v = .array t n)
    (hne : ∀ v ∈ w :: ws, v ≠ .scalar []) (count idx : Nat)
    (hcount : count = idx + (packs.length + 1)) :
    ∃ lines body, ((p :: packs).zipIdx idx).mapM (fun pack => printPack count pack.2 pack.1) =
        .ok lines ∧
      lines.flatten = lineStart idx ++ body ∧ packs.length + 1 ≤ body.length ∧
      ∀ fuel b, packs.length + 1 ≤ fuel → Blank b →
        readSum value fuel (b ++ body) = some (reqBuffSize (w :: ws)) := by
  obtain ⟨term, hterm, hprint⟩ :=
    printPack_reads h (hfixed w List.mem_cons_self) (hne w List.mem_cons_self)
  induction hrest generalizing p w term idx with
  | nil =>
      have hend : lineEnd count idx = ";\n".toList := if_neg (by
        rw [hcount, List.length_nil]
        omega)
      refine ⟨[lineStart idx ++ (term ++ ";\n".toList)], term ++ ";\n".toList, ?_, ?_, ?_, ?_⟩
      · rw [List.zipIdx_singleton, List.mapM_cons, hprint, hend]
        rfl
      · rw [List.flatten_singleton]
      · rw [List.length_append, List.length_nil]
        exact Nat.le_add_left_of_le (by decide)
      · intro fuel b hfuel hb
        obtain ⟨fuel, rfl⟩ := Nat.exists_eq_add_of_le' hfuel
        exact readSum_last hterm _ hb
  | @cons q v packs ws hq hrest ih =>
      have hend : lineEnd count idx = "\n".toList := if_pos (by
        rw [hcount, List.length_cons]
        omega)
      obtain ⟨term', hterm', hprint'⟩ :=
        printPack_reads hq (hfixed v (by simp)) (hne v (by simp))
      obtain ⟨lines, body, hlines, hflatten, hlength, hread⟩ :=
        ih hq (fun u hu => hfixed u (List.mem_cons_of_mem w hu))
          (fun u hu => hne u (List.mem_cons_of_mem w hu)) (idx + 1)
          (by rw [hcount, List.length_cons]; omega) term' hterm' hprint'
      refine ⟨(lineStart idx ++ (term ++ "\n".toList)) :: lines,
        term ++ ("\n".toList ++ (lineStart (idx + 1) ++ body)), ?_, ?_, ?_, ?_⟩
      · rw [List.zipIdx_cons, List.mapM_cons, hprint, hend, hlines]
        rfl
      · rw [List.flatten_cons, hflatten]
        simp only [List.append_assoc]
      · have hline : 1 ≤ ("\n".toList).length := by decide
        simp only [List.length_append, List.length_cons]
        omega
      · intro fuel b hfuel hb
        rw [List.length_cons] at hfuel
        obtain ⟨fuel, rfl⟩ := Nat.exists_eq_add_of_le' ((Nat.le_add_left 1 _).trans hfuel)
        have hnext := hread fuel [' '] (by omega) (by decide)
        rw [reqBuffSize_cons w (v :: ws)]
        exact readSum_more hterm idx hnext hb

/-- The declaration that is printed for packs without a vector or string has their size. -/
theorem printReqBuffSize_reads {value : List Char → Option Nat} {packs : List Pack}
    {ws : List Wire.Pack} (h : List.Forall₂ (ReadsPack value) packs ws) (hsome : packs ≠ [])
    (hfixed : ∀ v ∈ ws, (∃ ts, v = .scalar ts) ∨ ∃ t n, v = .array t n)
    (hne : ∀ v ∈ ws, v ≠ .scalar []) :
    ∃ text, printReqBuffSize packs = .ok text ∧
    declaredSize value text = some (reqBuffSize ws) := by
  cases h with
  | nil => exact absurd rfl hsome
  | @cons p w packs ws hp hrest =>
      obtain ⟨lines, body, hlines, hflatten, hlength, hread⟩ :=
        printPacks_reads hp hrest hfixed hne (packs.length + 1) 0 (Nat.zero_add _).symm
      refine ⟨"    constexpr size_t req_buff_size = ".toList ++ body, ?_, ?_⟩
      · rw [printReqBuffSize, List.length_cons, hlines]
        have hbody : lines.flatten = body := hflatten
        rw [← hbody]
        rfl
      · have hprefix : "    constexpr size_t req_buff_size = ".toList.isPrefixOf
            ("    constexpr size_t req_buff_size = ".toList ++ body) = true :=
          List.isPrefixOf_iff_prefix.mpr (List.prefix_append _ _)
        rw [declaredSize, if_pos hprefix, List.drop_left]
        refine hread _ [] ?_ blank_nil
        rw [List.length_append]
        omega

/-! ## Sizes on the wire -/

/-- The bytes of an argument in a message, where its type fixes their number. -/
def wireSize : ArgType → Nat
  | .scalar t => t.sizeOf
  | .array t n => n * t.sizeOf
  | .vector _ | .string => 0

theorem wire_length (a : Arg) (h : isDynamic a.type = false) : a.wire.length = wireSize a.type := by
  cases a with
  | scalar t value => exact append_length t value
  | array t n bytes size => exact size
  | vector t bytes whole => cases h
  | string bytes => cases h

/-- The arguments of a signature of fixed size take as many bytes in every message. -/
theorem argsWire_length (args : List Arg) (h : ∀ a ∈ args, isDynamic a.type = false) :
    (argsWire args).length = (args.map fun a => wireSize a.type).sum := by
  induction args with
  | nil => rfl
  | cons a args ih =>
      rw [argsWire_cons, List.length_append, wire_length a (h a List.mem_cons_self),
        ih fun b hb => h b (List.mem_cons_of_mem a hb), List.map_cons, List.sum_cons]

/-- The size that stands for an argument in the constant. -/
def declaredBytes : ArgType → Nat
  | .scalar t => t.sizeOf
  | .array t n => t.sizeOfArray n
  | .vector _ | .string => 0

theorem requiredBufferSize_eq_sum (ts : List ScalarType) :
    requiredBufferSize ts = ((ts.map ArgType.scalar).map declaredBytes).sum := by
  induction ts with
  | nil => rfl
  | cons t ts ih =>
      rw [requiredBufferSize, ih, List.map_cons, List.map_cons, List.sum_cons]
      rfl

theorem reqBuffSize_eq_sum (ws : List Wire.Pack) :
    reqBuffSize ws = ((ws.flatMap Wire.Pack.types).map declaredBytes).sum := by
  induction ws with
  | nil => rfl
  | cons w ws ih =>
      have hpack : reqBuffSize [w] = (w.types.map declaredBytes).sum := by
        cases w with
        | scalar ts =>
            rw [reqBuffSize, reqBuffSize, Nat.add_zero, requiredBufferSize_eq_sum]
            rfl
        | array t n => rfl
        | vector t => rfl
        | string => rfl
      rw [reqBuffSize_cons, ih, hpack, List.flatMap_cons, List.map_append, List.sum_append]

theorem wireSize_le (ty : ArgType) : wireSize ty ≤ declaredBytes ty := by
  cases ty with
  | scalar t => exact Nat.le_refl _
  | array t n =>
      cases n with
      | zero =>
          have hzero : wireSize (.array t 0) = 0 := Nat.zero_mul _
          rw [hzero]
          exact Nat.zero_le _
      | succ n => exact Nat.le_of_eq (Nat.mul_comm _ _)
  | vector t => exact Nat.le_refl _
  | string => exact Nat.le_refl _

theorem wireSize_eq_iff (ty : ArgType) : declaredBytes ty = wireSize ty ↔ ∀ t, ty ≠ .array t 0 := by
  cases ty with
  | scalar t => simp [declaredBytes, wireSize]
  | array t n =>
      cases n with
      | zero =>
          have hpos := t.sizeOf_pos
          simp [declaredBytes, wireSize, ScalarType.sizeOfArray]
          omega
      | succ n => simp [declaredBytes, wireSize, ScalarType.sizeOfArray, Nat.mul_comm]
  | vector t => simp [declaredBytes, wireSize]
  | string => simp [declaredBytes, wireSize]

/-- The two sums are one exactly when no array has size 0. -/
theorem sum_wireSize_eq_iff (types : Signature) :
    (types.map declaredBytes).sum = (types.map wireSize).sum ↔ ∀ t, .array t 0 ∉ types := by
  have hle : ∀ types : Signature, (types.map wireSize).sum ≤ (types.map declaredBytes).sum := by
    intro types
    induction types with
    | nil => exact Nat.le_refl _
    | cons ty types ih =>
        simp only [List.map_cons, List.sum_cons]
        exact Nat.add_le_add (wireSize_le ty) ih
  induction types with
  | nil => simp
  | cons ty types ih =>
      have hfirst := wireSize_le ty
      have hrest := hle types
      have hswap : (∀ t, ¬ArgType.array t 0 = ty) ↔ declaredBytes ty = wireSize ty := by
        rw [wireSize_eq_iff]
        exact forall_congr' fun t => not_congr eq_comm
      have hboth : (∀ t, .array t 0 ∉ ty :: types) ↔ declaredBytes ty = wireSize ty ∧
          (types.map declaredBytes).sum = (types.map wireSize).sum := by
        simp only [List.mem_cons, not_or]
        exact forall_and.trans (and_congr hswap ih.symm)
      rw [hboth]
      simp only [List.map_cons, List.sum_cons]
      omega

/-! ## The whole property -/

/-- The declaration that is printed for the packs has a meaning, and its value is the number of
bytes of the arguments. -/
def SizeDeclared (value : List Char → Option Nat) (packs : List Pack) (types : Signature) : Prop :=
  ∃ text, printReqBuffSize packs = .ok text ∧
    declaredSize value text = some (types.map wireSize).sum

/-- The packs are a partition of every argument list. For types that have a size on the wire, the
declared size without a vector or string is that of the arguments: exactly when there is a vector or
string, or no array has size 0. -/
theorem argPacks_faithful_iff {args : List Argument} (hne : args ≠ []) :
    Partition args (buildArgsPacks args).1 (buildArgsPacks args).2 ∧
      ∀ (value : List Char → Option Nat) (types : Signature),
        List.Forall₂ (fun a ty => Declares value a.type ty) args types →
        (((buildArgsPacks args).2 = false → SizeDeclared value (buildArgsPacks args).1 types) ↔
          (∃ ty ∈ types, isDynamic ty = true) ∨ ∀ t, .array t 0 ∉ types) := by
  have hpartition := buildArgsPacks_partition args
  refine ⟨hpartition, ?_⟩
  intro value types h
  obtain ⟨hpacks, hflag⟩ := buildArgsPacks_reads h
  have hdynamic : (buildArgsPacks args).2 = true ↔ ∃ ty ∈ types, isDynamic ty = true := by
    rw [hpartition.hasVector]
    exact exists_dynamic_iff h
  have hsome : (buildArgsPacks args).1 ≠ [] := by
    intro hnil
    have hflatten := hpartition.flatten
    rw [hnil] at hflatten
    exact hne hflatten.symm
  cases hvector : (buildArgsPacks args).2 with
  | true => exact iff_of_true (fun hfalse => absurd hfalse (by decide)) (.inl (hdynamic.mp hvector))
  | false =>
      have hnone : ¬∃ ty ∈ types, isDynamic ty = true := by
        rw [← hdynamic, hvector]
        decide
      have hfixed := pack_of_not_hasVector (hflag ▸ hvector)
      obtain ⟨text, htext, hsize⟩ := printReqBuffSize_reads hpacks hsome hfixed
        (buildArgsPacks_nonempty types)
      rw [reqBuffSize_eq_sum, buildArgsPacks_types] at hsize
      rw [← sum_wireSize_eq_iff, or_iff_right hnone]
      constructor
      · intro hdeclared
        obtain ⟨text', htext', hsize'⟩ := hdeclared rfl
        rw [htext] at htext'
        obtain rfl := Except.ok.inj htext'
        rw [hsize] at hsize'
        exact Option.some.inj hsize'
      · intro heq _
        exact ⟨text, htext, heq ▸ hsize⟩

def sampleValue (s : List Char) : Option Nat :=
  if s = "10".toList then some 10 else if s = "0".toList then some 0 else none

def byValue (name type : List Char) : Argument := ⟨name, type, false, false⟩

theorem spells_name (t : ScalarType) : Spells [typeName t] (typeName t) := by
  have hspells : Spells [typeName t] ([] ++ typeName t ++ []) :=
    .cons blank_nil (.nil blank_nil) (by simp [RunsTogether])
  rwa [List.nil_append, List.append_nil] at hspells

/-- The size for `uint32_t u, std::array<float, 10> arr, double d` is that of the message. -/
theorem argPacks_faithful_sample :
    let args := [byValue "u".toList "uint32_t".toList,
      byValue "arr".toList "std::array<float, 10>".toList, byValue "d".toList "double".toList]
    Partition args (buildArgsPacks args).1 (buildArgsPacks args).2 ∧
      ((buildArgsPacks args).2 = false → SizeDeclared sampleValue (buildArgsPacks args).1
        [.scalar .uint32, .array .float 10, .scalar .double]) := by
  intro args
  have harray : Spells ["std::array".toList, ['<'], "float".toList, [','], "10".toList, ['>']]
      "std::array<float, 10>".toList :=
    .cons (b := []) blank_nil (.cons (b := []) blank_nil (.cons (b := []) blank_nil
      (.cons (b := []) blank_nil (.cons (b := [' ']) (by decide) (.cons (b := []) blank_nil
        (.nil blank_nil) (by decide)) (by decide)) (by decide)) (by decide)) (by decide)) (by decide)
  have hne : args ≠ [] := by simp [args]
  have htypes : List.Forall₂ (fun a ty => Declares sampleValue a.type ty) args
      [.scalar .uint32, .array .float 10, .scalar .double] :=
    .cons (.scalar .uint32 (spells_name .uint32))
      (.cons (.array .float (by decide) (by decide) (by decide) harray)
        (.cons (.scalar .double (spells_name .double)) .nil))
  have hnot_empty : ∀ t, ArgType.array t 0 ∉
      [ArgType.scalar .uint32, .array .float 10, .scalar .double] := by
    intro t
    cases t <;> decide
  obtain ⟨hpartition, hsize⟩ := argPacks_faithful_iff hne
  exact ⟨hpartition, (hsize sampleValue _ htypes).mpr (.inr hnot_empty)⟩

/-- A `std::array<uint32_t, 0>` has no byte in a message, and four in the constant. -/
theorem emptyArray_overcounted :
    let args := [byValue "arr".toList "std::array<uint32_t, 0>".toList]
    printReqBuffSize (buildArgsPacks args).1 =
        .ok "    constexpr size_t req_buff_size = size_of<uint32_t, 0>;\n".toList ∧
      declaredSize sampleValue
        "    constexpr size_t req_buff_size = size_of<uint32_t, 0>;\n".toList = some 4 ∧
      (buildArgsPacks args).2 = false ∧
      ¬SizeDeclared sampleValue (buildArgsPacks args).1 [.array .uint32 0] := by
  refine ⟨rfl, by decide, rfl, ?_⟩
  rintro ⟨text, htext, hsize⟩
  obtain rfl : "    constexpr size_t req_buff_size = size_of<uint32_t, 0>;\n".toList = text :=
    Except.ok.inj htext
  exact absurd hsize (by decide)

end KoheronServer.Devgen
