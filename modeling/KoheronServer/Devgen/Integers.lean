import KoheronServer.Foundation.Expressions
import KoheronServer.Devgen.Header

/-!
# Platform dependent integers

The types of a signature with the texts that spell them, and the operations that devgen accepts
with an integer of no exact width somewhere in them. Only a type that is such an integer in one of
thirteen spellings is refused, for an argument also under one `const` in front and one reference.
-/

namespace KoheronServer.Devgen

open Foundation

/-! ## Types -/

/-- A word of the name of an integer type; a `const` may stand among them. -/
inductive IntWord where
  | short
  | int
  | long
  | signed
  | unsigned
  | const
  deriving DecidableEq

def IntWord.text : IntWord → List Char
  | short => "short".toList
  | int => "int".toList
  | long => "long".toList
  | signed => "signed".toList
  | unsigned => "unsigned".toList
  | const => "const".toList

/-- The words, in any order, name an integer type. -/
structure NamesInteger (words : List IntWord) : Prop where
  some_word : ∃ w ∈ words, w ≠ .const
  int : words.count .int ≤ 1
  sign : words.count .signed + words.count .unsigned ≤ 1
  short : words.count .short ≤ 1
  long : words.count .long ≤ 2
  length : words.count .short = 0 ∨ words.count .long = 0

instance (words : List IntWord) : Decidable (NamesInteger words) :=
  decidable_of_iff
    ((∃ w ∈ words, w ≠ .const) ∧ words.count .int ≤ 1 ∧
      words.count .signed + words.count .unsigned ≤ 1 ∧ words.count .short ≤ 1 ∧
      words.count .long ≤ 2 ∧ (words.count .short = 0 ∨ words.count .long = 0))
    ⟨fun h => ⟨h.1, h.2.1, h.2.2.1, h.2.2.2.1, h.2.2.2.2.1, h.2.2.2.2.2⟩,
      fun h => ⟨h.some_word, h.int, h.sign, h.short, h.long, h.length⟩⟩

/-- The class templates whose parameters are looked into. -/
def containerNames : List (List Char) :=
  ["std::vector".toList, "std::array".toList, "std::tuple".toList]

/-- A type that is no integer without exact width, no container, and neither `const` nor a
reference. -/
structure OtherType where
  tokens : List (List Char)
  not_integer : ∃ t ∈ tokens,
    t ∉ [IntWord.short, .int, .long, .signed, .unsigned, .const].map IntWord.text
  not_container : ∀ t ∈ tokens.head?, t ∉ "const".toList :: containerNames
  not_wrapped : ∀ t ∈ tokens.getLast?, t ∉ ["const".toList, "&".toList, "&&".toList]

/-- The type of an argument or the return type of a method. A `derived` type is a pointer to another
one, an array of it, or a member of it. -/
inductive CType where
  | integer (words : List IntWord) (names : NamesInteger words)
  | other (t : OtherType)
  | const (t : CType)
  | constAfter (t : CType)
  | reference (t : CType)
  | rvalueReference (t : CType)
  | derived (t : CType) (rest : List (List Char))
      (pointer : rest.head?.any (· ∈ ["*".toList, "::".toList, "[".toList, "(".toList]) = true)
  | vector (t : CType) (allocator : List CType)
  | array (t : CType) (size : Expression)
  | tuple (ts : List CType)

namespace CType

mutual

def tokens : CType → List (List Char)
  | integer words _ => words.map IntWord.text
  | other t => t.tokens
  | const t => "const".toList :: tokens t
  | constAfter t => tokens t ++ ["const".toList]
  | reference t => tokens t ++ ["&".toList]
  | rvalueReference t => tokens t ++ ["&&".toList]
  | derived t rest _ => tokens t ++ rest
  | vector t allocator =>
      "std::vector".toList :: "<".toList :: (tokens t ++ restTokens allocator ++ [">".toList])
  | array t size =>
      "std::array".toList :: "<".toList :: (tokens t ++ ",".toList :: (size.tokens ++ [">".toList]))
  | tuple ts => "std::tuple".toList :: "<".toList :: (argTokens ts ++ [">".toList])

def restTokens : List CType → List (List Char)
  | [] => []
  | t :: ts => ",".toList :: (tokens t ++ restTokens ts)

def argTokens : List CType → List (List Char)
  | [] => []
  | t :: ts => tokens t ++ restTokens ts

end

mutual

/-- An integer without exact width is the type, stands under its `const`s and references, or is an
element of a container there. -/
def hasInteger : CType → Bool
  | integer _ _ => true
  | other _ => false
  | const t => hasInteger t
  | constAfter t => hasInteger t
  | reference t => hasInteger t
  | rvalueReference t => hasInteger t
  | derived _ _ _ => false
  | vector t _ => hasInteger t
  | array t _ => hasInteger t
  | tuple ts => anyInteger ts

def anyInteger : List CType → Bool
  | [] => false
  | t :: ts => hasInteger t || anyInteger ts

end

end CType

/-- A method with the types that its texts spell. -/
structure TypedMethod extends Method where
  retType : CType
  paramTypes : List CType
  spells_ret : Spells retType.tokens rtnType
  spells_params : List.Forall₂ (fun t p => Spells t.tokens p.type) paramTypes parameters

/-- An integer without exact width occurs in the signature. -/
def TypedMethod.HasInteger (m : TypedMethod) : Prop :=
  m.retType.hasInteger = true ∨ ∃ t ∈ m.paramTypes, t.hasInteger = true

/-! ## Listed spellings -/

/-- One of the listed spellings, perhaps behind a `const`. -/
inductive ListedConst : List Char → Prop where
  | plain {s : List Char} (hs : s ∈ forbiddenInts) : ListedConst s
  | const {b s : List Char} (hb : Blank b) (hs : s ∈ forbiddenInts) :
      ListedConst ("const".toList ++ (b ++ s))

/-- A listed spelling in the text of an argument: between white space, perhaps behind a `const` and
in front of an `&` with the character before it. -/
inductive ListedArgument : List Char → Prop where
  | value {b s c : List Char} (hb : Blank b) (hs : ListedConst s) (hc : Blank c) :
      ListedArgument (b ++ s ++ c)
  | reference {b s c d : List Char} (hb : Blank b) (hs : ListedConst s) (hc : Blank c) (x : Char)
      (hd : Blank d) : ListedArgument (b ++ (s ++ c ++ [x, '&']) ++ d)

/-- `type[5:]` behind a leading `const`, without white space. -/
def dropConst (type : List Char) : List Char :=
  if "const".toList.isPrefixOf type then strip (type.drop 5) else type

/-- `type[:-2]` in front of a trailing `&`, without white space. -/
def dropReference (type : List Char) : List Char :=
  if type.getLast? = some '&' then strip (type.rdrop 2) else type

theorem parseArgument_type (param : Parameter) :
    (parseArgument param).type = dropConst (dropReference (strip param.type)) := rfl

/-- A listed spelling begins with a letter and ends with one, and has no `const` in front. -/
theorem forbiddenInts_spec : ∀ s ∈ forbiddenInts,
    s.head?.any (fun c => !isBlank c) = true ∧
      s.getLast?.any (fun c => !isBlank c && c ≠ '&') = true ∧
      "const".toList.isPrefixOf s = false := by
  decide

theorem ListedConst.ends {s : List Char} (h : ListedConst s) :
    s.head?.any (fun c => !isBlank c) = true ∧
      s.getLast?.any (fun c => !isBlank c && c ≠ '&') = true := by
  cases h with
  | plain hs => exact ⟨(forbiddenInts_spec s hs).1, (forbiddenInts_spec s hs).2.1⟩
  | @const b s hb hs =>
      have hlast := (forbiddenInts_spec s hs).2.1
      have hne : s ≠ [] := by
        rintro rfl
        cases hlast
      refine ⟨rfl, ?_⟩
      rw [List.getLast?_append_of_ne_nil _ (by simp [hne]), List.getLast?_append_of_ne_nil _ hne]
      exact hlast

theorem ListedConst.trimmed {s : List Char} (h : ListedConst s) : Trimmed s := by
  refine trimmed_of_ends ?_ ?_
  · intro c hc
    have hhead := h.ends.1
    rw [hc] at hhead
    simpa using hhead
  · intro c hc
    have hlast := h.ends.2
    rw [hc] at hlast
    simp only [Option.any_some, Bool.and_eq_true, Bool.not_eq_true'] at hlast
    exact hlast.1

theorem ListedConst.dropReference {s : List Char} (h : ListedConst s) : dropReference s = s := by
  refine if_neg fun hlast => ?_
  have hnot := h.ends.2
  rw [hlast] at hnot
  exact absurd hnot (by decide)

theorem ListedConst.dropConst_mem {s : List Char} (h : ListedConst s) :
    dropConst s ∈ forbiddenInts := by
  have htrim := h.trimmed
  cases h with
  | plain hs =>
      rw [dropConst, (forbiddenInts_spec s hs).2.2]
      exact hs
  | @const b s hb hs =>
      have hdrop : ("const".toList ++ (b ++ s)).drop 5 = b ++ s := rfl
      have hstart : "const".toList.isPrefixOf ("const".toList ++ (b ++ s)) = true :=
        List.isPrefixOf_iff_prefix.mpr (List.prefix_append _ _)
      rw [dropConst, if_pos hstart, hdrop, strip_append_left hb, (ListedConst.plain hs).trimmed]
      exact hs

theorem listedConst_of_dropConst {type : List Char} (h : dropConst type ∈ forbiddenInts) :
    ∃ s c, ListedConst s ∧ Blank c ∧ type = s ++ c := by
  unfold dropConst at h
  split at h
  case isTrue hstart =>
    obtain ⟨rest, rfl⟩ := List.isPrefixOf_iff_prefix.mp hstart
    have hdrop : ("const".toList ++ rest).drop 5 = rest := rfl
    rw [hdrop] at h
    obtain ⟨b, c, hb, hc, hrest⟩ := exists_strip_append rest
    refine ⟨"const".toList ++ (b ++ strip rest), c, .const hb h, hc, ?_⟩
    rw [List.append_assoc, ← hrest]
  case isFalse => exact ⟨type, [], .plain h, blank_nil, (List.append_nil type).symm⟩

theorem rdrop_two_append {type : List Char} (hlast : type.getLast? = some '&')
    (hne : type.rdrop 2 ≠ []) : ∃ x, type = type.rdrop 2 ++ [x, '&'] := by
  obtain ⟨front, rfl⟩ := List.getLast?_eq_some_iff.mp hlast
  rw [List.rdrop_concat_succ] at hne ⊢
  rcases front.eq_nil_or_concat with rfl | ⟨front, x, rfl⟩
  · exact absurd rfl hne
  · rw [List.concat_eq_append, List.rdrop_concat_succ, List.rdrop_zero]
    exact ⟨x, by simp⟩

/-- A listed spelling in front of the two characters that `type[:-2]` drops. -/
theorem ListedConst.dropReference_append {s c : List Char} (hs : ListedConst s) (hc : Blank c)
    (x : Char) :
    Trimmed (s ++ c ++ [x, '&']) ∧ Devgen.dropReference (s ++ c ++ [x, '&']) = s := by
  have hlast : (s ++ c ++ [x, '&']).getLast? = some '&' := by
    rw [List.getLast?_append_of_ne_nil _ (by simp)]
    rfl
  have hdrop : (s ++ c ++ [x, '&']).rdrop 2 = s ++ c := by
    rw [List.append_cons, List.rdrop_concat_succ, List.rdrop_concat_succ, List.rdrop_zero]
  refine ⟨trimmed_of_ends ?_ ?_, ?_⟩
  · intro e he
    have hhead := hs.ends.1
    cases s with
    | nil => cases hhead
    | cons a s =>
        obtain rfl : a = e := Option.some.inj he
        simpa using hhead
  · intro e he
    rw [hlast] at he
    obtain rfl : '&' = e := Option.some.inj he
    rfl
  · rw [Devgen.dropReference, if_pos hlast, hdrop, strip_append_right hc, hs.trimmed]

theorem ListedArgument.dropped_mem {text : List Char} (h : ListedArgument text) :
    dropConst (dropReference (strip text)) ∈ forbiddenInts := by
  cases h with
  | value hb hs hc =>
      rw [strip_append_right hc, strip_append_left hb, hs.trimmed, hs.dropReference]
      exact hs.dropConst_mem
  | reference hb hs hc x hd =>
      obtain ⟨htrim, hdrop⟩ := hs.dropReference_append hc x
      rw [strip_append_right hd, strip_append_left hb, htrim, hdrop]
      exact hs.dropConst_mem

/-- What `dropReference` leaves of a text stands in front of white space, or of the reference with
the character before it. -/
theorem listedArgument_of_dropped_mem {text : List Char}
    (h : dropConst (dropReference (strip text)) ∈ forbiddenInts) : ListedArgument text := by
  obtain ⟨b, d, hb, hd, htype⟩ := exists_strip_append text
  generalize strip text = type at h htype
  rw [htype]
  unfold dropReference at h
  split at h
  case isTrue hlast =>
    obtain ⟨s, c, hs, hc, hsc⟩ := listedConst_of_dropConst h
    obtain ⟨b', c', hb', hc', hfront⟩ := exists_strip_append (type.rdrop 2)
    have hne : type.rdrop 2 ≠ [] := by
      intro hnil
      have hhead := hs.ends.1
      rw [hnil] at hsc
      have hempty := (List.append_eq_nil_iff.mp hsc.symm).1
      rw [hempty] at hhead
      cases hhead
    obtain ⟨x, hx⟩ := rdrop_two_append hlast hne
    have hall : b ++ type ++ d = (b ++ b') ++ (s ++ (c ++ c') ++ [x, '&']) ++ d := by
      rw [hx, hfront, hsc]
      simp only [List.append_assoc]
    rw [hall]
    exact .reference (hb.append hb') hs (hc.append hc') x hd
  case isFalse =>
    obtain ⟨s, c, hs, hc, rfl⟩ := listedConst_of_dropConst h
    have hall : b ++ (s ++ c) ++ d = b ++ s ++ (c ++ d) := by
      simp only [List.append_assoc]
    rw [hall]
    exact .value hb hs (hc.append hd)

/-- The arguments that are refused for their integer, by their texts. -/
theorem parseArgument_type_mem_iff (param : Parameter) :
    (parseArgument param).type ∈ forbiddenInts ↔ ListedArgument param.type := by
  rw [parseArgument_type]
  exact ⟨listedArgument_of_dropped_mem, ListedArgument.dropped_mem⟩

/-! ## Accepted operations -/

/-- For a method with any types: no integer without exact width passes `parse_header_operation`
exactly when there is none, or the method is refused for one of the listed spellings or for an
array that `format_type` does not read. -/
theorem returns_noInteger_iff (devname : List Char) (m : TypedMethod) :
    (Returns (parseHeaderOperation devname m.toMethod) → ¬m.HasInteger) ↔
      ¬m.HasInteger ∨ m.rtnType ∈ forbiddenInts ∨
        ∃ p ∈ m.parameters, ListedArgument p.type ∨
          Unformattable (dropConst (dropReference (strip p.type))) := by
  have hrefused : ¬Returns (parseHeaderOperation devname m.toMethod) ↔
      m.rtnType ∈ forbiddenInts ∨
        ∃ p ∈ m.parameters, ListedArgument p.type ∨
          Unformattable (dropConst (dropReference (strip p.type))) := by
    rw [returns_parseHeaderOperation_iff, not_and_or, not_not]
    refine or_congr_right ?_
    push Not
    refine exists_congr fun p => and_congr_right fun _ => ?_
    rw [← parseArgument_type_mem_iff, returns_formatType_iff, not_not, parseArgument_type]
    tauto
  rw [← hrefused]
  tauto

/-- `void set_samples(const std::vector<int> &samples, long int rate)` -/
def setSamples : TypedMethod where
  name := "set_samples".toList
  rtnType := "void".toList
  template := false
  parameters :=
    [⟨"samples".toList, "const std::vector<int> &".toList⟩, ⟨"rate".toList, "long int".toList⟩]
  retType := .other ⟨["void".toList], by decide, by decide, by decide⟩
  paramTypes :=
    [.reference (.const (.vector (.integer [.int] (by decide)) [])), .integer [.long, .int] (by decide)]
  spells_ret := .cons (b := []) blank_nil (.nil blank_nil) (by decide)
  spells_params := by
    have hvector : Spells ["const".toList, "std::vector".toList, "<".toList, "int".toList,
        ">".toList, "&".toList] "const std::vector<int> &".toList :=
      .cons (b := []) blank_nil (.cons (b := [' ']) (by decide) (.cons (b := []) blank_nil
        (.cons (b := []) blank_nil (.cons (b := []) blank_nil (.cons (b := [' ']) (by decide)
          (.nil blank_nil) (by decide)) (by decide)) (by decide)) (by decide)) (by decide)) (by decide)
    have hlong : Spells ["long".toList, "int".toList] "long int".toList :=
      .cons (b := []) blank_nil (.cons (b := [' ']) (by decide) (.nil blank_nil) (by decide))
        (by decide)
    exact .cons hvector (.cons hlong .nil)

/-- Neither the elements of a vector nor `long int` is refused. -/
theorem setSamples_accepted :
    Returns (parseHeaderOperation "Device".toList setSamples.toMethod) ∧ setSamples.HasInteger := by
  exact ⟨⟨_, rfl⟩, .inr ⟨_, List.mem_cons_self, by decide⟩⟩

end KoheronServer.Devgen
