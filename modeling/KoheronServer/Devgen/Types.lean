import KoheronServer.Foundation.Exceptions
import KoheronServer.Foundation.Texts

/-!
# The types of a signature

devgen keeps a type as the text of the header. It knows the containers by what stands in front
of the first `<`, and reads the parameters of an array by cutting its text at `<`, `>` and
commas.
-/

namespace KoheronServer.Devgen

open Foundation

inductive Raised where
  | indexError
  | valueError (message : List Char)
  deriving DecidableEq

def item {α : Type} (l : List α) (i : Nat) : Except Raised α :=
  match l[i]? with
  | some a => .ok a
  | none => .error .indexError

/-- `arg_type.split('<')[0].strip()` -/
def containerType (argType : List Char) : List Char :=
  strip ((argType.splitOn '<').head (List.splitOn_ne_nil _ _))

def isStdArray (argType : List Char) : Bool :=
  containerType argType ∈ ["std::array".toList, "const std::array".toList]

def isStdVector (argType : List Char) : Bool :=
  containerType argType ∈ ["std::vector".toList, "const std::vector".toList]

def isStdString (argType : List Char) : Bool :=
  strip argType ∈ ["std::string".toList, "const std::string".toList]

/-- `_type.split('<')[1].split('>')[0].split(',')` -/
def templates (type : List Char) : Except Raised (List (List Char)) := do
  let second ← item (type.splitOn '<') 1
  let inside ← item (second.splitOn '>') 0
  return inside.splitOn ','

/-- The dictionary that `get_std_array_params` returns. -/
structure ArrayParams where
  T : List Char
  N : List Char
  deriving DecidableEq

def getStdArrayParams (argType : List Char) : Except Raised ArrayParams := do
  let templates ← templates argType
  let t ← item templates 0
  let n ← item templates 1
  return ⟨strip t, strip n⟩

/-- The type that is announced to clients: the size of an array is spliced into the stream. -/
def formatType (type : List Char) : Except Raised (List Char) :=
  if isStdArray type then do
    let templates ← templates type
    let t ← item templates 0
    let n ← item templates 1
    return "std::array<".toList ++ t ++ ", \" << ".toList ++ n ++ " << \">".toList
  else return type

/-! ## The parameters of an array -/

theorem item_ok_iff {α : Type} {l : List α} {i : Nat} {a : α} : item l i = .ok a ↔
    l[i]? = some a := by
  unfold item
  split
  case h_1 heq => rw [heq, Except.ok.injEq, Option.some.injEq]
  case h_2 heq => simp [heq]

theorem item_of_some {α : Type} {l : List α} {i : Nat} {a : α} (h : l[i]? = some a) :
    item l i = .ok a :=
  item_ok_iff.mpr h

theorem containerType_eq (argType : List Char) :
    containerType argType = strip (argType.takeWhile (· ≠ '<')) := by
  have hhead := List.head_eq_getElem (List.splitOn_ne_nil '<' argType)
  have hzero := splitOn_getElem?_zero '<' argType
  rw [List.getElem?_eq_some_iff] at hzero
  rw [containerType, hhead, hzero.2]

theorem containerType_append {front : List Char} (h : '<' ∉ front) (rest : List Char) :
    containerType (front ++ '<' :: rest) = strip front := by
  rw [containerType_eq, takeWhile_ne_append h]

theorem containerType_of_notMem {type : List Char} (h : '<' ∉ type) :
    containerType type = strip type := by
  rw [containerType_eq, takeWhile_ne_of_notMem h]

theorem containerType_of_string {type : List Char} (h : isStdString type = true) :
    containerType type = strip type := by
  refine containerType_of_notMem fun hmem => ?_
  have hstring : '<' ∉ strip type := by
    have hname : strip type = "std::string".toList ∨ strip type = "const std::string".toList := by
      simpa [isStdString] using h
    rcases hname with hname | hname
    · rw [hname]
      decide
    · rw [hname]
      decide
  obtain ⟨b, c, hb, hc, htype⟩ := exists_strip_append type
  rw [htype] at hmem
  rcases List.mem_append.mp hmem with hmem | hmem
  · rcases List.mem_append.mp hmem with hmem | hmem
    · exact absurd (hb _ hmem) (by decide)
    · exact hstring hmem
  · exact absurd (hc _ hmem) (by decide)

theorem not_vector_of_array {type : List Char} (h : isStdArray type = true) :
    isStdVector type = false := by
  have hname : containerType type = "std::array".toList ∨
      containerType type = "const std::array".toList := by
    simpa [isStdArray] using h
  rcases hname with hname | hname
  · rw [isStdVector, hname]
    decide
  · rw [isStdVector, hname]
    decide

theorem not_array_of_string {type : List Char} (h : isStdString type = true) :
    isStdArray type = false := by
  have hname : strip type = "std::string".toList ∨ strip type = "const std::string".toList := by
    simpa [isStdString] using h
  rw [isStdArray, containerType_of_string h]
  rcases hname with hname | hname
  · rw [hname]
    decide
  · rw [hname]
    decide

theorem not_string_of_array {type : List Char} (h : isStdArray type = true) :
    isStdString type = false := by
  cases hstring : isStdString type with
  | false => rfl
  | true =>
      rw [not_array_of_string hstring] at h
      cases h

/-- The parameters stand between the first `<` and the next angle bracket. -/
theorem templates_append {front : List Char} (h : '<' ∉ front) (rest : List Char) :
    templates (front ++ '<' :: rest) =
      .ok ((rest.takeWhile fun c => c ≠ '<' && c ≠ '>').splitOn ',') := by
  have hsecond : item ((front ++ '<' :: rest).splitOn '<') 1 = .ok (rest.takeWhile (· ≠ '<')) :=
    item_of_some (by rw [splitOn_getElem?_succ h, splitOn_getElem?_zero])
  have hinside : item ((rest.takeWhile (· ≠ '<')).splitOn '>') 0 =
      .ok (rest.takeWhile fun c => c ≠ '<' && c ≠ '>') := by
    refine item_of_some ?_
    rw [splitOn_getElem?_zero, List.takeWhile_takeWhile]
    simp [and_comm]
  rw [templates, hsecond]
  change (item ((rest.takeWhile (· ≠ '<')).splitOn '>') 0 >>= fun inside =>
    pure (inside.splitOn ',')) = _
  rw [hinside]
  rfl

def isPlain (c : Char) : Bool := c ≠ '<' && c ≠ '>' && c ≠ ','

def Simple (s : List Char) : Prop := ∀ c ∈ s, isPlain c = true

instance (s : List Char) : Decidable (Simple s) := List.decidableBAll (isPlain · = true) s

/-- A class of characters without `<`, `>` and comma. -/
theorem isPlain_of {p : Char → Bool} (hp : p '<' = false ∧ p '>' = false ∧ p ',' = false) {c : Char}
    (h : p c = true) : isPlain c = true := by
  obtain ⟨hopen, hclose, hcomma⟩ := hp
  have hne : ∀ d, p d = false → c ≠ d := by
    rintro d hd rfl
    rw [h] at hd
    cases hd
  simp [isPlain, hne '<' hopen, hne '>' hclose, hne ',' hcomma]

theorem isPlain_of_blank {c : Char} (h : isBlank c = true) : isPlain c = true :=
  isPlain_of (by decide) h

theorem Simple.of_blank {b : List Char} (h : Blank b) : Simple b := fun c hc =>
  isPlain_of_blank (h c hc)

theorem Simple.append {s t : List Char} (hs : Simple s) (ht : Simple t) : Simple (s ++ t) :=
  List.forall_mem_append.mpr ⟨hs, ht⟩

theorem Simple.between {b s c : List Char} (hb : Blank b) (hs : Simple s) (hc : Blank c) :
    Simple (b ++ s ++ c) :=
  ((Simple.of_blank hb).append hs).append (.of_blank hc)

theorem Simple.notMem {s : List Char} (h : Simple s) : '<' ∉ s ∧ '>' ∉ s ∧ ',' ∉ s :=
  ⟨fun hmem => absurd (h _ hmem) (by decide), fun hmem => absurd (h _ hmem) (by decide),
    fun hmem => absurd (h _ hmem) (by decide)⟩

/-- The text of a class template with two parameters or more, the first of them simple: the first
two pieces are the parameter and what is simple at the start of the second one. -/
theorem templates_of_simple {front t : List Char} (hfront : '<' ∉ front) (ht : Simple t)
    (n : List Char) :
    ∃ pieces, templates (front ++ '<' :: (t ++ ',' :: n)) = .ok pieces ∧
      item pieces 0 = .ok t ∧ item pieces 1 = .ok (n.takeWhile isPlain) := by
  have hpass : ∀ c ∈ t ++ [','], (c ≠ '<' && c ≠ '>') = true := by
    intro c hc
    rcases List.mem_append.mp hc with hc | hc
    · have hplain := ht c hc
      simp only [isPlain, Bool.and_eq_true] at hplain
      exact Bool.and_eq_true _ _ ▸ hplain.1
    · rw [List.mem_singleton.mp hc]
      rfl
  have hcut : (t ++ ',' :: n).takeWhile (fun c => c ≠ '<' && c ≠ '>') =
      t ++ ',' :: n.takeWhile fun c => c ≠ '<' && c ≠ '>' := by
    rw [List.append_cons, List.takeWhile_append_of_pos hpass, ← List.append_cons]
  have hcomma : ',' ∉ t := ht.notMem.2.2
  refine ⟨_, templates_append hfront _, ?_, ?_⟩
  · refine item_of_some ?_
    rw [hcut, splitOn_getElem?_zero, takeWhile_ne_append hcomma]
  · refine item_of_some ?_
    rw [hcut, splitOn_getElem?_succ hcomma, splitOn_getElem?_zero, List.takeWhile_takeWhile]
    congr 2
    funext c
    simp [isPlain, Bool.and_comm]

theorem getStdArrayParams_of_simple {front t : List Char} (hfront : '<' ∉ front) (ht : Simple t)
    (n : List Char) :
    getStdArrayParams (front ++ '<' :: (t ++ ',' :: n)) =
      .ok ⟨strip t, strip (n.takeWhile isPlain)⟩ := by
  obtain ⟨pieces, hpieces, hzero, hone⟩ := templates_of_simple hfront ht n
  simp only [getStdArrayParams, hpieces, hzero, hone, bind, Except.bind]
  rfl

/-- An array whose text has no comma between the first `<` and the next angle bracket. -/
def Unformattable (type : List Char) : Prop :=
  isStdArray type = true ∧ ∀ front rest, type = front ++ '<' :: rest → '<' ∉ front →
    ',' ∉ rest.takeWhile fun c => c ≠ '<' && c ≠ '>'

theorem templates_raises {type : List Char} (h : '<' ∉ type) :
    templates type = .error .indexError := by
  have hsecond : item (type.splitOn '<') 1 = .error .indexError := by
    rw [List.splitOn_eq_singleton h]
    rfl
  rw [templates, hsecond]
  rfl

/-- `format_type` raises an exception for these arrays and for no other type. -/
theorem returns_formatType_iff (type : List Char) :
    Returns (formatType type) ↔ ¬Unformattable type := by
  by_cases harray : isStdArray type = true
  · by_cases hmem : '<' ∈ type
    · obtain ⟨front, rest, rfl, hfront⟩ := List.eq_append_cons_of_mem hmem
      let pieces := (rest.takeWhile fun c => c ≠ '<' && c ≠ '>').splitOn ','
      have htemplates : templates (front ++ '<' :: rest) = .ok pieces :=
        templates_append hfront rest
      have hone : pieces[1]?.isSome ↔ ',' ∈ rest.takeWhile fun c => c ≠ '<' && c ≠ '>' :=
        splitOn_getElem?_one_isSome_iff
      have hzero : pieces[0]? = some _ := splitOn_getElem?_zero ',' _
      have hunformattable : Unformattable (front ++ '<' :: rest) ↔
          ',' ∉ rest.takeWhile fun c => c ≠ '<' && c ≠ '>' := by
        refine ⟨fun h => h.2 front rest rfl hfront, fun h => ⟨harray, ?_⟩⟩
        intro front' rest' heq hfront'
        have hsame : front = front' := by
          rw [← takeWhile_ne_append hfront rest, heq, takeWhile_ne_append hfront' rest']
        subst hsame
        obtain ⟨-, rfl⟩ := List.cons.inj (List.append_cancel_left heq)
        exact h
      rw [hunformattable, not_not, ← hone]
      simp only [formatType, harray, if_true]
      rw [htemplates]
      cases hpiece : pieces[1]? with
      | none =>
          have hraise : item pieces 1 = .error .indexError := by rw [item, hpiece]
          simp only [bind, Except.bind, item_of_some hzero, hraise]
          simp
      | some n =>
          simp only [bind, Except.bind, item_of_some hzero, item_of_some hpiece]
          exact iff_of_true (returns_ok _) rfl
    · have hraise : formatType type = .error .indexError := by
        simp [formatType, harray, templates_raises hmem, bind, Except.bind]
      rw [hraise]
      refine iff_of_false (not_returns_error _) (not_not.mpr ⟨harray, ?_⟩)
      rintro front rest rfl
      exact absurd (by simp) hmem
  · have hformat : formatType type = .ok type := by
      simp [formatType, harray, pure, Except.pure]
    rw [hformat]
    exact iff_of_true (returns_ok _) fun h => harray h.1

end KoheronServer.Devgen
