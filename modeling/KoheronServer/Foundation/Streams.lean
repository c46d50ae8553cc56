import KoheronServer.Foundation.Expressions
import KoheronServer.Foundation.Json

/-!
# Stream statements

What a C++ statement `ss << "..." << e << "...";` writes: the literals with their escape
sequences, and the values of the expressions between them. An expression is an operand of `<<`
only when its outermost operator binds tighter, and how its value is written depends on the type.
-/

namespace Foundation

/-! ## Values -/

/-- The value of an expression. The character types are the integer types that a stream does not
write in digits. -/
inductive Value where
  | integer (n : Nat)
  | character (code : UInt8)
  | text (s : List Char)

namespace Value

def number : Value → Option Nat
  | integer n => some n
  | character code => some code.toNat
  | text _ => none

/-- What `ss << value` writes. -/
def inserted : Value → List Char
  | integer n => Nat.toDigits 10 n
  | character code => [Char.ofNat code.toNat]
  | text s => s

/-- The value as it is meant to be shown, a number by its digits whatever its type. -/
def shown : Value → List Char
  | integer n => Nat.toDigits 10 n
  | character code => Nat.toDigits 10 code.toNat
  | text s => s

end Value

/-- A constant 48 of the type `uint8_t` is written as a zero. -/
example : (Value.character 48).inserted = ['0'] ∧ (Value.character 48).shown = ['4', '8'] := by
  decide

/-- What the C++ compiler makes of the text of a constant expression. White space around it makes
no difference. -/
structure Compiler where
  read : List Char → Option Expression
  spelled : ∀ {s : List Char} {e : Expression}, read s = some e → Spells e.tokens s
  read_strip : ∀ s : List Char, read (strip s) = read s
  value : Expression → Option Value

namespace Compiler

/-- A text as an argument of a template. -/
def argument (cc : Compiler) (s : List Char) : Option Nat :=
  ((cc.read s).bind cc.value).bind Value.number

/-- What a text between two `<<` writes. The operands of a weaker operator are torn apart there,
and a statement that shifts a number by the next literal does not compile. -/
def streamed (cc : Compiler) (s : List Char) : Option (List Char) :=
  (cc.read s).bind fun e =>
    if e.BindsTighterThanShift then (cc.value e).map Value.inserted else none

def shown (cc : Compiler) (s : List Char) : List Char :=
  (((cc.read s).bind cc.value).map Value.shown).getD []

variable {cc : Compiler} {s : List Char}

end Compiler

/-! ## Statements -/

def simpleEscape : Char → Option Char
  | '"' => some '"'
  | '\\' => some '\\'
  | '\'' => some '\''
  | '?' => some '?'
  | 'a' => some '\x07'
  | 'b' => some '\x08'
  | 'f' => some '\x0c'
  | 'n' => some '\n'
  | 'r' => some '\r'
  | 't' => some '\t'
  | 'v' => some '\x0b'
  | _ => none

/-- The character of the four digits behind `\u`. -/
def universalChar : List Char → Option Char
  | [a, b, c, d] => unitChar a b c d
  | _ => none

/-- Where the reader of a statement stands: in a literal, behind a backslash there, in the digits
behind `\u`, or between two literals. -/
inductive StreamMode where
  | literal
  | escape
  | unit (digits : List Char)
  | between (read : List Char)

/-- What is written between two literals: nothing, when they stand side by side or are written one
behind the other, or what the text between two `<<` writes. -/
def writtenBetween (streamed : List Char → Option (List Char)) (s : List Char) :
    Option (List Char) :=
  let t := strip s
  if t = [] ∨ t = "<<".toList then some []
  else if "<<".toList.isPrefixOf t && "<<".toList.isSuffixOf (t.drop 2) then
    streamed (strip ((t.drop 2).rdrop 2))
  else none

/-- What the rest of a statement writes, up to its semicolon. -/
def writtenFrom (streamed : List Char → Option (List Char)) :
    StreamMode → List Char → Option (List Char)
  | .literal, [] => none
  | .literal, c :: s =>
      if c = '"' then writtenFrom streamed (.between []) s
      else if c = '\\' then writtenFrom streamed .escape s
      else if c = '\n' then none
      else (writtenFrom streamed .literal s).map (c :: ·)
  | .escape, [] => none
  | .escape, c :: s =>
      if c = 'u' then writtenFrom streamed (.unit []) s
      else (simpleEscape c).bind fun d => (writtenFrom streamed .literal s).map (d :: ·)
  | .unit _, [] => none
  | .unit digits, c :: s =>
      if digits.length < 3 then writtenFrom streamed (.unit (digits ++ [c])) s
      else
        (universalChar (digits ++ [c])).bind fun d =>
          (writtenFrom streamed .literal s).map (d :: ·)
  | .between e, [] => if strip e = ";".toList then some [] else none
  | .between e, c :: s =>
      if c = '"' then
        (writtenBetween streamed e).bind fun t => (writtenFrom streamed .literal s).map (t ++ ·)
      else writtenFrom streamed (.between (e ++ [c])) s

def written (streamed : List Char → Option (List Char)) (statement : List Char) :
    Option (List Char) :=
  let start := "ss << \"".toList
  if start.isPrefixOf statement then
    writtenFrom streamed .literal (statement.drop start.length)
  else none

/-- The statement `ss << "...";`. -/
def streamStatement (literal : List Char) : List Char :=
    "ss << \"".toList ++ literal ++ "\";".toList

variable {streamed : List Char → Option (List Char)}

theorem writtenFrom_verbatim_cons {c : Char} (h : isVerbatim c = true) (rest : List Char) :
    writtenFrom streamed .literal (c :: rest) =
    (writtenFrom streamed .literal rest).map (c :: ·) := by
  obtain ⟨hlow, -, hquote, hslash⟩ := isVerbatim_iff.mp h
  have hline : c ≠ '\n' := by
    rintro rfl
    exact absurd hlow (by decide)
  rw [writtenFrom, if_neg hquote, if_neg hslash, if_neg hline]

theorem writtenFrom_verbatim {s : List Char} (h : Verbatim s) (rest : List Char) :
    writtenFrom streamed .literal (s ++ rest) =
      (writtenFrom streamed .literal rest).map (s ++ ·) := by
  induction s with
  | nil =>
      rw [List.nil_append]
      cases writtenFrom streamed .literal rest with
      | none => rfl
      | some t => rfl
  | cons c s ih =>
      rw [List.cons_append, writtenFrom_verbatim_cons (h c List.mem_cons_self),
        ih fun d hd => h d (List.mem_cons_of_mem c hd), Option.map_map]
      rfl

theorem writtenFrom_quote (rest : List Char) :
    writtenFrom streamed .literal ('\\' :: '"' :: rest) =
      (writtenFrom streamed .literal rest).map ('"' :: ·) := by
  rw [writtenFrom, if_neg (by decide), if_pos rfl, writtenFrom, if_neg (by decide)]
  rfl

/-- The escape sequence of white space writes it again. -/
theorem writtenFrom_control {c : Char} (h : ¬isSpaced c = true) (rest : List Char) :
    writtenFrom streamed .literal (escapeChar c ++ rest) =
      (writtenFrom streamed .literal rest).map (c :: ·) := by
  obtain ⟨hlow, hhigh⟩ := control_of_not_spaced h
  have hletter : ∀ d e : Char, d ≠ 'u' → simpleEscape d = some e →
      writtenFrom streamed .literal ('\\' :: d :: rest) =
        (writtenFrom streamed .literal rest).map (e :: ·) := by
    intro d e hd hescape
    rw [writtenFrom, if_neg (by decide), if_pos rfl, writtenFrom, if_neg hd, hescape]
    rfl
  have hc : c = Char.ofNat c.toNat := c.ofNat_toNat.symm
  rw [hc]
  interval_cases c.toNat
  · exact hletter 't' '\t' (by decide) rfl
  · exact hletter 'n' '\n' (by decide) rfl
  · change writtenFrom streamed .literal ('\\' :: 'u' :: '0' :: '0' :: '0' :: 'b' :: rest) = _
    have hunit : universalChar ['0', '0', '0', 'b'] = some '\x0b' := by decide
    rw [writtenFrom, if_neg (by decide), if_pos rfl, writtenFrom, if_pos rfl, writtenFrom,
      if_pos (by decide), writtenFrom, if_pos (by decide), writtenFrom, if_pos (by decide),
      writtenFrom, if_neg (by decide)]
    change (universalChar ['0', '0', '0', 'b']).bind _ = _
    rw [hunit]
    rfl
  · exact hletter 'f' '\x0c' (by decide) rfl
  · exact hletter 'r' '\r' (by decide) rfl

theorem writtenFrom_source {s : List Char} (h : Source s) (rest : List Char) :
    writtenFrom streamed .literal (s.flatMap escapeChar ++ rest) =
      (writtenFrom streamed .literal rest).map (s ++ ·) := by
  induction s with
  | nil =>
      rw [List.flatMap_nil, List.nil_append]
      cases writtenFrom streamed .literal rest with
      | none => rfl
      | some t => rfl
  | cons c s ih =>
      have hrest := ih fun d hd => h d (List.mem_cons_of_mem c hd)
      rw [List.flatMap_cons, List.append_assoc]
      by_cases hc : isSpaced c = true
      · have hverbatim := isVerbatim_of_source (h c List.mem_cons_self) hc
        rw [escapeChar_verbatim hverbatim, List.singleton_append,
          writtenFrom_verbatim_cons hverbatim, hrest, Option.map_map]
        rfl
      · rw [writtenFrom_control hc, hrest, Option.map_map]
        rfl

theorem writtenFrom_between {s : List Char} (h : '"' ∉ s) (e rest : List Char) :
    writtenFrom streamed (.between e) (s ++ '"' :: rest) =
      (writtenBetween streamed (e ++ s)).bind fun t =>
        (writtenFrom streamed .literal rest).map (t ++ ·) := by
  induction s generalizing e with
  | nil => rw [List.nil_append, writtenFrom, if_pos rfl, List.append_nil]
  | cons c s ih =>
      have hc : c ≠ '"' := fun heq => h (heq ▸ List.mem_cons_self)
      have hs : '"' ∉ s := fun hmem => h (List.mem_cons_of_mem c hmem)
      rw [List.cons_append, writtenFrom, if_neg hc, ih hs, List.append_assoc, List.singleton_append]

/-- The operand of the middle one of three `<<`. -/
theorem writtenBetween_operand (e : List Char) :
    writtenBetween streamed (" << ".toList ++ (e ++ " << ".toList)) = streamed (strip e) := by
  have htrim : Trimmed ("<<".toList ++ (" ".toList ++ e ++ " ".toList) ++ "<<".toList) := by
    refine trimmed_of_ends ?_ ?_
    · intro c hc
      obtain rfl : '<' = c := Option.some.inj hc
      rfl
    · intro c hc
      rw [List.getLast?_append_of_ne_nil _ (by decide)] at hc
      obtain rfl : '<' = c := Option.some.inj hc
      rfl
  have hstrip : strip (" << ".toList ++ (e ++ " << ".toList)) =
      "<<".toList ++ (" ".toList ++ e ++ " ".toList) ++ "<<".toList := by
    have hsplit : " << ".toList ++ (e ++ " << ".toList) =
        " ".toList ++ ("<<".toList ++ (" ".toList ++ e ++ " ".toList) ++ "<<".toList) ++
          " ".toList := by
      have hop : " << ".toList = " ".toList ++ ("<<".toList ++ " ".toList) := by decide
      conv_lhs => rw [hop]
      simp only [List.append_assoc]
    rw [hsplit]
    exact strip_between htrim (by decide) (by decide)
  have hshort : ¬("<<".toList ++ (" ".toList ++ e ++ " ".toList) ++ "<<".toList = [] ∨
      "<<".toList ++ (" ".toList ++ e ++ " ".toList) ++ "<<".toList = "<<".toList) := by
    rintro (hnil | hop)
    · have hlen := congrArg List.length hnil
      simp at hlen
    · have hlen := congrArg List.length hop
      simp at hlen
  have hdrop : ("<<".toList ++ (" ".toList ++ e ++ " ".toList) ++ "<<".toList).drop 2 =
      " ".toList ++ e ++ " ".toList ++ "<<".toList := rfl
  have hmiddle : (" ".toList ++ e ++ " ".toList ++ "<<".toList).rdrop 2 =
      " ".toList ++ e ++ " ".toList := by
    have hop : "<<".toList = ['<', '<'] := by decide
    rw [hop, List.append_cons, List.rdrop_concat_succ, List.rdrop_concat_succ, List.rdrop_zero]
  have hends : ("<<".toList.isPrefixOf
        ("<<".toList ++ (" ".toList ++ e ++ " ".toList) ++ "<<".toList) &&
      "<<".toList.isSuffixOf (" ".toList ++ e ++ " ".toList ++ "<<".toList)) = true := by
    rw [Bool.and_eq_true, List.isPrefixOf_iff_prefix, List.isSuffixOf_iff_suffix, List.append_assoc]
    exact ⟨List.prefix_append _ _, List.suffix_append _ _⟩
  have hoperand : strip (" ".toList ++ e ++ " ".toList) = strip e := by
    rw [strip_append_right (by decide), strip_append_left (by decide)]
  simp only [writtenBetween, hstrip, if_neg hshort, hdrop, hends, hmiddle, hoperand, if_true]

theorem writtenFrom_operand {e : List Char} (h : '"' ∉ e) (rest : List Char) :
    writtenFrom streamed .literal ('"' :: (" << ".toList ++ (e ++ " << ".toList) ++ '"' :: rest)) =
      (streamed (strip e)).bind fun t => (writtenFrom streamed .literal rest).map (t ++ ·) := by
  have hop : '"' ∉ " << ".toList := by decide
  have hnone : '"' ∉ " << ".toList ++ (e ++ " << ".toList) := by
    simp only [List.mem_append, not_or]
    exact ⟨hop, h, hop⟩
  rw [writtenFrom, if_pos rfl, writtenFrom_between hnone, List.nil_append, writtenBetween_operand]

end Foundation
