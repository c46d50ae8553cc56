import KoheronServer.Foundation.Texts
import Mathlib.Tactic.IntervalCases

/-!
# C++ expressions

The expressions that may be written for a constant, with the strength of their operators, and the
texts that spell them. What the names stand for is not looked at.
-/

namespace Foundation

/-- A character of an identifier, of a qualified name or of a number. -/
def isNameChar (c : Char) : Bool := c.isAlphanum || c ∈ ['_', ':', '.', '\'']

structure Word where
  text : List Char
  nonempty : text ≠ []
  chars : text.all isNameChar = true

/-- A number in decimal digits. -/
def Word.numeral (n : Nat) : Word where
  text := Nat.toDigits 10 n
  nonempty := Nat.toDigits_ne_nil
  chars := by
    refine List.all_eq_true.mpr fun c hc => ?_
    have hdigit : c.isDigit = true := Nat.isDigit_of_mem_toDigits (by decide) (by decide) hc
    simp [isNameChar, Char.isAlphanum, hdigit]

inductive UnaryOp where
  | plus
  | minus
  | not
  | complement
  | address
  | deref

inductive BinaryOp where
  | mul
  | div
  | mod
  | add
  | sub
  | shiftLeft
  | shiftRight
  | lt
  | gt
  | le
  | ge
  | eq
  | ne
  | bitAnd
  | bitXor
  | bitOr
  | and
  | or
  | comma

inductive MemberOp where
  | dot
  | arrow
  | scope
  deriving DecidableEq

/-- The arguments of a template-id may be types, and are kept as their tokens. -/
inductive Expression where
  | word (w : Word)
  | paren (e : Expression)
  | unary (op : UnaryOp) (e : Expression)
  | binary (op : BinaryOp) (l r : Expression)
  | conditional (c t f : Expression)
  | index (e i : Expression)
  | member (e : Expression) (op : MemberOp) (name : Word)
  | call (f : Expression) (args : List Expression)
  | templateId (name : Expression) (args : List (List Char))

def UnaryOp.text : UnaryOp → List Char
  | plus => ['+']
  | minus => ['-']
  | not => ['!']
  | complement => ['~']
  | address => ['&']
  | deref => ['*']

def BinaryOp.text : BinaryOp → List Char
  | mul => ['*']
  | div => ['/']
  | mod => ['%']
  | add => ['+']
  | sub => ['-']
  | shiftLeft => ['<', '<']
  | shiftRight => ['>', '>']
  | lt => ['<']
  | gt => ['>']
  | le => ['<', '=']
  | ge => ['>', '=']
  | eq => ['=', '=']
  | ne => ['!', '=']
  | bitAnd => ['&']
  | bitXor => ['^']
  | bitOr => ['|']
  | and => ['&', '&']
  | or => ['|', '|']
  | comma => [',']

def MemberOp.text : MemberOp → List Char
  | dot => ['.']
  | arrow => ['-', '>']
  | scope => [':', ':']

/-- How tightly an operator binds; the conditional operator stands between `comma` and `or`. -/
def BinaryOp.level : BinaryOp → Nat
  | mul | div | mod => 11
  | add | sub => 10
  | shiftLeft | shiftRight => 9
  | lt | gt | le | ge => 8
  | eq | ne => 7
  | bitAnd => 6
  | bitXor => 5
  | bitOr => 4
  | and => 3
  | or => 2
  | comma => 0

namespace Expression

/-- How tightly the outermost operator binds. -/
def level : Expression → Nat
  | binary op _ _ => op.level
  | conditional .. => 1
  | unary .. => 12
  | word _ | paren _ | index .. | member .. | call .. | templateId .. => 13

def BindsTighterThanShift (e : Expression) : Prop := BinaryOp.shiftLeft.level < e.level

instance (e : Expression) : Decidable e.BindsTighterThanShift :=
  inferInstanceAs (Decidable (_ < _))

mutual

def tokens : Expression → List (List Char)
  | word w => [w.text]
  | paren e => ['('] :: (tokens e ++ [[')']])
  | unary op e => op.text :: tokens e
  | binary op l r => tokens l ++ op.text :: tokens r
  | conditional c t f => tokens c ++ ['?'] :: (tokens t ++ [':'] :: tokens f)
  | index e i => tokens e ++ ['['] :: (tokens i ++ [[']']])
  | member e op name => tokens e ++ [op.text, name.text]
  | call f args => tokens f ++ ['('] :: (argTokens args ++ [[')']])
  | templateId name args => tokens name ++ ['<'] :: (args ++ [['>']])

def argTokens : List Expression → List (List Char)
  | [] => []
  | [e] => tokens e
  | e :: es => tokens e ++ [','] :: argTokens es

end

end Expression

def isWordChar (c : Char) : Bool := c.isAlphanum || c = '_'

def RunsTogether (t s : List Char) : Prop :=
  t.getLast?.any isWordChar = true ∧ s.head?.any isWordChar = true

instance (t s : List Char) : Decidable (RunsTogether t s) :=
  inferInstanceAs (Decidable (_ ∧ _))

/-- A text that spells tokens, with white space between and around them. -/
inductive Spells : List (List Char) → List Char → Prop where
  | nil {b : List Char} (hb : Blank b) : Spells [] b
  | cons {b s t : List Char} {ts : List (List Char)} (hb : Blank b) (hs : Spells ts s)
      (hapart : ¬RunsTogether t s) : Spells (t :: ts) (b ++ t ++ s)

theorem Spells.blank_append {ts : List (List Char)} {b s : List Char} (hb : Blank b)
    (h : Spells ts s) : Spells ts (b ++ s) := by
  cases h with
  | nil hs => exact .nil (hb.append hs)
  | cons hfront hs hapart =>
      rw [← List.append_assoc, ← List.append_assoc]
      exact .cons (hb.append hfront) hs hapart

theorem not_isWordChar_of_blank {c : Char} (h : isBlank c = true) : isWordChar c = false := by
  simp only [isBlank, Bool.or_eq_true, decide_eq_true_iff, Bool.and_eq_true] at h
  rcases h with rfl | ⟨hlow, hhigh⟩
  · rfl
  · have hlow' : 9 ≤ c.toNat := hlow
    have hhigh' : c.toNat ≤ 13 := hhigh
    have hc : c = Char.ofNat c.toNat := c.ofNat_toNat.symm
    interval_cases hn : c.toNat <;> rw [hc] <;> rfl

theorem RunsTogether.of_append {b s t : List Char} (hb : Blank b)
    (h : RunsTogether t (s ++ b)) : RunsTogether t s := by
  refine ⟨h.1, ?_⟩
  cases s with
  | nil =>
      have hhead := h.2
      cases b with
      | nil => exact hhead
      | cons c b =>
          rw [List.nil_append, List.head?_cons, Option.any_some,
            not_isWordChar_of_blank (hb c List.mem_cons_self)] at hhead
          cases hhead
  | cons c s => exact h.2

theorem Spells.append_blank {ts : List (List Char)} {b s : List Char} (hb : Blank b)
    (h : Spells ts s) : Spells ts (s ++ b) := by
  induction h with
  | nil hs => exact .nil (hs.append hb)
  | cons hfront _ hapart ih =>
      rw [List.append_assoc]
      exact .cons hfront ih fun h => hapart (h.of_append hb)

theorem Spells.of_strip {ts : List (List Char)} {s : List Char} (h : Spells ts (strip s)) :
    Spells ts s := by
  obtain ⟨b, c, hb, hc, hs⟩ := exists_strip_append s
  rw [hs]
  exact (h.blank_append hb).append_blank hc

theorem Spells.cons_inv {t s : List Char} {ts : List (List Char)} (h : Spells (t :: ts) s) :
    ∃ b r, Blank b ∧ Spells ts r ∧ s = b ++ t ++ r := by
  cases h with
  | cons hb hs _ => exact ⟨_, _, hb, hs, rfl⟩

theorem Spells.singleton_inv {t s : List Char} (h : Spells [t] s) :
    ∃ b c, Blank b ∧ Blank c ∧ s = b ++ t ++ c := by
  obtain ⟨b, c, hb, hnil, rfl⟩ := h.cons_inv
  cases hnil with
  | nil hc => exact ⟨b, c, hb, hc, rfl⟩

end Foundation
