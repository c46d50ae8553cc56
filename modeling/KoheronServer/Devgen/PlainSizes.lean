import KoheronServer.Foundation.Streams
import KoheronServer.Devgen.Types

/-!
# Sizes that are read whole

The expressions whose text has none of the characters that the text of an array type is cut at.
Their texts are printable but for white space, so that an escape sequence is no part of them.
-/

namespace KoheronServer.Devgen

open Foundation

def plainOp : BinaryOp → Bool
  | .shiftLeft | .shiftRight | .lt | .gt | .le | .ge | .comma => false
  | _ => true

mutual

/-- No shift, no relational operator, no comma, no `->`, no template-id and no call with two
arguments. -/
def plain : Expression → Bool
  | .word _ => true
  | .paren e => plain e
  | .unary _ e => plain e
  | .binary op l r => plainOp op && plain l && plain r
  | .conditional c t f => plain c && plain t && plain f
  | .index e i => plain e && plain i
  | .member e op _ => decide (op ≠ .arrow) && plain e
  | .call f args => plain f && decide (args.length ≤ 1) && plainArgs args
  | .templateId _ _ => false

def plainArgs : List Expression → Bool
  | [] => true
  | e :: es => plain e && plainArgs es

end

theorem Simple.word (w : Word) : Simple w.text := fun c hc =>
  isPlain_of (p := isNameChar) (by decide) (List.all_eq_true.mp w.chars c hc)

theorem simple_unaryOp (op : UnaryOp) : Simple op.text := by
  cases op <;> decide

theorem simple_binaryOp_iff (op : BinaryOp) : Simple op.text ↔ plainOp op = true := by
  cases op <;> decide

theorem simple_memberOp_iff (op : MemberOp) : Simple op.text ↔ op ≠ .arrow := by
  cases op <;> decide

def AllSimple (ts : List (List Char)) : Prop := ∀ t ∈ ts, Simple t

theorem allSimple_nil : AllSimple [] := by
  simp [AllSimple]

theorem allSimple_cons (t : List Char) (ts : List (List Char)) :
    AllSimple (t :: ts) ↔ Simple t ∧ AllSimple ts :=
  List.forall_mem_cons

theorem allSimple_singleton {t : List Char} (h : Simple t) : AllSimple [t] :=
  List.forall_mem_singleton.mpr h

theorem allSimple_append (ts us : List (List Char)) :
    AllSimple (ts ++ us) ↔ AllSimple ts ∧ AllSimple us :=
  List.forall_mem_append

theorem allSimple_argTokens_cons (e : Expression) (es : List Expression) :
    AllSimple (Expression.argTokens (e :: es)) ↔
      es = [] ∧ AllSimple e.tokens := by
  cases es with
  | nil => simp [Expression.argTokens]
  | cons d es =>
      rw [Expression.argTokens, allSimple_append, allSimple_cons]
      · constructor
        · intro h
          exact absurd h.2.1 (by decide)
        · intro h
          cases h.1
      · intro h
        cases h

mutual

/-- The tokens of an expression tell whether it is plain. -/
theorem allSimple_tokens_iff : ∀ e : Expression, AllSimple e.tokens ↔ plain e = true
  | .word w => by
      rw [Expression.tokens, plain]
      simp [allSimple_singleton (Simple.word w)]
  | .paren e => by
      have hopen : Simple ['('] := by decide
      have hclose : AllSimple [[')']] := allSimple_singleton (by decide)
      rw [Expression.tokens, allSimple_cons, allSimple_append, allSimple_tokens_iff e, plain]
      simp [hopen, hclose]
  | .unary op e => by
      rw [Expression.tokens, allSimple_cons, allSimple_tokens_iff e, plain]
      simp [simple_unaryOp op]
  | .binary op l r => by
      rw [Expression.tokens, allSimple_append, allSimple_cons, allSimple_tokens_iff l,
        allSimple_tokens_iff r, simple_binaryOp_iff, plain, Bool.and_eq_true, Bool.and_eq_true]
      tauto
  | .conditional c t f => by
      have hthen : Simple ['?'] := by decide
      have helse : Simple [':'] := by decide
      rw [Expression.tokens, allSimple_append, allSimple_cons, allSimple_append, allSimple_cons,
        allSimple_tokens_iff c, allSimple_tokens_iff t, allSimple_tokens_iff f, plain,
        Bool.and_eq_true, Bool.and_eq_true]
      tauto
  | .index e i => by
      have hopen : Simple ['['] := by decide
      have hclose : AllSimple [[']']] := allSimple_singleton (by decide)
      rw [Expression.tokens, allSimple_append, allSimple_cons, allSimple_append,
        allSimple_tokens_iff e, allSimple_tokens_iff i, plain, Bool.and_eq_true]
      tauto
  | .member e op name => by
      have hname : AllSimple [name.text] := allSimple_singleton (Simple.word name)
      rw [Expression.tokens, allSimple_append, allSimple_cons, allSimple_tokens_iff e,
        simple_memberOp_iff, plain, Bool.and_eq_true, decide_eq_true_iff]
      tauto
  | .call f args => by
      have hopen : Simple ['('] := by decide
      have hclose : AllSimple [[')']] := allSimple_singleton (by decide)
      rw [Expression.tokens, allSimple_append, allSimple_cons, allSimple_append,
        allSimple_tokens_iff f, allSimple_argTokens_iff args, plain, Bool.and_eq_true,
        Bool.and_eq_true, decide_eq_true_iff]
      tauto
  | .templateId name args => by
      rw [Expression.tokens, allSimple_append, allSimple_cons, plain]
      constructor
      · intro h
        exact absurd h.2.1 (by decide)
      · intro h
        cases h

theorem allSimple_argTokens_iff : ∀ es : List Expression,
    AllSimple (Expression.argTokens es) ↔ es.length ≤ 1 ∧ plainArgs es = true
  | [] => by
      simp [Expression.argTokens, plainArgs, allSimple_nil]
  | [e] => by
      rw [allSimple_argTokens_cons, allSimple_tokens_iff e]
      simp [plainArgs]
  | e :: d :: es => by
      rw [allSimple_argTokens_cons]
      simp

end

theorem isVerbatim_of_isNameChar {c : Char} (h : isNameChar c = true) : isVerbatim c = true := by
  rw [isNameChar, Bool.or_eq_true, decide_eq_true_iff] at h
  rcases h with h | h
  · exact isVerbatim_of_alphanum h
  · simp only [List.mem_cons, List.not_mem_nil, or_false] at h
    rcases h with rfl | rfl | rfl | rfl
    · decide
    · decide
    · decide
    · decide

theorem verbatim_word (w : Word) : Verbatim w.text := fun c hc =>
  isVerbatim_of_isNameChar (List.all_eq_true.mp w.chars c hc)

theorem verbatim_unaryOp (op : UnaryOp) : Verbatim op.text := by
  cases op <;> decide

theorem verbatim_binaryOp (op : BinaryOp) : Verbatim op.text := by
  cases op <;> decide

theorem verbatim_memberOp (op : MemberOp) : Verbatim op.text := by
  cases op <;> decide

def AllVerbatim (ts : List (List Char)) : Prop := ∀ t ∈ ts, Verbatim t

theorem AllVerbatim.cons {t : List Char} {ts : List (List Char)} (ht : Verbatim t)
    (hts : AllVerbatim ts) : AllVerbatim (t :: ts) :=
  List.forall_mem_cons.mpr ⟨ht, hts⟩

theorem AllVerbatim.append {ts us : List (List Char)} (hts : AllVerbatim ts)
    (hus : AllVerbatim us) : AllVerbatim (ts ++ us) :=
  List.forall_mem_append.mpr ⟨hts, hus⟩

theorem allVerbatim_singleton {t : List Char} (ht : Verbatim t) : AllVerbatim [t] :=
  List.forall_mem_singleton.mpr ht

mutual

/-- The tokens of an expression are printable; those of a template-id may be anything. -/
theorem allVerbatim_tokens : ∀ e : Expression, plain e = true → AllVerbatim e.tokens
  | .word w, _ => by
      rw [Expression.tokens]
      exact allVerbatim_singleton (verbatim_word w)
  | .paren e, h => by
      rw [plain] at h
      rw [Expression.tokens]
      exact .cons (by decide) ((allVerbatim_tokens e h).append (allVerbatim_singleton (by decide)))
  | .unary op e, h => by
      rw [plain] at h
      rw [Expression.tokens]
      exact .cons (verbatim_unaryOp op) (allVerbatim_tokens e h)
  | .binary op l r, h => by
      rw [plain, Bool.and_eq_true, Bool.and_eq_true] at h
      rw [Expression.tokens]
      exact (allVerbatim_tokens l h.1.2).append
        (.cons (verbatim_binaryOp op) (allVerbatim_tokens r h.2))
  | .conditional c t f, h => by
      rw [plain, Bool.and_eq_true, Bool.and_eq_true] at h
      rw [Expression.tokens]
      exact (allVerbatim_tokens c h.1.1).append (.cons (by decide)
        ((allVerbatim_tokens t h.1.2).append (.cons (by decide) (allVerbatim_tokens f h.2))))
  | .index e i, h => by
      rw [plain, Bool.and_eq_true] at h
      rw [Expression.tokens]
      exact (allVerbatim_tokens e h.1).append (.cons (by decide)
        ((allVerbatim_tokens i h.2).append (allVerbatim_singleton (by decide))))
  | .member e op name, h => by
      rw [plain, Bool.and_eq_true] at h
      rw [Expression.tokens]
      exact (allVerbatim_tokens e h.2).append
        (.cons (verbatim_memberOp op) (allVerbatim_singleton (verbatim_word name)))
  | .call f args, h => by
      rw [plain, Bool.and_eq_true, Bool.and_eq_true] at h
      rw [Expression.tokens]
      exact (allVerbatim_tokens f h.1.1).append (.cons (by decide)
        ((allVerbatim_argTokens args h.2).append (allVerbatim_singleton (by decide))))
  | .templateId _ _, h => by
      rw [plain] at h
      cases h

theorem allVerbatim_argTokens : ∀ es : List Expression, plainArgs es = true →
    AllVerbatim (Expression.argTokens es)
  | [], _ => by
      rw [Expression.argTokens]
      exact List.forall_mem_nil _
  | [e], h => by
      rw [plainArgs, Bool.and_eq_true] at h
      rw [Expression.argTokens]
      exact allVerbatim_tokens e h.1
  | e :: d :: es, h => by
      rw [plainArgs, Bool.and_eq_true] at h
      have htokens : Expression.argTokens (e :: d :: es) =
          e.tokens ++ [','] :: Expression.argTokens (d :: es) := by
        rw [Expression.argTokens]
        intro hnil
        cases hnil
      rw [htokens]
      exact (allVerbatim_tokens e h.1).append
        (.cons (by decide) (allVerbatim_argTokens (d :: es) h.2))

end

end KoheronServer.Devgen
