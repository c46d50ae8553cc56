import KoheronServer.Config.JsonParse
import Mathlib.Data.List.Basic
import Mathlib.Data.List.TakeWhile

/-!
# The tokens of a configuration file

What stands between two tokens, the numbers, the strings and the identifiers, each as a
relation that names no reader, and that the readers of `jsonParse` find exactly these.
-/

namespace KoheronServer.Config

open Foundation

/-! ## The language -/

/-- A text and what is left of it behind white space and comments. The character behind a `#`
belongs to the comment, also where it is a newline. -/
inductive Space : List Char → List Char → Prop where
  | none {t : List Char} : Space t t
  | blank {c : Char} {t t' : List Char} (hc : isspace c = true) (h : Space t t') : Space (c :: t) t'
  | comment {c : Char} {body t t' : List Char} (hbody : '\n' ∉ body) (h : Space ('\n' :: t) t') :
      Space ('#' :: c :: (body ++ '\n' :: t)) t'

/-- An escape sequence behind its backslash, with the bytes that it stands for. -/
inductive Escape : List Char → List Char → Prop where
  | char {c e : Char} (h : escaped c = some e) : Escape [c] [e]
  | unicode {a b c d : Char} (ha : isxdigit a = true) (hb : isxdigit b = true)
      (hc : isxdigit c = true) (hd : isxdigit d = true) :
      Escape ['u', a, b, c, d]
        (utf8Bytes (((char2int a * 16 + char2int b) * 16 + char2int c) * 16 + char2int d))

inductive Chars : List Char → List Char → Prop where
  | nil : Chars [] []
  | plain {c : Char} {t s : List Char} (hprintable : ' '.toNat ≤ c.toNat) (hdelete : c ≠ '\x7f')
      (hquote : c ≠ '"') (hbackslash : c ≠ '\\') (h : Chars t s) : Chars (c :: t) (c :: s)
  | escape {u bytes t s : List Char} (hu : Escape u bytes) (h : Chars t s) :
      Chars ('\\' :: (u ++ t)) (bytes ++ s)

inductive Fraction : Option (List Char) → List Char → Prop where
  | none : Fraction none []
  | some {digits : List Char} (h : ∀ c ∈ digits, isdigit c = true) :
      Fraction (some digits) ('.' :: digits)

inductive Exponent : Option (Bool × List Char) → List Char → Prop where
  | none : Exponent none []
  | unsigned {mark : Char} {digits : List Char} (hmark : mark = 'e' ∨ mark = 'E')
      (h : ∀ c ∈ digits, isdigit c = true) : Exponent (some (true, digits)) (mark :: digits)
  | plus {mark : Char} {digits : List Char} (hmark : mark = 'e' ∨ mark = 'E')
      (h : ∀ c ∈ digits, isdigit c = true) : Exponent (some (true, digits)) (mark :: '+' :: digits)
  | minus {mark : Char} {digits : List Char} (hmark : mark = 'e' ∨ mark = 'E')
      (h : ∀ c ∈ digits, isdigit c = true) : Exponent (some (false, digits)) (mark :: '-' :: digits)

def signText (negative : Bool) : List Char := if negative then ['-'] else []

/-- A number. A fraction may have no digits, and behind a minus it may stand alone. -/
inductive Number : NumberText → List Char → Prop where
  | mk {negative : Bool} {digits f x : List Char} {fraction : Option (List Char)}
      {exponent : Option (Bool × List Char)} (hdigits : ∀ c ∈ digits, isdigit c = true)
      (hsome : digits ≠ [] ∨ negative = true ∧ fraction ≠ none) (hfraction : Fraction fraction f)
      (hexponent : Exponent exponent x) :
      Number ⟨negative, digits, fraction, exponent⟩ (signText negative ++ (digits ++ (f ++ x)))

/-- A token that is a value, and what is left of the text behind it. A string that the NUL ends has
the characters that are not overwritten. -/
inductive Token {D : Type} (toDouble : NumberText → D) :
    List Char → JsonValue D → List Char → Prop where
  | number {n : NumberText} {u r : List Char} (h : Number n u) (hr : isdelim r = true) :
      Token toDouble (u ++ r) (.number (toDouble n)) r
  | string {u s r : List Char} (h : Chars u s) (hr : isdelim r = true) :
      Token toDouble ('"' :: (u ++ '"' :: r)) (.string s) r
  | unterminated {u s : List Char} (h : Chars u s) :
      Token toDouble ('"' :: u) (.string (s ++ u.drop s.length)) []
  | true {r : List Char} (hr : isdelim r = true) :
    Token toDouble ('t' :: 'r' :: 'u' :: 'e' :: r) .true r
  | false {r : List Char} (hr : isdelim r = true) :
      Token toDouble ('f' :: 'a' :: 'l' :: 's' :: 'e' :: r) .false r
  | null {r : List Char} (hr : isdelim r = true) :
    Token toDouble ('n' :: 'u' :: 'l' :: 'l' :: r) .null r

/-! ## Space -/

theorem Space.trans {t t' t'' : List Char} (h : Space t t') (h' : Space t' t'') : Space t t'' := by
  induction h with
  | none => exact h'
  | blank hc _ ih => exact .blank hc (ih h')
  | comment hbody _ ih => exact .comment hbody (ih h')

theorem space_dropWhile (t : List Char) : Space t (t.dropWhile isspace) := by
  induction t with
  | nil => exact .none
  | cons c t ih =>
      rw [List.dropWhile_cons]
      split
      case isTrue hc => exact .blank hc ih
      case isFalse => exact .none

theorem skipComment_body {c : Char} {body t : List Char} (h : '\n' ∉ body) :
    skipComment (c :: (body ++ '\n' :: t)) = some ('\n' :: t) := by
  have hbody : ∀ d ∈ body, decide (d ≠ '\n') = true := by
    intro d hd
    exact decide_eq_true fun heq => h (heq ▸ hd)
  have hdrop : (body ++ '\n' :: t).dropWhile (· ≠ '\n') = '\n' :: t := by
    rw [List.dropWhile_append_of_pos hbody, List.dropWhile_cons, if_neg (by decide)]
  simp only [skipComment, hdrop]

/-- A comment that ends is one of the language. -/
theorem space_skipComment {s t : List Char} (h : skipComment s = some t) : Space ('#' :: s) t := by
  cases s with
  | nil => cases h
  | cons c s =>
      simp only [skipComment] at h
      split at h
      case h_1 => cases h
      case h_2 hne =>
        obtain rfl := Option.some.inj h
        have hsplit := List.takeWhile_append_dropWhile (p := fun c => decide (c ≠ '\n')) (l := s)
        cases hdrop : s.dropWhile (fun c => decide (c ≠ '\n')) with
        | nil => exact absurd hdrop hne
        | cons d t =>
            have hhead := List.head?_dropWhile_not (fun c => decide (c ≠ '\n')) s
            rw [hdrop] at hhead
            obtain rfl : d = '\n' := by simpa using hhead
            rw [hdrop] at hsplit
            rw [← hsplit]
            refine .comment ?_ .none
            intro hmem
            have hall := List.mem_takeWhile_imp hmem
            exact absurd rfl (of_decide_eq_true hall)

/-! ## Strings -/

/-- The loop over a string goes over an escape sequence. -/
theorem readString_escape {u bytes : List Char} (h : Escape u bytes) (content t : List Char) :
    readString .backslash content (u ++ t) = readString .plain (content ++ bytes) t := by
  cases h with
  | char h => simp only [List.cons_append, List.nil_append, readString, h]
  | unicode ha hb hc hd =>
      have hu : escaped 'u' = none := rfl
      simp only [List.cons_append, List.nil_append, readString, hu, ha, hb, hc, hd]
      simp

/-- The loop goes over characters, and keeps what they stand for. -/
theorem readString_chars {u s : List Char} (h : Chars u s) (content t : List Char) :
    readString .plain content (u ++ t) = readString .plain (content ++ s) t := by
  induction h generalizing content with
  | nil => rw [List.nil_append, List.append_nil]
  | plain hprintable hdelete hquote hbackslash _ ih =>
      have hbad : ¬(_ < ' '.toNat ∨ _ = '\x7f') := not_or.mpr ⟨Nat.not_lt.mpr hprintable, hdelete⟩
      rw [List.cons_append, readString, if_neg hbackslash, if_neg (by simpa using hbad),
        if_neg hquote, ih, List.append_assoc, List.singleton_append]
  | escape hu _ ih =>
      rw [List.cons_append, readString, if_pos rfl, List.append_assoc, readString_escape hu, ih,
        List.append_assoc]

theorem readString_closed {u s : List Char} (h : Chars u s) (r : List Char) :
    readString .plain [] (u ++ '"' :: r) = .closed s r := by
  rw [readString_chars h]
  rfl

theorem readString_unterminated {u s : List Char} (h : Chars u s) :
    readString .plain [] u = .unterminated s := by
  have hread := readString_chars h [] []
  rwa [List.append_nil] at hread

/-- The loop finds as many hexadecimal digits as it looks for, or fails. -/
theorem digits_or_bad (n code : Nat) (t : List Char) :
    (∃ ds t', t = ds ++ t' ∧ ds.length = n + 1 ∧ ∀ d ∈ ds, isxdigit d = true) ∨
      ∀ content, ∃ e, readString (.unicode (n + 1) code) content t = .bad e := by
  induction n generalizing code t with
  | zero =>
      cases t with
      | nil => exact .inr fun _ => ⟨[], rfl⟩
      | cons c t =>
          by_cases hc : isxdigit c = true
          · exact .inl ⟨[c], t, rfl, rfl, List.forall_mem_singleton.mpr hc⟩
          · exact .inr fun _ => ⟨c :: t, by rw [readString, if_neg hc]⟩
  | succ n ih =>
      cases t with
      | nil => exact .inr fun _ => ⟨[], rfl⟩
      | cons c t =>
          by_cases hc : isxdigit c = true
          · rcases ih (code * 16 + char2int c) t with ⟨ds, t', rfl, hlength, hds⟩ | hbad
            · exact .inl ⟨c :: ds, t', rfl, by rw [List.length_cons, hlength],
                List.forall_mem_cons.mpr ⟨hc, hds⟩⟩
            · right
              intro content
              rw [readString, if_pos hc, if_neg (by omega), Nat.add_sub_cancel]
              exact hbad content
          · exact .inr fun _ => ⟨c :: t, by rw [readString, if_neg hc]⟩

/-- Behind a backslash stands an escape sequence, or the loop fails. -/
theorem escape_or_bad (t : List Char) :
    (∃ u bytes t', t = u ++ t' ∧ Escape u bytes) ∨
      ∀ content, ∃ e, readString .backslash content t = .bad e := by
  cases t with
  | nil => exact .inr fun _ => ⟨[], rfl⟩
  | cons c t =>
      cases hc : escaped c with
      | some e => exact .inl ⟨[c], [e], t, rfl, .char hc⟩
      | none =>
          by_cases hu : c = 'u'
          · subst hu
            have hstart : ∀ content, readString .backslash content ('u' :: t) =
                readString (.unicode 4 0) content t := fun content => by
              simp only [readString, hc, if_pos]
            rcases digits_or_bad 3 0 t with ⟨ds, t', rfl, hlength, hds⟩ | hbad
            · rcases List.exists_cons_of_length_eq_add_one hlength with ⟨a, ds, rfl⟩
              rcases List.length_eq_three.mp (Nat.succ.inj hlength) with ⟨b, c, d, rfl⟩
              simp only [List.forall_mem_cons] at hds
              rcases hds with ⟨ha, hb, hc, hd, -⟩
              exact .inl ⟨_, _, t', rfl, .unicode ha hb hc hd⟩
            · right
              intro content
              rw [hstart]
              exact hbad content
          · right
            intro content
            exact ⟨c :: t, by simp only [readString, hc, if_neg hu]⟩

/-- A string has its quote, or the NUL ends it, or the loop over it fails. -/
theorem string_cases (t : List Char) :
    (∃ s, Chars t s) ∨ (∃ u s r, t = u ++ '"' :: r ∧ Chars u s) ∨
      ∀ content, ∃ e, readString .plain content t = .bad e := by
  induction hlength : t.length using Nat.strongRecOn generalizing t with
  | ind n ih =>
    subst hlength
    cases t with
    | nil => exact .inl ⟨[], .nil⟩
    | cons c t =>
        by_cases hbackslash : c = '\\'
        · subst hbackslash
          rcases escape_or_bad t with ⟨u, bytes, t', rfl, hu⟩ | hbad
          · have hshort : t'.length < ('\\' :: (u ++ t')).length := by
              rw [List.length_cons, List.length_append]
              omega
            rcases ih _ hshort t' rfl with ⟨s, hs⟩ | ⟨v, s, r, rfl, hv⟩ | hbad
            · exact .inl ⟨_, .escape hu hs⟩
            · exact .inr (.inl ⟨'\\' :: (u ++ v), bytes ++ s, r,
                by rw [List.cons_append, List.append_assoc], .escape hu hv⟩)
            · right; right
              intro content
              rw [readString, if_pos rfl, readString_escape hu]
              exact hbad _
          · right; right
            intro content
            rw [readString, if_pos rfl]
            exact hbad content
        · by_cases hcontrol : c.toNat < ' '.toNat ∨ c = ''
          · right; right
            intro content
            exact ⟨c :: t, by rw [readString, if_neg hbackslash, if_pos (by simpa using hcontrol)]⟩
          · by_cases hquote : c = '"'
            · subst hquote
              exact .inr (.inl ⟨[], [], t, rfl, .nil⟩)
            · rcases not_or.mp hcontrol with ⟨hprintable, hdelete⟩
              have hread : ∀ content, readString .plain content (c :: t) =
                  readString .plain (content ++ [c]) t := fun content => by
                rw [readString, if_neg hbackslash, if_neg (by simpa using hcontrol), if_neg hquote]
              rcases ih _ (Nat.lt_succ_self _) t rfl with ⟨s, hs⟩ | ⟨u, s, r, rfl, hu⟩ | hbad
              · exact .inl ⟨c :: s, .plain (Nat.not_lt.mp hprintable) hdelete hquote hbackslash hs⟩
              · exact .inr (.inl ⟨c :: u, c :: s, r, rfl,
                  .plain (Nat.not_lt.mp hprintable) hdelete hquote hbackslash hu⟩)
              · right; right
                intro content
                rw [hread]
                exact hbad _

/-! ## Numbers -/

def numeral (c : Char) : Bool :=
  isdigit c || c = '.' || c = 'e' || c = 'E' || c = '+' || c = '-'

def StartsWithout (p : Char → Bool) (s : List Char) : Prop := ∀ c ∈ s.head?, p c = false

theorem StartsWithout.imp {p q : Char → Bool} {s : List Char} (h : StartsWithout q s)
    (himp : ∀ c, p c = true → q c = true) : StartsWithout p s := by
  intro c hc
  have hq := h c hc
  cases hp : p c with
  | false => rfl
  | true =>
      rw [himp c hp] at hq
      cases hq

theorem startsWithout_cons {p : Char → Bool} {c : Char} (h : p c = false) (s : List Char) :
    StartsWithout p (c :: s) := by
  intro d hd
  obtain rfl := Option.some.inj hd
  exact h

theorem numeral_of_isspace {c : Char} (h : isspace c = true) : numeral c = false := by
  have hbound : c.toNat ≤ ' '.toNat := by
    simp only [isspace, Bool.or_eq_true, decide_eq_true_eq, Bool.and_eq_true] at h
    rcases h with rfl | ⟨-, h⟩
    · exact Nat.le_refl _
    · exact Nat.le_trans h (by decide)
  have hlow : ∀ d : Char, ' '.toNat < d.toNat → c ≠ d := by
    rintro d hd rfl
    omega
  have hdigit : isdigit c = false := by
    have hlt : ¬ '0' ≤ c := fun hle => absurd (Nat.le_trans hle hbound) (by decide)
    rw [isdigit, decide_eq_false hlt, Bool.false_and]
  simp [numeral, hdigit, hlow '.' (by decide), hlow 'e' (by decide), hlow 'E' (by decide),
    hlow '+' (by decide), hlow '-' (by decide)]

theorem startsWithout_of_isdelim {r : List Char} (h : isdelim r = true) :
    StartsWithout numeral r := by
  cases r with
  | nil => exact fun c hc => nomatch hc
  | cons c r =>
      apply startsWithout_cons
      simp only [isdelim, Bool.or_eq_true, decide_eq_true_eq] at h
      rcases h with (((rfl | rfl) | rfl) | rfl) | hspace
      · decide
      · decide
      · decide
      · decide
      · exact numeral_of_isspace hspace

theorem numeral_of_isdigit {c : Char} (h : isdigit c = true) : numeral c = true := by
  simp [numeral, h]

theorem readDigits_append {ds s : List Char} (hds : ∀ c ∈ ds, isdigit c = true)
    (hs : StartsWithout isdigit s) : readDigits (ds ++ s) = (ds, s) := by
  have hstop : s.takeWhile isdigit = [] ∧ s.dropWhile isdigit = s := by
    cases s with
    | nil => exact ⟨rfl, rfl⟩
    | cons c s =>
        have hc := hs c rfl
        rw [List.takeWhile_cons, List.dropWhile_cons, hc]
        exact ⟨rfl, rfl⟩
  rw [readDigits, List.takeWhile_append_of_pos hds, List.dropWhile_append_of_pos hds,
    hstop.1, hstop.2, List.append_nil]

theorem readSign_append {negative : Bool} {s : List Char}
    (hs : negative = true ∨ StartsWithout (· = '-') s) :
    readSign (signText negative ++ s) = (negative, s) := by
  cases negative with
  | true => rfl
  | false =>
      rw [signText, if_neg Bool.false_ne_true, List.nil_append]
      unfold readSign
      split
      case h_1 s =>
        rcases hs with hs | hs
        · cases hs
        · exact absurd (hs '-' rfl) (by decide)
      case h_2 => rfl

theorem readFraction_append {fraction : Option (List Char)} {f s : List Char}
    (h : Fraction fraction f) (hs : StartsWithout (fun c => isdigit c || c = '.') s) :
    readFraction (f ++ s) = (fraction, s) := by
  have hdigit : StartsWithout isdigit s := hs.imp fun c hc => by simp [hc]
  cases h with
  | none =>
      rw [List.nil_append]
      unfold readFraction
      split
      case h_1 => exact absurd (hs '.' rfl) (by decide)
      case h_2 => rfl
  | some h =>
      have hread := readDigits_append h hdigit
      simp only [List.cons_append, readFraction, hread]

theorem isdigit_ne {c : Char} (h : isdigit c = true) (d : Char)
    (hd : isdigit d = false) : c ≠ d := by
  rintro rfl
  rw [h] at hd
  cases hd

theorem startsWithout_digits {p : Char → Bool} {ds s : List Char}
    (hds : ∀ c ∈ ds, isdigit c = true) (hp : ∀ c, isdigit c = true → p c = false)
    (hs : StartsWithout p s) : StartsWithout p (ds ++ s) := by
  cases ds with
  | nil => exact hs
  | cons d ds => exact startsWithout_cons (hp d (hds d List.mem_cons_self)) _

theorem readExponentSign_unsigned {s : List Char}
    (h : StartsWithout (fun c => c = '+' || c = '-') s) : readExponentSign s = (true, s) := by
  unfold readExponentSign
  split
  case h_1 => exact absurd (h '+' rfl) (by decide)
  case h_2 => exact absurd (h '-' rfl) (by decide)
  case h_3 => rfl

theorem readPower_append {digits s : List Char} (h : ∀ c ∈ digits, isdigit c = true)
    (hs : StartsWithout isdigit s) {t : List Char} {base : Bool}
    (hsign : readExponentSign t = (base, digits ++ s)) :
    readPower t = (some (base, digits), s) := by
  simp only [readPower, hsign, readDigits_append h hs]

theorem readExponent_append {exponent : Option (Bool × List Char)} {x r : List Char}
    (h : Exponent exponent x) (hr : StartsWithout numeral r) :
    readExponent (x ++ r) = (exponent, r) := by
  have hdigit : StartsWithout isdigit r := hr.imp fun c hc => numeral_of_isdigit hc
  have hmark : ∀ {mark : Char} {t : List Char}, mark = 'e' ∨ mark = 'E' →
      readExponent (mark :: t) = readPower t := by
    rintro mark t (rfl | rfl)
    · rfl
    · rfl
  cases h with
  | none =>
      rw [List.nil_append]
      unfold readExponent
      split
      case h_1 => exact absurd (hr 'e' rfl) (by decide)
      case h_2 => exact absurd (hr 'E' rfl) (by decide)
      case h_3 => rfl
  | @unsigned mark digits he h =>
      rw [List.cons_append, hmark he]
      apply readPower_append h hdigit
      apply readExponentSign_unsigned
      apply startsWithout_digits h
      · exact fun c hc => by simp [isdigit_ne hc '+' (by decide), isdigit_ne hc '-' (by decide)]
      · apply hr.imp
        intro c hc
        simp only [Bool.or_eq_true] at hc
        simp only [numeral, Bool.or_eq_true]
        exact hc.elim (fun h => .inl (.inr h)) .inr
  | plus he h =>
      rw [List.cons_append, hmark he]
      exact readPower_append h hdigit rfl
  | minus he h =>
      rw [List.cons_append, hmark he]
      exact readPower_append h hdigit rfl

/-- The head of what stands behind the digits of a number. -/
theorem startsWithout_fraction {p : Char → Bool} {fraction : Option (List Char)} {f s : List Char}
    (h : Fraction fraction f) (hpoint : p '.' = false) (hs : StartsWithout p s) :
    StartsWithout p (f ++ s) := by
  cases h with
  | none => exact hs
  | some _ => exact startsWithout_cons hpoint _

theorem startsWithout_exponent {p : Char → Bool} {exponent : Option (Bool × List Char)}
    {x s : List Char} (h : Exponent exponent x) (hmark : p 'e' = false ∧ p 'E' = false)
    (hs : StartsWithout p s) : StartsWithout p (x ++ s) := by
  have hcons : ∀ {mark : Char}, mark = 'e' ∨ mark = 'E' → ∀ t, StartsWithout p (mark :: t) := by
    rintro mark (rfl | rfl) t
    · exact startsWithout_cons hmark.1 t
    · exact startsWithout_cons hmark.2 t
  cases h with
  | none => exact hs
  | unsigned he _ => exact hcons he _
  | plus he _ => exact hcons he _
  | minus he _ => exact hcons he _

/-- `string2double` reads a number up to the delimiter behind it. -/
theorem string2double_number {n : NumberText} {u r : List Char} (h : Number n u)
    (hr : isdelim r = true) : string2double (u ++ r) = (n, r) := by
  cases h with
  | @mk negative digits f x fraction exponent hdigits hsome hfraction hexponent =>
    have hend := startsWithout_of_isdelim hr
    have hexponent' : readExponent (x ++ r) = (exponent, r) := readExponent_append hexponent hend
    have hfraction' : readFraction (f ++ (x ++ r)) = (fraction, x ++ r) := by
      apply readFraction_append hfraction
      apply startsWithout_exponent hexponent ⟨by decide, by decide⟩
      exact hend.imp fun c hc => by
        simp only [Bool.or_eq_true] at hc
        rcases hc with hc | hc
        · exact numeral_of_isdigit hc
        · simp [numeral, of_decide_eq_true hc]
    have hdigits' : readDigits (digits ++ (f ++ (x ++ r))) = (digits, f ++ (x ++ r)) := by
      apply readDigits_append hdigits
      apply startsWithout_fraction hfraction (by decide)
      apply startsWithout_exponent hexponent ⟨by decide, by decide⟩
      exact hend.imp fun c hc => numeral_of_isdigit hc
    have hsign : readSign (signText negative ++ (digits ++ (f ++ (x ++ r)))) =
        (negative, digits ++ (f ++ (x ++ r))) := by
      apply readSign_append
      cases negative with
      | true => exact .inl rfl
      | false =>
          right
          rcases hsome with hsome | ⟨hneg, -⟩
          · cases digits with
            | nil => exact absurd rfl hsome
            | cons d digits =>
                have hd := isdigit_ne (hdigits d List.mem_cons_self) '-' (by decide)
                exact startsWithout_cons (decide_eq_false hd) _
          · cases hneg
    simp only [List.append_assoc, string2double, hsign, hdigits', hfraction', hexponent']

theorem readDigits_split (s : List Char) :
    s = (readDigits s).1 ++ (readDigits s).2 ∧ ∀ c ∈ (readDigits s).1, isdigit c = true :=
  ⟨List.takeWhile_append_dropWhile.symm, fun _ hc => List.mem_takeWhile_imp hc⟩

theorem readSign_split (s : List Char) : s = signText (readSign s).1 ++ (readSign s).2 := by
  unfold readSign
  split
  case h_1 => rfl
  case h_2 => rfl

theorem readFraction_split (s : List Char) :
    ∃ f, s = f ++ (readFraction s).2 ∧ Fraction (readFraction s).1 f := by
  unfold readFraction
  split
  case h_1 s =>
    have hsplit := readDigits_split s
    refine ⟨'.' :: (readDigits s).1, ?_, .some hsplit.2⟩
    rw [List.cons_append, ← hsplit.1]
  case h_2 => exact ⟨[], rfl, .none⟩

theorem readPower_split {mark : Char} (hmark : mark = 'e' ∨ mark = 'E') (s : List Char) :
    ∃ x, mark :: s = x ++ (readPower s).2 ∧ Exponent (readPower s).1 x := by
  unfold readPower readExponentSign
  split
  case h_1 s =>
    have hsplit := readDigits_split s
    refine ⟨mark :: '+' :: (readDigits s).1, ?_, .plus hmark hsplit.2⟩
    rw [List.cons_append, List.cons_append, ← hsplit.1]
  case h_2 s =>
    have hsplit := readDigits_split s
    refine ⟨mark :: '-' :: (readDigits s).1, ?_, .minus hmark hsplit.2⟩
    rw [List.cons_append, List.cons_append, ← hsplit.1]
  case h_3 =>
    have hsplit := readDigits_split s
    refine ⟨mark :: (readDigits s).1, ?_, .unsigned hmark hsplit.2⟩
    rw [List.cons_append, ← hsplit.1]

theorem readExponent_split (s : List Char) :
    ∃ x, s = x ++ (readExponent s).2 ∧ Exponent (readExponent s).1 x := by
  unfold readExponent
  split
  case h_1 s => exact readPower_split (.inl rfl) s
  case h_2 s => exact readPower_split (.inr rfl) s
  case h_3 => exact ⟨[], rfl, .none⟩

def startsNumber : List Char → Bool
  | '-' :: c :: _ => isdigit c || c = '.'
  | c :: _ => isdigit c
  | [] => false

theorem readDigits_ne_nil {c : Char} (h : isdigit c = true) (s : List Char) :
    (readDigits (c :: s)).1 ≠ [] := by
  rw [readDigits, List.takeWhile_cons, if_pos h]
  exact List.cons_ne_nil _ _

theorem number_nonempty {t : List Char} (h : startsNumber t = true) :
    (string2double t).1.digits ≠ [] ∨
      (string2double t).1.negative = true ∧ (string2double t).1.fraction ≠ none := by
  unfold startsNumber at h
  split at h
  case h_1 c s =>
    rcases (Bool.or_eq_true _ _).mp h with hc | hc
    · exact .inl (readDigits_ne_nil hc s)
    · obtain rfl := of_decide_eq_true hc
      exact .inr ⟨rfl, Option.some_ne_none _⟩
  case h_2 c s _ =>
    left
    have hsign := @readSign_append false (c :: s)
      (.inr (startsWithout_cons (decide_eq_false (isdigit_ne h '-' (by decide))) s))
    have hsign' : readSign (c :: s) = (false, c :: s) := hsign
    simp only [string2double, hsign']
    exact readDigits_ne_nil h s
  case h_3 => cases h

/-- What `string2double` reads is a number. -/
theorem number_of_string2double {t : List Char} (h : startsNumber t = true) :
    ∃ u, t = u ++ (string2double t).2 ∧ Number (string2double t).1 u := by
  have hsign := readSign_split t
  have hdigits := readDigits_split (readSign t).2
  rcases readFraction_split (readDigits (readSign t).2).2 with ⟨f, hf, hfraction⟩
  rcases readExponent_split (readFraction (readDigits (readSign t).2).2).2 with ⟨x, hx, hexponent⟩
  refine ⟨_, ?_, .mk hdigits.2 (number_nonempty h) hfraction hexponent⟩
  rw [List.append_assoc, List.append_assoc, List.append_assoc]
  simp only [string2double]
  rw [← hx, ← hf, ← hdigits.1, ← hsign]

theorem startsNumber_head {c : Char} {s : List Char} (h : startsNumber (c :: s) = true) :
    c = '-' ∨ isdigit c = true := by
  unfold startsNumber at h
  split at h
  case h_1 heq =>
    obtain ⟨rfl, -⟩ := List.cons.inj heq
    exact .inl rfl
  case h_2 heq =>
    obtain ⟨rfl, -⟩ := List.cons.inj heq
    exact .inr h
  case h_3 heq => cases heq

theorem startsNumber_digits {ds s : List Char} (hds : ∀ c ∈ ds, isdigit c = true) (hne : ds ≠ []) :
    startsNumber (ds ++ s) = true ∧ startsNumber ('-' :: (ds ++ s)) = true := by
  cases ds with
  | nil => exact absurd rfl hne
  | cons d ds =>
      have hd := hds d List.mem_cons_self
      constructor
      · unfold startsNumber
        split
        case h_1 heq =>
          obtain ⟨rfl, -⟩ := List.cons.inj heq
          exact absurd hd (by decide)
        case h_2 heq =>
          obtain ⟨rfl, -⟩ := List.cons.inj heq
          exact hd
        case h_3 heq => cases heq
      · simp only [List.cons_append, startsNumber, hd, Bool.true_or]

theorem startsNumber_number {n : NumberText} {u : List Char} (h : Number n u) (r : List Char) :
    startsNumber (u ++ r) = true := by
  cases h with
  | @mk negative digits f x fraction exponent hdigits hsome hfraction hexponent =>
    by_cases hne : digits = []
    · subst hne
      rcases hsome with hsome | ⟨rfl, hfraction'⟩
      · exact absurd rfl hsome
      · cases hfraction with
        | none => exact absurd rfl hfraction'
        | some _ => rfl
    · have hstart := @startsNumber_digits digits (f ++ x ++ r) hdigits hne
      simp only [List.append_assoc] at hstart ⊢
      cases negative with
      | true => exact hstart.2
      | false => exact hstart.1

/-! ## The round at a token -/

section

variable {D : Type} {toDouble : NumberText → D} {allocates : Nat → Bool} {st : ParseState D}

theorem token_number {c : Char} {s : List Char} (h : startsNumber (c :: s) = true) :
    st.token toDouble allocates c s = st.number toDouble allocates (c :: s) := by
  by_cases hc : c = '-'
  · subst hc
    cases s with
    | nil => exact absurd h (by decide)
    | cons d s =>
        have hd : (isdigit d || d = '.') = true := h
        simp only [ParseState.token, ParseState.minus, hd, if_true]
  · have hdigit : isdigit c = true := (startsNumber_head h).resolve_left hc
    unfold ParseState.token
    split
    case h_12 => rw [if_pos hdigit]
    all_goals exact absurd hdigit (by decide)

/-- At a token, the value is what the round takes. -/
theorem token_value {t r : List Char} {o : JsonValue D} (h : Token toDouble t o r) :
    ∃ c s, t = c :: s ∧ isspace c = false ∧ c ≠ '#' ∧
      ∀ st : ParseState D, st.token toDouble allocates c s = st.value allocates o r := by
  cases h with
  | @number n u _ h hr =>
      have hstart := startsNumber_number h r
      have hread := string2double_number h hr
      cases ht : u ++ r with
      | nil =>
          rw [ht] at hstart
          cases hstart
      | cons c s =>
          rw [ht] at hstart hread
          have hnumeral : numeral c = true := by
            rcases startsNumber_head hstart with rfl | hc
            · rfl
            · exact numeral_of_isdigit hc
          refine ⟨c, s, rfl, ?_, ?_, ?_⟩
          · cases hspace : isspace c with
            | false => rfl
            | true => rw [numeral_of_isspace hspace] at hnumeral; cases hnumeral
          · rintro rfl
            cases hnumeral
          intro st
          simp only [token_number hstart, ParseState.number, hread, hr, if_true]
  | string h hr =>
      refine ⟨'"', _, rfl, by decide, by decide, ?_⟩
      intro st
      simp only [ParseState.token, ParseState.string, readString_closed h, hr, if_true]
  | unterminated h =>
      refine ⟨'"', _, rfl, by decide, by decide, ?_⟩
      intro st
      simp only [ParseState.token, ParseState.string, readString_unterminated h]
  | true hr =>
      refine ⟨'t', _, rfl, by decide, by decide, ?_⟩
      intro st
      simp [ParseState.token, ParseState.identifier, hr]
  | false hr =>
      refine ⟨'f', _, rfl, by decide, by decide, ?_⟩
      intro st
      simp [ParseState.token, ParseState.identifier, hr]
  | null hr =>
      refine ⟨'n', _, rfl, by decide, by decide, ?_⟩
      intro st
      simp [ParseState.token, ParseState.identifier, hr]

end

end KoheronServer.Config
