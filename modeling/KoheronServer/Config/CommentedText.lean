import KoheronServer.Config.Comments
import KoheronServer.Config.Keys

/-!
# A text with comments

A configuration text and the same text with comments in it, at its start and behind
white space, brackets, commas and colons. `jsonParse` finds the same value in both
where it swallows no line.
-/

namespace KoheronServer.Config

open Foundation

/-- Where a character of a text stands: outside of the strings, in one, behind a backslash in one,
or in a comment. -/
inductive TextMode where
  | text
  | string
  | escape
  | comment

def TextMode.next : TextMode → Char → TextMode
  | text, c => if c = '"' then string else if c = '#' then comment else text
  | string, c => if c = '\\' then escape else if c = '"' then text else string
  | escape, _ => string
  | comment, c => if c = '\n' then text else comment

def allowsComment (c : Char) : Bool :=
  isspace c || c = '[' || c = ']' || c = '{' || c = '}' || c = ',' || c = ':'

/-- A text and the same text with comments. The flag says whether one may stand at its head. -/
inductive Commented : TextMode → Bool → List Char → List Char → Prop where
  | nil (mode : TextMode) (b : Bool) : Commented mode b [] []
  | comment {t t' body : List Char} (hbody : ∀ c ∈ body, c ≠ '\n' ∧ c ≠ '\x00')
      (h : Commented .text true t t') : Commented .text true t ('#' :: (body ++ '\n' :: t'))
  | cons {mode : TextMode} {b : Bool} {c : Char} {t t' : List Char}
      (h : Commented (mode.next c) (allowsComment c) t t') : Commented mode b (c :: t) (c :: t')

namespace Commented

variable {u u' : List Char}

/-- Where no comment may stand the two texts go on with the same character. -/
theorem head_of_none {mode : TextMode} {b : Bool} (h : Commented mode b u u')
    (hnone : mode = .text → b = false) :
    (u = [] ∧ u' = []) ∨ ∃ c s s', u = c :: s ∧ u' = c :: s' ∧
      Commented (mode.next c) (allowsComment c) s s' := by
  cases h with
  | nil => exact .inl ⟨rfl, rfl⟩
  | comment => exact absurd (hnone rfl) (by decide)
  | cons h => exact .inr ⟨_, _, _, rfl, rfl, h⟩

theorem head (h : Commented .text false u u') :
    (u = [] ∧ u' = []) ∨ ∃ c s s', u = c :: s ∧ u' = c :: s' ∧
      Commented (TextMode.text.next c) (allowsComment c) s s' :=
  h.head_of_none fun _ => rfl

theorem isdelim_eq (h : Commented .text false u u') : isdelim u' = isdelim u := by
  rcases h.head with ⟨rfl, rfl⟩ | ⟨c, s, s', rfl, rfl, -⟩
  · rfl
  · rfl

/-- What a parser finds behind the white space and the comments of both. -/
theorem skipBlank_eq {mode : TextMode} {b : Bool} (h : Commented mode b u u') :
    (mode = .text → skipBlank false u = [] ∨ ∃ c s s', skipBlank false u = c :: s ∧
      skipBlank false u' = c :: s' ∧ Commented (TextMode.text.next c) (allowsComment c) s s') ∧
    (mode = .comment → skipBlank true u = [] ∨ ∃ c s s', skipBlank true u = c :: s ∧
      skipBlank true u' = c :: s' ∧ Commented (TextMode.text.next c) (allowsComment c) s s') := by
  induction h with
  | nil mode b => exact ⟨fun _ => .inl rfl, fun _ => .inl rfl⟩
  | @comment t t' body hbody h ih =>
      refine ⟨fun _ => ?_, fun heq => nomatch heq⟩
      have hskip : skipBlank false ('#' :: (body ++ '\n' :: t')) = skipBlank false t' :=
        skipBlank_body (fun c hc => (hbody c hc).1) t'
      rw [hskip]
      exact ih.1 rfl
  | @cons mode b c t t' h ih =>
      refine ⟨fun hmode => ?_, fun hmode => ?_⟩
      · subst hmode
        by_cases hspace : isspace c = true
        · have hnext : TextMode.text.next c = .text := by
            have hquote : c ≠ '"' := by
              rintro rfl
              cases hspace
            have hhash : c ≠ '#' := by
              rintro rfl
              cases hspace
            rw [TextMode.next, if_neg hquote, if_neg hhash]
          rw [skipBlank, skipBlank, if_pos hspace, if_pos hspace]
          exact ih.1 hnext
        · by_cases hhash : c = '#'
          · subst hhash
            exact ih.2 rfl
          · rw [skipBlank, skipBlank, if_neg hspace, if_neg hspace, if_neg hhash, if_neg hhash]
            exact .inr ⟨c, t, t', rfl, rfl, h⟩
      · subst hmode
        by_cases hnewline : c = '\n'
        · subst hnewline
          exact ih.1 rfl
        · rw [skipBlank, skipBlank, if_neg hnewline, if_neg hnewline]
          refine ih.2 ?_
          rw [TextMode.next, if_neg hnewline]

end Commented

/-! ## Tokens -/

def plain (c : Char) : Bool := !(allowsComment c || c = '"' || c = '#')

theorem Commented.plain_cons {c : Char} (hc : plain c = true) {s s' : List Char}
    (h : Commented (TextMode.text.next c) (allowsComment c) s s') : Commented .text false s s' := by
  simp only [plain, Bool.not_eq_true', Bool.or_eq_false_iff, decide_eq_false_iff_not] at hc
  obtain ⟨⟨hallows, hquote⟩, hhash⟩ := hc
  rwa [hallows, TextMode.next, if_neg hquote, if_neg hhash] at h

/-- A reader of some characters finds the same in a text with comments. -/
def ReadsSame {α : Type} (read : List Char → α × List Char) : Prop :=
  ∀ u u', Commented .text false u u' →
    (read u').1 = (read u).1 ∧ Commented .text false (read u).2 (read u').2

theorem isdigit_plain {c : Char} (h : isdigit c = true) : plain c = true := by
  have hrange := h
  simp only [isdigit, Bool.and_eq_true, decide_eq_true_eq] at hrange
  have hspace : ¬c ≤ '\r' := by
    intro hle
    have hbound : '0' ≤ '\r' := Char.le_trans hrange.1 hle
    exact absurd hbound (by decide)
  have hne : ∀ d, isdigit d = false → c ≠ d := by
    rintro d hd rfl
    rw [h] at hd
    cases hd
  simp [plain, allowsComment, isspace, hspace, hne ' ' rfl, hne '[' rfl, hne ']' rfl, hne '{' rfl,
    hne '}' rfl, hne ',' rfl, hne ':' rfl, hne '"' rfl, hne '#' rfl]

theorem readDigits_same : ReadsSame readDigits := by
  intro u u' h
  induction u generalizing u' with
  | nil =>
      rcases h.head with ⟨-, rfl⟩ | ⟨c, s, s', heq, -⟩
      · exact ⟨rfl, .nil _ _⟩
      · cases heq
  | cons c s ih =>
      rcases h.head with ⟨heq, -⟩ | ⟨c', s₁, s', heq, rfl, hs⟩
      · cases heq
      · obtain ⟨rfl, rfl⟩ := List.cons.inj heq
        by_cases hdigit : isdigit c = true
        · obtain ⟨hfirst, hrest⟩ := ih s' (hs.plain_cons (isdigit_plain hdigit))
          have hread : ∀ s, readDigits (c :: s) = (c :: (readDigits s).1, (readDigits s).2) := by
            intro s
            simp [readDigits, hdigit]
          rw [hread, hread]
          exact ⟨congrArg (List.cons c) hfirst, hrest⟩
        · have hread : ∀ s, readDigits (c :: s) = ([], c :: s) := by
            intro s
            simp [readDigits, hdigit]
          rw [hread, hread]
          exact ⟨rfl, h⟩

/-- A reader that looks at the first character, and leaves the text alone where it is another
one. -/
theorem readsSame_of_first {α : Type} {read : List Char → α × List Char} (marks : List Char)
    (hplain : marks.all plain = true) (none : α) (hnil : read [] = (none, []))
    (hother : ∀ c s, c ∉ marks → read (c :: s) = (none, c :: s))
    (hmark : ∀ c ∈ marks, ReadsSame fun s => read (c :: s)) : ReadsSame read := by
  intro u u' h
  rcases h.head with ⟨rfl, rfl⟩ | ⟨c, s, s', rfl, rfl, hs⟩
  · rw [hnil]
    exact ⟨rfl, h⟩
  · by_cases hc : c ∈ marks
    · exact hmark c hc s s' (hs.plain_cons (List.all_eq_true.mp hplain c hc))
    · rw [hother c s hc, hother c s' hc]
      exact ⟨rfl, h⟩

theorem ReadsSame.bind {α β γ : Type} {read : List Char → α × List Char}
    {read' : List Char → β × List Char} (f : α → β → γ) (h : ReadsSame read)
    (h' : ReadsSame read') :
    ReadsSame fun s => (f (read s).1 (read' (read s).2).1, (read' (read s).2).2) := by
  intro u u' hu
  obtain ⟨hfirst, hrest⟩ := h u u' hu
  obtain ⟨hsecond, hrest'⟩ := h' _ _ hrest
  refine ⟨?_, hrest'⟩
  dsimp only
  rw [hfirst, hsecond]

theorem readsSame_nothing {α : Type} (a : α) : ReadsSame fun s => (a, s) :=
  fun _ _ h => ⟨rfl, h⟩

theorem readSign_same : ReadsSame readSign := by
  refine readsSame_of_first ['-'] rfl false rfl (fun c s hc => ?_) fun c hc => ?_
  · unfold readSign
    split
    case h_1 heq =>
      obtain ⟨rfl, -⟩ := List.cons.inj heq
      exact absurd List.mem_cons_self hc
    case h_2 => rfl
  · obtain rfl := List.mem_singleton.mp hc
    exact readsSame_nothing true

theorem readExponentSign_same : ReadsSame readExponentSign := by
  refine readsSame_of_first ['+', '-'] rfl true rfl (fun c s hc => ?_) fun c hc => ?_
  · unfold readExponentSign
    split
    case h_1 heq =>
      obtain ⟨rfl, -⟩ := List.cons.inj heq
      exact absurd List.mem_cons_self hc
    case h_2 heq =>
      obtain ⟨rfl, -⟩ := List.cons.inj heq
      exact absurd (by decide) hc
    case h_3 => rfl
  · simp only [List.mem_cons, List.not_mem_nil, or_false] at hc
    rcases hc with rfl | rfl
    · exact readsSame_nothing true
    · exact readsSame_nothing false

theorem readFraction_same : ReadsSame readFraction := by
  refine readsSame_of_first ['.'] rfl none rfl (fun c s hc => ?_) fun c hc => ?_
  · unfold readFraction
    split
    case h_1 heq =>
      obtain ⟨rfl, -⟩ := List.cons.inj heq
      exact absurd List.mem_cons_self hc
    case h_2 => rfl
  · obtain rfl := List.mem_singleton.mp hc
    exact readDigits_same.bind (fun digits _ => some digits) (readsSame_nothing ())

theorem readPower_same : ReadsSame readPower :=
  readExponentSign_same.bind (fun sign digits => some (sign, digits)) readDigits_same

theorem readExponent_same : ReadsSame readExponent := by
  refine readsSame_of_first ['e', 'E'] rfl none rfl (fun c s hc => ?_) fun c hc => ?_
  · unfold readExponent
    split
    case h_1 heq =>
      obtain ⟨rfl, -⟩ := List.cons.inj heq
      exact absurd List.mem_cons_self hc
    case h_2 heq =>
      obtain ⟨rfl, -⟩ := List.cons.inj heq
      exact absurd (by decide) hc
    case h_3 => rfl
  · simp only [List.mem_cons, List.not_mem_nil, or_false] at hc
    rcases hc with rfl | rfl
    · exact readPower_same
    · exact readPower_same

theorem string2double_same : ReadsSame string2double := by
  have hdigits := readSign_same.bind Prod.mk readDigits_same
  have hfraction := hdigits.bind Prod.mk readFraction_same
  exact hfraction.bind
    (fun x exponent => NumberText.mk x.1.1 x.1.2 x.2 exponent) readExponent_same

/-! ## Strings and identifiers -/

def StringMode.textMode : StringMode → TextMode
  | .plain => .string
  | .backslash => .escape
  | .unicode _ _ => .string

theorem isxdigit_next {c : Char} (h : isxdigit c = true) : TextMode.string.next c = .string := by
  have hbackslash : c ≠ '\\' := by
    rintro rfl
    cases h
  have hquote : c ≠ '"' := by
    rintro rfl
    cases h
  rw [TextMode.next, if_neg hbackslash, if_neg hquote]

inductive StringEnd.Matches (u u' : List Char) : StringEnd → StringEnd → Prop where
  | closed {content rest rest' : List Char} (h : Commented .text false rest rest') :
      Matches u u' (.closed content rest) (.closed content rest')
  | unterminated {content : List Char} (h : u' = u) :
      Matches u u' (.unterminated content) (.unterminated content)
  | bad {endptr endptr' : List Char} : Matches u u' (.bad endptr) (.bad endptr')

theorem StringEnd.Matches.cons {c : Char} {u u' : List Char} {r r' : StringEnd}
    (h : Matches u u' r r') : Matches (c :: u) (c :: u') r r' := by
  cases h with
  | closed h => exact .closed h
  | unterminated h => exact .unterminated (congrArg _ h)
  | bad => exact .bad

/-- A string is the same with comments behind it. One that no quote ends leaves no place for
them. -/
theorem readString_matches {mode : StringMode} {b : Bool} {content u u' : List Char}
    (h : Commented mode.textMode b u u') :
    (readString mode content u).Matches u u' (readString mode content u') := by
  have hnone : ∀ {mode : StringMode} {b : Bool}, mode.textMode = .text → b = false := by
    intro mode b
    cases mode <;> exact fun heq => nomatch heq
  induction u generalizing mode b content u' with
  | nil =>
      rcases h.head_of_none hnone with ⟨-, rfl⟩ | ⟨c, s, s', heq, -⟩
      · cases mode with
        | plain => exact .unterminated rfl
        | backslash => exact .bad
        | unicode => exact .bad
      · cases heq
  | cons c s ih =>
      rcases h.head_of_none hnone with ⟨heq, -⟩ | ⟨c', s₁, s', heq, rfl, hs⟩
      · cases heq
      · obtain ⟨rfl, rfl⟩ := List.cons.inj heq
        have hround : ∀ mode' content', mode.textMode.next c = StringMode.textMode mode' →
            (readString mode' content' s).Matches (c :: s) (c :: s')
              (readString mode' content' s') :=
          fun mode' content' hmode => .cons (ih (hmode ▸ hs))
        cases mode with
        | plain =>
            simp only [readString]
            split_ifs with hbackslash hcontrol hquote
            · refine hround .backslash content ?_
              rw [hbackslash]
              rfl
            · exact .bad
            · subst hquote
              exact .closed hs
            · refine hround .plain (content ++ [c]) ?_
              exact (if_neg hbackslash).trans (if_neg hquote)
        | backslash =>
            simp only [readString]
            split
            · exact hround .plain _ rfl
            · split_ifs
              · exact hround (.unicode 4 0) content rfl
              · exact .bad
        | unicode left code =>
            simp only [readString]
            split_ifs with hdigit
            · exact hround .plain _ (isxdigit_next hdigit)
            · exact hround (.unicode _ _) content (isxdigit_next hdigit)
            · exact .bad

theorem Commented.isPrefixOf_eq {name : List Char} (hname : name.all plain = true)
    {u u' : List Char} (h : Commented .text false u u') :
    name.isPrefixOf u' = name.isPrefixOf u ∧
      (name.isPrefixOf u = true →
        Commented .text false (u.drop name.length) (u'.drop name.length)) := by
  induction name generalizing u u' with
  | nil => exact ⟨rfl, fun _ => h⟩
  | cons c name ih =>
      rcases h.head with ⟨rfl, rfl⟩ | ⟨d, s, s', rfl, rfl, hs⟩
      · exact ⟨rfl, fun heq => nomatch heq⟩
      · by_cases hd : c = d
        · subst hd
          obtain ⟨hplain, hname⟩ := (Bool.and_eq_true _ _).mp hname
          obtain ⟨hstart, hdrop⟩ := ih hname (hs.plain_cons hplain)
          have hcons : ∀ s, (c :: name).isPrefixOf (c :: s) = name.isPrefixOf s := by
            intro s
            exact List.isPrefixOf_cons_cons_self
          rw [hcons, hcons]
          exact ⟨hstart, hdrop⟩
        · have hcons : ∀ s, (c :: name).isPrefixOf (d :: s) = false := by
            intro s
            simp [List.isPrefixOf_cons_cons, hd]
          rw [hcons, hcons]
          exact ⟨rfl, fun heq => nomatch heq⟩

/-! ## A round -/

section

variable {D : Type}

/-- Rounds at a text and at the same text with comments: both end with the value, or both go on with
the same stack. What the second does where the first finds an error is left open. -/
inductive RoundsMatch : ParseResult D ⊕ ParseState D → ParseResult D ⊕ ParseState D → Prop where
  | ok {v : JsonValue D} {endptr endptr' : List Char} :
      RoundsMatch (.inl (.ok v endptr)) (.inl (.ok v endptr'))
  | error {errno : JsonErrno} {endptr : List Char} {r : ParseResult D ⊕ ParseState D} :
      RoundsMatch (.inl (.error errno endptr)) r
  | overread {r : ParseResult D ⊕ ParseState D} : RoundsMatch (.inl .overread) r
  | round {st : ParseState D} {b : Bool} {rest' endptr' : List Char}
      (h : Commented .text b st.rest rest') :
      RoundsMatch (.inr st) (.inr { st with rest := rest', endptr := endptr' })

namespace ParseState

variable {toDouble : NumberText → D} {allocates : Nat → Bool} {st : ParseState D}
  {rest' endptr' s s' : List Char} {b : Bool}

theorem value_matches (o : JsonValue D) (h : Commented .text b s s') :
    RoundsMatch (st.value allocates o s)
      ({ st with rest := rest', endptr := endptr' }.value allocates o s') := by
  simp only [value]
  split
  · exact .ok
  · split
    · exact .round h
    · exact .error
  · split
    · exact .round h
    · exact .error
  · split
    · exact .round h
    · exact .error

theorem number_matches (h : Commented .text false s s') :
    RoundsMatch (st.number toDouble allocates s)
      ({ st with rest := rest', endptr := endptr' }.number toDouble allocates s') := by
  obtain ⟨htext, hrest⟩ := string2double_same s s' h
  simp only [number]
  rw [htext, hrest.isdelim_eq]
  split
  · exact value_matches _ hrest
  · exact .error

theorem string_matches (h : Commented .string b s s') :
    RoundsMatch (st.string allocates s)
      ({ st with rest := rest', endptr := endptr' }.string allocates s') := by
  have hends : (readString .plain [] s).Matches s s' (readString .plain [] s') :=
    readString_matches h
  simp only [string]
  generalize readString .plain [] s = r at hends ⊢
  generalize readString .plain [] s' = r' at hends ⊢
  cases hends with
  | closed hrest =>
      dsimp only
      rw [hrest.isdelim_eq]
      split
      · exact value_matches _ hrest
      · exact .error
  | unterminated hsame =>
      subst hsame
      exact value_matches _ (.nil .text true)
  | bad => exact .error

theorem identifier_matches {name : List Char} (hname : name.all plain = true) (o : JsonValue D)
    (h : Commented .text false s s') :
    RoundsMatch (st.identifier allocates name o s)
      ({ st with rest := rest', endptr := endptr' }.identifier allocates name o s') := by
  obtain ⟨hstart, hdrop⟩ := h.isPrefixOf_eq hname
  simp only [identifier]
  rw [hstart]
  by_cases hp : name.isPrefixOf s = true
  · have hrest := hdrop hp
    rw [hp, hrest.isdelim_eq]
    split
    · exact value_matches o hrest
    · exact .error
  · rw [Bool.eq_false_iff.mpr hp]
    exact .error

theorem minus_matches (h : Commented .text false s s') :
    RoundsMatch (st.minus toDouble allocates s)
      ({ st with rest := rest', endptr := endptr' }.minus toDouble allocates s') := by
  rcases h.head with ⟨rfl, rfl⟩ | ⟨d, t, t', rfl, rfl, ht⟩
  · exact .error
  · simp only [minus]
    split
    · exact number_matches (.cons (h : Commented .text (allowsComment '-') _ _))
    · exact .error

theorem push_matches (frame : Frame D) (h : Commented .text b s s') :
    RoundsMatch (st.push frame s) ({ st with rest := rest', endptr := endptr' }.push frame s') := by
  simp only [push]
  split
  · exact .error
  · exact .round h

theorem closeArray_matches (h : Commented .text b s s') :
    RoundsMatch (st.closeArray allocates s)
      ({ st with rest := rest', endptr := endptr' }.closeArray allocates s') := by
  simp only [closeArray]
  split
  · exact .error
  · exact .error
  case h_3 nodes stack _ => exact value_matches _ h

theorem closeObject_matches (h : Commented .text b s s') :
    RoundsMatch (st.closeObject allocates s)
      ({ st with rest := rest', endptr := endptr' }.closeObject allocates s') := by
  simp only [closeObject]
  split
  · exact .error
  · exact .error
  · exact .error
  case h_4 nodes stack _ => exact value_matches _ h

theorem colon_matches (h : Commented .text b s s') :
    RoundsMatch (st.colon s) ({ st with rest := rest', endptr := endptr' }.colon s') := by
  simp only [colon]
  split
  · exact .round h
  · exact .error

theorem comma_matches (h : Commented .text b s s') :
    RoundsMatch (st.comma s) ({ st with rest := rest', endptr := endptr' }.comma s') := by
  simp only [comma]
  split
  · exact .round h
  · exact .round h
  · exact .error

/-- A token is the same with comments behind it. -/
theorem token_matches {c : Char} (h : Commented (TextMode.text.next c) (allowsComment c) s s') :
    RoundsMatch (st.token toDouble allocates c s)
      ({ st with rest := rest', endptr := endptr' }.token toDouble allocates c s') := by
  unfold token
  split
  · exact minus_matches (h.plain_cons (by decide))
  · exact string_matches h
  · exact identifier_matches rfl _ (h.plain_cons (by decide))
  · exact identifier_matches rfl _ (h.plain_cons (by decide))
  · exact identifier_matches rfl _ (h.plain_cons (by decide))
  · exact closeArray_matches h
  · exact closeObject_matches h
  · exact push_matches _ h
  · exact push_matches _ h
  · exact colon_matches h
  · exact comma_matches h
  · split
    · exact number_matches (.cons h)
    · exact .error

end ParseState

/-! ## The law -/

/-- The loop of `jsonParse` swallows no line of a text. -/
def KeepsLines (toDouble : NumberText → D) (allocates : Nat → Bool) (text : List Char) : Prop :=
  ∀ st, Reaches (ParseState.step toDouble allocates) (.start text) st → swallowsLine st.rest = false

variable {toDouble : NumberText → D} {allocates : Nat → Bool}

/-- A round of the parser that skips the comments is the same with more of them. -/
theorem meantStep_matches {st st' : ParseState D} (h : RoundsMatch (.inr st) (.inr st')) :
    RoundsMatch (st.meantStep toDouble allocates) (st'.meantStep toDouble allocates) := by
  cases h with
  | round h =>
      rcases h.skipBlank_eq.1 rfl with hnil | ⟨c, s, s', hblank, hblank', hs⟩
      · rw [meantStep_nil hnil]
        exact .overread
      · rw [meantStep_cons hblank, meantStep_cons hblank']
        exact ParseState.token_matches hs

theorem meant_commented {t t' : List Char} {v : JsonValue D} {e : List Char}
    (hcommented : Commented .text true t t')
    (h : Ends (ParseState.meantStep toDouble allocates) (.start t) (.ok v e)) :
    ∃ e', Ends (ParseState.meantStep toDouble allocates) (.start t') (.ok v e') := by
  have hlast : ∀ st st' : ParseState D, RoundsMatch (.inr st) (.inr st') →
      st.meantStep toDouble allocates = .inl (.ok v e) →
        ∃ r, (∃ e', r = .ok v e') ∧ Ends (ParseState.meantStep toDouble allocates) st' r := by
    intro st st' hmatch hstep
    have hround : RoundsMatch _ (st'.meantStep toDouble allocates) :=
      hstep ▸ meantStep_matches hmatch
    generalize hstep' : st'.meantStep toDouble allocates = r at hround
    cases hround with
    | ok => exact ⟨_, ⟨_, rfl⟩, (ends_inl hstep').mpr rfl⟩
  have hround : ∀ st st' st₁ : ParseState D, RoundsMatch (.inr st) (.inr st') →
      st.meantStep toDouble allocates = .inr st₁ →
        ∃ st₁', st'.meantStep toDouble allocates = .inr st₁' ∧
          RoundsMatch (.inr st₁) (.inr st₁') := by
    intro st st' st₁ hmatch hstep
    have hround : RoundsMatch _ (st'.meantStep toDouble allocates) :=
      hstep ▸ meantStep_matches hmatch
    generalize st'.meantStep toDouble allocates = r at hround ⊢
    cases hround with
    | round h => exact ⟨_, rfl, .round h⟩
  obtain ⟨r, ⟨e', rfl⟩, hends⟩ :=
    Ends.simulate hlast hround h (.round hcommented : RoundsMatch (.inr (.start t)) (.inr (.start t')))
  exact ⟨e', hends⟩

/-- Comments mean nothing in a text of which no line is swallowed, with them and without. -/
theorem comments_mean_nothing {t t' : List Char} (hcommented : Commented .text true t t')
    {v : JsonValue D} {e : List Char} (hok : jsonParse toDouble allocates t = .ok v e)
    (hkeeps : KeepsLines toDouble allocates t) (hkeeps' : KeepsLines toDouble allocates t')
    (toUnsigned : D → Option (BitVec 32)) :
    (∃ e', jsonParse toDouble allocates t' = .ok v e') ∧
      ∀ config contents contents', cString contents = t → cString contents' = t' →
        loadFile toDouble toUnsigned allocates config (some contents') =
          loadFile toDouble toUnsigned allocates config (some contents) := by
  have hmeant := (ends_iff_meant hkeeps).mp (jsonParse_eq_iff.mp hok)
  obtain ⟨e', hmeant'⟩ := meant_commented hcommented hmeant
  have hok' : jsonParse toDouble allocates t' = .ok v e' :=
    jsonParse_eq_iff.mpr ((ends_iff_meant hkeeps').mpr hmeant')
  refine ⟨⟨e', hok'⟩, ?_⟩
  rintro config contents contents' rfl rfl
  rw [loadFile_eq hok, loadFile_eq hok']

end

/-! ## Some texts -/

theorem Commented.refl (mode : TextMode) (b : Bool) (t : List Char) : Commented mode b t t := by
  induction t generalizing mode b with
  | nil => exact .nil mode b
  | cons c t ih => exact .cons (ih _ _)

def localConf : List Char := "\x7b\n    \"daemon\": \"OFF\"\n\x7d\n".toList

/-- With comments, of which the second one is empty, and the next line is one too. -/
def localConfCommented : List Char :=
  "# kserver_local.conf\n#\n# For local use\n\x7b\n    # Run as a daemon\n\"daemon\": \"OFF\"\n\x7d\n".toList

theorem comment_body {body : List Char} (h : body.all (fun c => c ≠ '\n' && c ≠ '\x00') = true) :
    ∀ c ∈ body, c ≠ '\n' ∧ c ≠ '\x00' := by
  simpa using h

theorem localConf_commented : Commented .text true localConf localConfCommented := by
  have htext : localConfCommented =
      '#' :: (" kserver_local.conf".toList ++ '\n' :: '#' :: ([] ++ '\n' ::
        '#' :: (" For local use".toList ++ '\n' ::
          '{' :: '\n' :: ' ' :: ' ' :: ' ' :: ' ' :: '#' :: (" Run as a daemon".toList ++ '\n' ::
            localConf.drop 6)))) := by decide +kernel
  have hconf : localConf = '{' :: '\n' :: ' ' :: ' ' :: ' ' :: ' ' :: localConf.drop 6 := by
    decide +kernel
  rw [htext, hconf]
  refine .comment (comment_body rfl) (.comment (comment_body rfl) (.comment (comment_body rfl) ?_))
  refine .cons (.cons (.cons (.cons (.cons (.cons ?_)))))
  exact .comment (comment_body rfl) (.refl _ _ _)

theorem comments_mean_nothing_localConf :
    (∃ e', jsonParse decimal (fun _ => true) localConfCommented =
      .ok (.object [("daemon".toList, .string "OFF".toList)]) e') ∧
      loadFile decimal unsigned (fun _ => true) .default (some localConfCommented) =
        .ok { KServerConfig.default with daemon := false } := by
  have hkeeps : ∀ {text}, everyRound (ParseState.step decimal fun _ => true)
      (fun st => !swallowsLine st.rest) 30 (.start text) = true →
        KeepsLines decimal (fun _ => true) text := by
    intro text h st hreaches
    simpa using everyRound_reaches h hreaches
  have hok : jsonParse decimal (fun _ => true) localConf =
      .ok (.object [("daemon".toList, .string "OFF".toList)]) ['\n'] := by rfl
  obtain ⟨hparse, hload⟩ := comments_mean_nothing localConf_commented hok
    (hkeeps (by decide +kernel))
    (hkeeps (by decide +kernel)) unsigned
  refine ⟨hparse, (hload .default localConf localConfCommented ?_ ?_).trans ?_⟩
  · decide +kernel
  · decide +kernel
  · decide +kernel

/-- An empty comment makes `jsonParse` read behind the text, or lose a key of the file. -/
theorem empty_comment_swallows :
    (Commented .text true ['{', '}'] ['#', '\n', '{', '}'] ∧
      jsonParse decimal (fun _ => true) ['{', '}'] = .ok (.object []) [] ∧
      jsonParse decimal (fun _ => true) ['#', '\n', '{', '}'] = .overread) ∧
    ∃ t t', Commented .text true t t' ∧
      loadFile decimal unsigned (fun _ => true) .default (some t) =
        .ok { KServerConfig.default with daemon := false, verbose := true } ∧
      loadFile decimal unsigned (fun _ => true) .default (some t') = .ok .default := by
  have hbody : ∀ c ∈ ([] : List Char), c ≠ '\n' ∧ c ≠ '\x00' := comment_body rfl
  refine ⟨⟨?_, rfl, rfl⟩, '{' :: "\"daemon\": \"OFF\",\n\"verbose\": \"ON\"\x7d".toList,
    '{' :: '#' :: ([] ++ '\n' :: "\"daemon\": \"OFF\",\n\"verbose\": \"ON\"\x7d".toList), ?_, ?_, ?_⟩
  · exact .comment hbody (.refl _ _ _)
  · exact .cons (.comment hbody (.refl _ _ _))
  · decide +kernel
  · decide +kernel

end KoheronServer.Config
