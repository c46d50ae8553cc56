import KoheronServer.Foundation.Loops
import Mathlib.Tactic.SplitIfs

/-!
# The JSON parser

`jsonParse`, a loop over the characters of a configuration file with a stack of open
arrays and objects. A text is the list of its characters up to the terminating NUL,
each of them a byte. The arithmetic of `string2double` and the success of an
allocation are parameters.
-/

namespace KoheronServer.Config

open Foundation

def jsonStackSize : Nat := 32

structure NumberText where
  negative : Bool
  digits : List Char
  fraction : Option (List Char)
  exponent : Option (Bool × List Char)
  deriving DecidableEq

/-- A `JsonValue` with the lists that it refers to. `D` is the type `double`. -/
inductive JsonValue (D : Type) where
  | number (x : D)
  | string (s : List Char)
  | array (nodes : List (JsonValue D))
  | object (nodes : List (List Char × JsonValue D))
  | true
  | false
  | null

/-- The errors of `JSON_ERRNO_MAP`. -/
inductive JsonErrno where
  | badNumber
  | badString
  | badIdentifier
  | stackOverflow
  | stackUnderflow
  | mismatchBracket
  | unexpectedCharacter
  | unquotedKey
  | breakingBad
  | allocationFailure
  deriving DecidableEq

/-- The end of a parse: with a value or an error, each with the text from `endptr` on, or behind
the terminating NUL. -/
inductive ParseResult (D : Type) where
  | ok (value : JsonValue D) (endptr : List Char)
  | error (errno : JsonErrno) (endptr : List Char)
  | overread

/-- An entry of the stack: the nodes of an open array, or those of an object with a key that has no
value yet. -/
inductive Frame (D : Type) where
  | array (nodes : List (JsonValue D))
  | object (nodes : List (List Char × JsonValue D)) (key : Option (List Char))

/-- The variables of the loop, and the number of allocations. -/
structure ParseState (D : Type) where
  rest : List Char
  endptr : List Char
  stack : List (Frame D)
  separator : Bool
  allocations : Nat

/-! ## Characters -/

def isspace (c : Char) : Bool := c = ' ' || ('\t' ≤ c && c ≤ '\r')

/-- `isdelim` of the next character, which may be the terminating NUL. -/
def isdelim : List Char → Bool
  | [] => true
  | c :: _ => c = ',' || c = ':' || c = ']' || c = '}' || isspace c

def isdigit (c : Char) : Bool := '0' ≤ c && c ≤ '9'

def isxdigit (c : Char) : Bool := isdigit c || ('A' ≤ c && c ≤ 'F') || ('a' ≤ c && c ≤ 'f')

/-- `char2int`, where `c & ~' '` is the capital letter. -/
def char2int (c : Char) : Nat :=
  if c ≤ '9' then c.toNat - '0'.toNat
  else if c ≤ 'F' then c.toNat - 'A'.toNat + 10
  else c.toNat - 'a'.toNat + 10

/-! ## Tokens -/

def readDigits (s : List Char) : List Char × List Char := (s.takeWhile isdigit, s.dropWhile isdigit)

def readSign : List Char → Bool × List Char
  | '-' :: s => (true, s)
  | s => (false, s)

def readFraction : List Char → Option (List Char) × List Char
  | '.' :: s => (some (readDigits s).1, (readDigits s).2)
  | s => (none, s)

/-- The sign of an exponent: whether its base is 10. -/
def readExponentSign : List Char → Bool × List Char
  | '+' :: s => (true, s)
  | '-' :: s => (false, s)
  | s => (true, s)

def readPower (s : List Char) : Option (Bool × List Char) × List Char :=
  (some ((readExponentSign s).1, (readDigits (readExponentSign s).2).1),
    (readDigits (readExponentSign s).2).2)

def readExponent : List Char → Option (Bool × List Char) × List Char
  | 'e' :: s => readPower s
  | 'E' :: s => readPower s
  | s => (none, s)

/-- `string2double`, up to its arithmetic. -/
def string2double (s : List Char) : NumberText × List Char :=
  let sign := readSign s
  let digits := readDigits sign.2
  let fraction := readFraction digits.2
  let exponent := readExponent fraction.2
  (⟨sign.1, digits.1, fraction.1, exponent.1⟩, exponent.2)

def escaped : Char → Option Char
  | '\\' => some '\\'
  | '"' => some '"'
  | '/' => some '/'
  | 'b' => some '\x08'
  | 'f' => some '\x0c'
  | 'n' => some '\n'
  | 'r' => some '\r'
  | 't' => some '\t'
  | _ => none

def utf8Bytes (c : Nat) : List Char :=
  if c < 0x80 then [Char.ofNat c]
  else if c < 0x800 then [Char.ofNat (0xC0 ||| (c >>> 6)), Char.ofNat (0x80 ||| (c &&& 0x3F))]
  else
    [Char.ofNat (0xE0 ||| (c >>> 12)), Char.ofNat (0x80 ||| ((c >>> 6) &&& 0x3F)),
      Char.ofNat (0x80 ||| (c &&& 0x3F))]

/-- Where the loop over a string stands: at a character, behind a backslash, or in front of some
hexadecimal digits. -/
inductive StringMode where
  | plain
  | backslash
  | unicode (left : Nat) (c : Nat)

/-- The end of a string: its quote, the terminating NUL, or an error. -/
inductive StringEnd where
  | closed (content : List Char) (rest : List Char)
  | unterminated (content : List Char)
  | bad (endptr : List Char)

/-- The loop over a string, with the characters that are written back so far. -/
def readString : StringMode → List Char → List Char → StringEnd
  | .plain, content, [] => .unterminated content
  | .backslash, _, [] => .bad []
  | .unicode _ _, _, [] => .bad []
  | .plain, content, c :: s =>
      if c = '\\' then readString .backslash content s
      else if c.toNat < ' '.toNat || c = '\x7f' then .bad (c :: s)
      else if c = '"' then .closed content s
      else readString .plain (content ++ [c]) s
  | .backslash, content, c :: s =>
      match escaped c with
      | some e => readString .plain (content ++ [e]) s
      | none => if c = 'u' then readString (.unicode 4 0) content s else .bad (c :: s)
  | .unicode left code, content, c :: s =>
      if isxdigit c then
        if left ≤ 1 then readString .plain (content ++ utf8Bytes (code * 16 + char2int c)) s
        else readString (.unicode (left - 1) (code * 16 + char2int c)) content s
      else .bad (c :: s)

section

variable {D : Type}

namespace ParseState

/-- The state behind a bracket, a comma or a colon. -/
def opened (st : ParseState D) (stack : List (Frame D)) (s : List Char) : ParseState D :=
  { st with rest := s, stack := stack, separator := true }

/-- The end of the loop body: the value `o` is the result, a key or a node. -/
def value (allocates : Nat → Bool) (st : ParseState D) (o : JsonValue D) (s : List Char) :
    ParseResult D ⊕ ParseState D :=
  match st.stack with
  | [] => .inl (.ok o s)
  | .object nodes none :: stack =>
      match o with
      | .string key =>
          .inr { st with rest := s, stack := .object nodes (some key) :: stack, separator := false }
      | _ => .inl (.error .unquotedKey st.endptr)
  | .object nodes (some key) :: stack =>
      if allocates st.allocations then
        .inr
          { st with
            rest := s
            stack := .object (nodes ++ [(key, o)]) none :: stack
            separator := false
            allocations := st.allocations + 1 }
      else .inl (.error .allocationFailure st.endptr)
  | .array nodes :: stack =>
      if allocates st.allocations then
        .inr
          { st with
            rest := s
            stack := .array (nodes ++ [o]) :: stack
            separator := false
            allocations := st.allocations + 1 }
      else .inl (.error .allocationFailure st.endptr)

def number (toDouble : NumberText → D) (allocates : Nat → Bool) (st : ParseState D)
    (s : List Char) :
    ParseResult D ⊕ ParseState D :=
  match string2double s with
  | (text, s) =>
      if isdelim s then st.value allocates (.number (toDouble text)) s
      else .inl (.error .badNumber s)

/-- A string, behind its first quote. One that the NUL ends keeps the characters that are not
overwritten. -/
def string (allocates : Nat → Bool) (st : ParseState D) (s : List Char) :
    ParseResult D ⊕ ParseState D :=
  match readString .plain [] s with
  | .bad endptr => .inl (.error .badString endptr)
  | .unterminated content => st.value allocates (.string (content ++ s.drop content.length)) []
  | .closed content s =>
      if isdelim s then st.value allocates (.string content) s else .inl (.error .badString s)

def identifier (allocates : Nat → Bool) (st : ParseState D) (name : List Char) (o : JsonValue D)
    (s : List Char) : ParseResult D ⊕ ParseState D :=
  if name.isPrefixOf s && isdelim (s.drop name.length) then
    st.value allocates o (s.drop name.length)
  else .inl (.error .badIdentifier st.endptr)

def push (st : ParseState D) (frame : Frame D) (s : List Char) : ParseResult D ⊕ ParseState D :=
  if st.stack.length = jsonStackSize then .inl (.error .stackOverflow st.endptr)
  else .inr (st.opened (frame :: st.stack) s)

def minus (toDouble : NumberText → D) (allocates : Nat → Bool) (st : ParseState D) (s : List Char) :
    ParseResult D ⊕ ParseState D :=
  match s with
  | [] => .inl (.error .badNumber s)
  | d :: _ =>
      if isdigit d || d = '.' then st.number toDouble allocates ('-' :: s)
      else .inl (.error .badNumber s)

def closeArray (allocates : Nat → Bool) (st : ParseState D) (s : List Char) :
    ParseResult D ⊕ ParseState D :=
  match st.stack with
  | [] => .inl (.error .stackUnderflow st.endptr)
  | .object _ _ :: _ => .inl (.error .mismatchBracket st.endptr)
  | .array nodes :: stack => value allocates { st with stack := stack } (.array nodes) s

def closeObject (allocates : Nat → Bool) (st : ParseState D) (s : List Char) :
    ParseResult D ⊕ ParseState D :=
  match st.stack with
  | [] => .inl (.error .stackUnderflow st.endptr)
  | .array _ :: _ => .inl (.error .mismatchBracket st.endptr)
  | .object _ (some _) :: _ => .inl (.error .unexpectedCharacter st.endptr)
  | .object nodes none :: stack => value allocates { st with stack := stack } (.object nodes) s

def colon (st : ParseState D) (s : List Char) : ParseResult D ⊕ ParseState D :=
  match st.separator, st.stack with
  | false, .object _ (some _) :: _ => .inr (st.opened st.stack s)
  | _, _ => .inl (.error .unexpectedCharacter st.endptr)

def comma (st : ParseState D) (s : List Char) : ParseResult D ⊕ ParseState D :=
  match st.separator, st.stack with
  | false, .object _ none :: _ => .inr (st.opened st.stack s)
  | false, .array _ :: _ => .inr (st.opened st.stack s)
  | _, _ => .inl (.error .unexpectedCharacter st.endptr)

def token (toDouble : NumberText → D) (allocates : Nat → Bool) (st : ParseState D) (c : Char)
    (s : List Char) : ParseResult D ⊕ ParseState D :=
  match c with
  | '-' => st.minus toDouble allocates s
  | '"' => st.string allocates s
  | 't' => st.identifier allocates ['r', 'u', 'e'] .true s
  | 'f' => st.identifier allocates ['a', 'l', 's', 'e'] .false s
  | 'n' => st.identifier allocates ['u', 'l', 'l'] .null s
  | ']' => st.closeArray allocates s
  | '}' => st.closeObject allocates s
  | '[' => st.push (.array []) s
  | '{' => st.push (.object [] none) s
  | ':' => st.colon s
  | ',' => st.comma s
  | c =>
      if isdigit c then st.number toDouble allocates (c :: s)
      else .inl (.error .unexpectedCharacter st.endptr)

end ParseState

/-- The loop over a comment, behind its `#`. It advances before it looks for the newline, and
nothing but a newline stops it. -/
def skipComment : List Char → Option (List Char)
  | [] => none
  | _ :: s =>
      match s.dropWhile (· ≠ '\n') with
      | [] => none
      | s => some s

/-- A round of the loop of `jsonParse`. -/
def ParseState.step (toDouble : NumberText → D) (allocates : Nat → Bool) (st : ParseState D) :
    ParseResult D ⊕ ParseState D :=
  match st.rest with
  | [] => .inl (.error .breakingBad st.endptr)
  | _ :: _ =>
      match st.rest.dropWhile isspace with
      | [] => .inl .overread
      | '#' :: s =>
          match skipComment s with
          | none => .inl .overread
          | some rest => .inr { st with rest := rest, endptr := '#' :: s }
      | c :: s => token toDouble allocates { st with rest := s, endptr := c :: s } c s

def ParseState.start (text : List Char) : ParseState D := ⟨text, text, [], true, 0⟩

/-- `jsonParse`. The rounds are enough for every text. -/
def jsonParse (toDouble : NumberText → D) (allocates : Nat → Bool) (text : List Char) :
    ParseResult D :=
  (rounds (ParseState.step toDouble allocates) (text.length + 1) (.start text)).getD .overread

/-! ## The loop ends -/

theorem readDigits_length (s : List Char) : (readDigits s).2.length ≤ s.length :=
  (List.dropWhile_sublist _).length_le

theorem readFraction_length (s : List Char) : (readFraction s).2.length ≤ s.length := by
  unfold readFraction
  split
  case h_1 s => exact Nat.le_succ_of_le (readDigits_length s)
  case h_2 => exact Nat.le_refl _

theorem readPower_length (s : List Char) : (readPower s).2.length ≤ s.length := by
  refine Nat.le_trans (readDigits_length _) ?_
  unfold readExponentSign
  split <;> simp

theorem readExponent_length (s : List Char) : (readExponent s).2.length ≤ s.length := by
  unfold readExponent
  split
  case h_1 s => exact Nat.le_succ_of_le (readPower_length s)
  case h_2 s => exact Nat.le_succ_of_le (readPower_length s)
  case h_3 => exact Nat.le_refl _

theorem string2double_length {c : Char} {s : List Char} (hc : c = '-' ∨ isdigit c = true) :
    (string2double (c :: s)).2.length ≤ s.length := by
  refine Nat.le_trans (readExponent_length _) (Nat.le_trans (readFraction_length _) ?_)
  rcases hc with rfl | hc
  · exact readDigits_length s
  · have hsign : readSign (c :: s) = (false, c :: s) := by
      unfold readSign
      split
      case h_1 heq =>
        obtain ⟨rfl, -⟩ := List.cons.inj heq
        exact absurd hc (by decide)
      case h_2 => rfl
    rw [hsign, readDigits, List.dropWhile_cons, if_pos hc]
    exact (List.dropWhile_sublist _).length_le

theorem readString_length {mode : StringMode} {content : List Char} {s : List Char}
    {content' rest : List Char} (h : readString mode content s = .closed content' rest) :
    rest.length ≤ s.length := by
  induction s generalizing mode content with
  | nil => cases mode <;> cases h
  | cons c s ih =>
      cases mode with
      | plain =>
          simp only [readString] at h
          split_ifs at h
          · exact Nat.le_succ_of_le (ih h)
          · cases h
            exact Nat.le_succ _
          · exact Nat.le_succ_of_le (ih h)
      | backslash =>
          simp only [readString] at h
          split at h
          · exact Nat.le_succ_of_le (ih h)
          · split_ifs at h
            exact Nat.le_succ_of_le (ih h)
      | unicode left code =>
          simp only [readString] at h
          split_ifs at h
          · exact Nat.le_succ_of_le (ih h)
          · exact Nat.le_succ_of_le (ih h)

namespace ParseState

variable {toDouble : NumberText → D} {allocates : Nat → Bool} {st st' : ParseState D}

theorem value_rest {o : JsonValue D} {s : List Char} (h : st.value allocates o s = .inr st') :
    st'.rest = s := by
  unfold value at h
  split at h
  · cases h
  · split at h
    · obtain rfl := Sum.inr.inj h
      rfl
    · cases h
  · split at h
    · obtain rfl := Sum.inr.inj h
      rfl
    · cases h
  · split at h
    · obtain rfl := Sum.inr.inj h
      rfl
    · cases h

theorem number_length {c : Char} {s : List Char} (hc : c = '-' ∨ isdigit c = true)
    (h : st.number toDouble allocates (c :: s) = .inr st') : st'.rest.length ≤ s.length := by
  simp only [number] at h
  split_ifs at h
  rw [value_rest h]
  exact string2double_length hc

theorem string_length {s : List Char} (h : st.string allocates s = .inr st') :
    st'.rest.length ≤ s.length := by
  unfold string at h
  split at h
  · cases h
  · rw [value_rest h]
    exact Nat.zero_le _
  case h_3 hread =>
    split_ifs at h
    rw [value_rest h]
    exact readString_length hread

theorem identifier_length {name : List Char} {o : JsonValue D} {s : List Char}
    (h : st.identifier allocates name o s = .inr st') : st'.rest.length ≤ s.length := by
  unfold identifier at h
  split_ifs at h
  rw [value_rest h]
  exact (List.drop_sublist _ _).length_le

theorem push_length {frame : Frame D} {s : List Char} (h : st.push frame s = .inr st') :
    st'.rest.length ≤ s.length := by
  unfold push at h
  split_ifs at h
  obtain rfl := Sum.inr.inj h
  exact Nat.le_refl _

theorem token_length {c : Char} {s : List Char}
    (h : st.token toDouble allocates c s = .inr st') : st'.rest.length ≤ s.length := by
  unfold token at h
  split at h
  · unfold minus at h
    split at h
    · cases h
    · split_ifs at h
      exact number_length (.inl rfl) h
  · exact string_length h
  · exact identifier_length h
  · exact identifier_length h
  · exact identifier_length h
  · unfold closeArray at h
    split at h
    · cases h
    · cases h
    · exact Nat.le_of_eq (congrArg List.length (value_rest h))
  · unfold closeObject at h
    split at h
    · cases h
    · cases h
    · cases h
    · exact Nat.le_of_eq (congrArg List.length (value_rest h))
  · exact push_length h
  · exact push_length h
  · unfold colon at h
    split at h
    · obtain rfl := Sum.inr.inj h
      exact Nat.le_refl _
    · cases h
  · unfold comma at h
    split at h
    · obtain rfl := Sum.inr.inj h
      exact Nat.le_refl _
    · obtain rfl := Sum.inr.inj h
      exact Nat.le_refl _
    · cases h
  · split_ifs at h
    case pos hdigit => exact number_length (.inr hdigit) h

theorem skipComment_length {s rest : List Char} (h : skipComment s = some rest) :
    rest.length ≤ s.length := by
  cases s with
  | nil => cases h
  | cons c s =>
      simp only [skipComment] at h
      split at h
      · cases h
      · obtain rfl := Option.some.inj h
        exact Nat.le_succ_of_le (List.dropWhile_sublist _).length_le

theorem step_cons {c : Char} {s : List Char} (h : st.rest.dropWhile isspace = c :: s) :
    st.step toDouble allocates =
      if c = '#' then
        match skipComment s with
        | none => .inl .overread
        | some rest => .inr { st with rest := rest, endptr := '#' :: s }
      else token toDouble allocates { st with rest := s, endptr := c :: s } c s := by
  unfold step
  split
  case h_1 hrest =>
    rw [hrest] at h
    cases h
  case h_2 =>
    rw [h]
    split
    case h_1 heq => cases heq
    case h_2 heq =>
      obtain ⟨rfl, rfl⟩ := List.cons.inj heq
      rfl
    case h_3 hne heq =>
      obtain ⟨rfl, rfl⟩ := List.cons.inj heq
      rw [if_neg hne]

theorem step_length (h : st.step toDouble allocates = .inr st') :
    st'.rest.length < st.rest.length := by
  have hdrop : (st.rest.dropWhile isspace).length ≤ st.rest.length :=
    (List.dropWhile_sublist _).length_le
  unfold step at h
  split at h
  · cases h
  · split at h
    · cases h
    case h_2 s hrest =>
      split at h
      · cases h
      case h_2 rest hskip =>
        obtain rfl := Sum.inr.inj h
        rw [hrest, List.length_cons] at hdrop
        exact Nat.lt_of_le_of_lt (skipComment_length hskip) hdrop
    case h_3 c s _ hrest =>
      rw [hrest, List.length_cons] at hdrop
      exact Nat.lt_of_le_of_lt (token_length h) hdrop

end ParseState

theorem jsonParse_eq_iff {toDouble : NumberText → D} {allocates : Nat → Bool} {text : List Char}
    {r : ParseResult D} :
    jsonParse toDouble allocates text = r ↔
      Ends (ParseState.step toDouble allocates) (.start text) r := by
  have hmeasure : ∀ st st' : ParseState D, st.step toDouble allocates = .inr st' →
      st'.rest.length < st.rest.length := fun st st' h => ParseState.step_length h
  have hlt : (ParseState.start text : ParseState D).rest.length < text.length + 1 :=
    Nat.lt_succ_self _
  obtain ⟨r', hr'⟩ := rounds_enough hmeasure _ _ hlt
  rw [← rounds_eq_iff hmeasure hlt, jsonParse, hr', Option.getD_some, Option.some.injEq]

end

end KoheronServer.Config
