import KoheronServer.Foundation.Texts
import Mathlib.Tactic.IntervalCases

/-!
# JSON

Values of numbers, strings, arrays and objects, the compact text that Python's `json.dumps` writes
for them, and a reader of JSON. What is written is read back, where no character of a string has to
be escaped.
-/

namespace Foundation

inductive Json where
  | number (n : Nat)
  | string (s : List Char)
  | array (items : List Json)
  | object (members : List (List Char × Json))

/-! ## Writing -/

def hexDigit (n : Nat) : Char := "0123456789abcdef".toList.getD (n % 16) '0'

/-- `\uXXXX` -/
def escapeUnit (n : Nat) : List Char :=
  '\\' :: 'u' :: [hexDigit (n / 4096), hexDigit (n / 256), hexDigit (n / 16), hexDigit n]

/-- A character of a string, in ASCII. -/
def escapeChar (c : Char) : List Char :=
  if c = '"' then ['\\', '"']
  else if c = '\\' then ['\\', '\\']
  else if c = '\n' then ['\\', 'n']
  else if c = '\r' then ['\\', 'r']
  else if c = '\t' then ['\\', 't']
  else if c = '\x0c' then ['\\', 'f']
  else if c = '\x08' then ['\\', 'b']
  else if ' ' ≤ c ∧ c ≤ '~' then [c]
  else if c.toNat < 0x10000 then escapeUnit c.toNat
  else
    escapeUnit (0xD800 + (c.toNat - 0x10000) / 0x400) ++
      escapeUnit (0xDC00 + (c.toNat - 0x10000) % 0x400)

def dumpString (s : List Char) : List Char := '"' :: (s.flatMap escapeChar ++ ['"'])

namespace Json

mutual

/-- The text of a value, each of whose strings stands between its quotes as `raw` has it. -/
def dumpsWith (raw : List Char → List Char) : Json → List Char
  | number n => Nat.toDigits 10 n
  | string s => '"' :: (raw s ++ ['"'])
  | array items => '[' :: (dumpItemsWith raw items ++ [']'])
  | object members => '\x7b' :: (dumpMembersWith raw members ++ ['\x7d'])

def dumpItemsWith (raw : List Char → List Char) : List Json → List Char
  | [] => []
  | [j] => dumpsWith raw j
  | j :: js => dumpsWith raw j ++ ',' :: dumpItemsWith raw js

def dumpMembersWith (raw : List Char → List Char) : List (List Char × Json) → List Char
  | [] => []
  | [(k, v)] => dumpString k ++ ':' :: dumpsWith raw v
  | (k, v) :: ms => dumpString k ++ ':' :: (dumpsWith raw v ++ ',' :: dumpMembersWith raw ms)

end

/-- `json.dumps(data, separators=(',', ':'))` -/
def dumps (j : Json) : List Char := j.dumpsWith fun s => s.flatMap escapeChar

mutual

/-- Every string that is a value, not a key, is replaced. -/
def mapStrings (f : List Char → List Char) : Json → Json
  | number n => number n
  | string s => string (f s)
  | array items => array (mapItems f items)
  | object members => object (mapMembers f members)

def mapItems (f : List Char → List Char) : List Json → List Json
  | [] => []
  | j :: js => mapStrings f j :: mapItems f js

def mapMembers (f : List Char → List Char) :
    List (List Char × Json) → List (List Char × Json)
  | [] => []
  | (k, v) :: ms => (k, mapStrings f v) :: mapMembers f ms

end

mutual

def AllStrings (pkey pvalue : List Char → Prop) : Json → Prop
  | number _ => True
  | string s => pvalue s
  | array items => AllItems pkey pvalue items
  | object members => AllMembers pkey pvalue members

def AllItems (pkey pvalue : List Char → Prop) : List Json → Prop
  | [] => True
  | j :: js => AllStrings pkey pvalue j ∧ AllItems pkey pvalue js

def AllMembers (pkey pvalue : List Char → Prop) : List (List Char × Json) → Prop
  | [] => True
  | (k, v) :: ms => pkey k ∧ AllStrings pkey pvalue v ∧ AllMembers pkey pvalue ms

end

end Json

namespace Json

variable {pkey pvalue : List Char → Prop}

mutual

theorem AllStrings.imp₂ {p q r : List Char → Prop} (h : ∀ s, p s → q s → r s) : ∀ j : Json,
    AllStrings pkey p j → AllStrings pkey q j → AllStrings pkey r j
  | number _, _, _ => trivial
  | string s, hp, hq => h s hp hq
  | array items, hp, hq => AllItems.imp₂ h items hp hq
  | object members, hp, hq => AllMembers.imp₂ h members hp hq

theorem AllItems.imp₂ {p q r : List Char → Prop} (h : ∀ s, p s → q s → r s) : ∀ js : List Json,
    AllItems pkey p js → AllItems pkey q js → AllItems pkey r js
  | [], _, _ => trivial
  | j :: js, hp, hq => ⟨AllStrings.imp₂ h j hp.1 hq.1, AllItems.imp₂ h js hp.2 hq.2⟩

theorem AllMembers.imp₂ {p q r : List Char → Prop} (h : ∀ s, p s → q s → r s) :
    ∀ ms : List (List Char × Json), AllMembers pkey p ms → AllMembers pkey q ms →
      AllMembers pkey r ms
  | [], _, _ => trivial
  | (_, v) :: ms, hp, hq =>
      ⟨hp.1, AllStrings.imp₂ h v hp.2.1 hq.2.1, AllMembers.imp₂ h ms hp.2.2 hq.2.2⟩

end

theorem AllStrings.imp {p q : List Char → Prop} (h : ∀ s, p s → q s) {j : Json}
    (hp : AllStrings pkey p j) : AllStrings pkey q j :=
  AllStrings.imp₂ (fun s hs _ => h s hs) j hp hp

theorem allItems_iff (js : List Json) :
    AllItems pkey pvalue js ↔ ∀ j ∈ js, AllStrings pkey pvalue j := by
  induction js with
  | nil => simp [AllItems]
  | cons j js ih => rw [AllItems, ih, List.forall_mem_cons]

theorem allMembers_iff (ms : List (List Char × Json)) :
    AllMembers pkey pvalue ms ↔ ∀ m ∈ ms, pkey m.1 ∧ AllStrings pkey pvalue m.2 := by
  induction ms with
  | nil => simp [AllMembers]
  | cons m ms ih => rw [AllMembers, ih, List.forall_mem_cons, and_assoc]

@[simp] theorem allStrings_number (n : Nat) : AllStrings pkey pvalue (number n) := by
  rw [AllStrings]
  trivial

@[simp] theorem allStrings_array (items : List Json) :
    AllStrings pkey pvalue (array items) ↔ ∀ j ∈ items, AllStrings pkey pvalue j := by
  rw [AllStrings, allItems_iff]

@[simp] theorem allStrings_object (members : List (List Char × Json)) :
    AllStrings pkey pvalue (object members) ↔
      ∀ m ∈ members, pkey m.1 ∧ AllStrings pkey pvalue m.2 := by
  rw [AllStrings, allMembers_iff]

end Json

/-! ## Reading -/

def isJsonSpace (c : Char) : Bool := c = ' ' || c = '\t' || c = '\n' || c = '\r'

def skipSpace (s : List Char) : List Char := s.dropWhile isJsonSpace

def hexValue (c : Char) : Option Nat :=
  if '0' ≤ c ∧ c ≤ '9' then some (c.toNat - '0'.toNat)
  else if 'a' ≤ c ∧ c ≤ 'f' then some (c.toNat - 'a'.toNat + 10)
  else if 'A' ≤ c ∧ c ≤ 'F' then some (c.toNat - 'A'.toNat + 10)
  else none

/-- The character of a unit that is no half of a surrogate pair. -/
def unitChar (a b c d : Char) : Option Char := do
  let n := 4096 * (← hexValue a) + 256 * (← hexValue b) + 16 * (← hexValue c) + (← hexValue d)
  if n < 0xD800 ∨ 0xE000 ≤ n then some (Char.ofNat n) else none

def unescape : Char → Option Char
  | '"' => some '"'
  | '\\' => some '\\'
  | '/' => some '/'
  | 'b' => some '\x08'
  | 'f' => some '\x0c'
  | 'n' => some '\n'
  | 'r' => some '\r'
  | 't' => some '\t'
  | _ => none

/-- A string behind its first quote, and the text behind the string. Control characters have to be
escaped. -/
def readString : List Char → Option (List Char × List Char)
  | [] => none
  | '"' :: s => some ([], s)
  | '\\' :: 'u' :: a :: b :: c :: d :: s =>
      (unitChar a b c d).bind fun e => (readString s).map fun r => (e :: r.1, r.2)
  | '\\' :: c :: s => (unescape c).bind fun e => (readString s).map fun r => (e :: r.1, r.2)
  | c :: s => if c.toNat < 32 ∨ c = '\\' then none else (readString s).map fun r => (c :: r.1, r.2)

/-- A number in decimal digits, the first of them not 0 before another one. -/
def readNumber (s : List Char) : Option (Json × List Char) :=
  let digits := s.takeWhile Char.isDigit
  if digits = [] ∨ (digits.head? = some '0' ∧ digits.length ≠ 1) then none
  else some (.number (Nat.ofDigitChars 10 digits 0), s.dropWhile Char.isDigit)

mutual

def readValue : Nat → List Char → Option (Json × List Char)
  | 0, _ => none
  | fuel + 1, s =>
      match skipSpace s with
      | '"' :: s => (readString s).map fun r => (.string r.1, r.2)
      | '[' :: s =>
          match skipSpace s with
          | ']' :: s => some (.array [], s)
          | _ => (readItems fuel s).map fun r => (.array r.1, r.2)
      | '\x7b' :: s =>
          match skipSpace s with
          | '\x7d' :: s => some (.object [], s)
          | _ => (readMembers fuel s).map fun r => (.object r.1, r.2)
      | s => readNumber s

def readItems : Nat → List Char → Option (List Json × List Char)
  | 0, _ => none
  | fuel + 1, s =>
      (readValue fuel s).bind fun v =>
        match skipSpace v.2 with
        | ',' :: s => (readItems fuel s).map fun r => (v.1 :: r.1, r.2)
        | ']' :: s => some ([v.1], s)
        | _ => none

def readMembers : Nat → List Char → Option (List (List Char × Json) × List Char)
  | 0, _ => none
  | fuel + 1, s =>
      match skipSpace s with
      | '"' :: s =>
          (readString s).bind fun k =>
            match skipSpace k.2 with
            | ':' :: s =>
                (readValue fuel s).bind fun v =>
                  match skipSpace v.2 with
                  | ',' :: s => (readMembers fuel s).map fun r => ((k.1, v.1) :: r.1, r.2)
                  | '\x7d' :: s => some ([(k.1, v.1)], s)
                  | _ => none
            | _ => none
      | _ => none

end

/-- Every character satisfies `p`. -/
def Consists (p : Char → Bool) (s : List Char) : Prop := ∀ c ∈ s, p c = true

instance (p : Char → Bool) (s : List Char) : Decidable (Consists p s) :=
  List.decidableBAll (p · = true) s

namespace Consists

variable {p q : Char → Bool} {s t : List Char}

theorem append_iff : Consists p (s ++ t) ↔ Consists p s ∧ Consists p t :=
  List.forall_mem_append

theorem append (hs : Consists p s) (ht : Consists p t) : Consists p (s ++ t) :=
  append_iff.mpr ⟨hs, ht⟩

theorem imp (h : ∀ c, p c = true → q c = true) (hs : Consists p s) : Consists q s :=
  fun c hc => h c (hs c hc)

theorem intercalate {sep : List Char} (hsep : Consists p sep) {ss : List (List Char)}
    (h : ∀ s ∈ ss, Consists p s) : Consists p (sep.intercalate ss) := by
  induction ss with
  | nil =>
      intro c hc
      cases hc
  | cons s ss ih =>
      have hs := h s List.mem_cons_self
      have hrest := ih fun t ht => h t (List.mem_cons_of_mem s ht)
      cases ss with
      | nil =>
          rw [List.intercalate_singleton]
          exact hs
      | cons t ss =>
          rw [List.intercalate_cons_cons]
          exact (hs.append hsep).append hrest

end Consists

/-- A printable character that is neither a quote nor a backslash: it stands for itself. -/
def isVerbatim (c : Char) : Bool := ' ' ≤ c && c ≤ '~' && c ≠ '"' && c ≠ '\\'

abbrev Verbatim (s : List Char) : Prop := Consists isVerbatim s

/-- A character of source text, neither a quote nor a backslash: white space, or printable. -/
def isSource (c : Char) : Bool := isBlank c || isVerbatim c

abbrev Source (s : List Char) : Prop := Consists isSource s

def isSpaced (c : Char) : Bool := !isBlank c || c = ' '

/-- The only white space is the space itself. -/
abbrev SpacesOnly (s : List Char) : Prop := Consists isSpaced s

theorem isVerbatim_iff {c : Char} :
    isVerbatim c = true ↔ ' ' ≤ c ∧ c ≤ '~' ∧ c ≠ '"' ∧ c ≠ '\\' := by
  simp [isVerbatim, and_assoc]

theorem isVerbatim_of_alphanum {c : Char} (h : c.isAlphanum = true) : isVerbatim c = true := by
  have hrange : 48 ≤ c.toNat ∧ c.toNat ≤ 122 ∧ c.toNat ≠ 92 := by
    have hval : c.val.toNat = c.toNat := rfl
    have hparts : (decide (c.val ≥ 'A'.val ∧ c.val ≤ 'Z'.val) ||
        (c.val ≥ 'a'.val && c.val ≤ 'z'.val) || (c.val ≥ '0'.val && c.val ≤ '9'.val)) = true := h
    simp [UInt32.le_iff_toNat_le, hval] at hparts
    omega
  refine isVerbatim_iff.mpr ⟨?_, ?_, ?_, ?_⟩
  · have hlow : 32 ≤ c.toNat := by omega
    exact hlow
  · have hhigh : c.toNat ≤ 126 := by omega
    exact hhigh
  · rintro rfl
    exact absurd hrange.1 (by decide)
  · rintro rfl
    exact hrange.2.2 rfl

theorem verbatim_toDigits (n : Nat) : Verbatim (Nat.toDigits 10 n) := by
  intro c hc
  have hdigit : c.isDigit = true := Nat.isDigit_of_mem_toDigits (by decide) (by decide) hc
  exact isVerbatim_of_alphanum (by rw [Char.isAlphanum, hdigit, Bool.or_true])

theorem escapeChar_verbatim {c : Char} (h : isVerbatim c = true) : escapeChar c = [c] := by
  obtain ⟨hlow, hhigh, hquote, hslash⟩ := isVerbatim_iff.mp h
  have hcontrol : ∀ d : Char, d < ' ' → c ≠ d := by
    rintro d hd rfl
    exact absurd hd (Char.not_lt.mpr hlow)
  unfold escapeChar
  rw [if_neg hquote, if_neg hslash, if_neg (hcontrol '\n' (by decide)),
    if_neg (hcontrol '\r' (by decide)), if_neg (hcontrol '\t' (by decide)),
    if_neg (hcontrol '\x0c' (by decide)), if_neg (hcontrol '\x08' (by decide)),
    if_pos ⟨hlow, hhigh⟩]

theorem flatMap_escapeChar {s : List Char} (h : Verbatim s) : s.flatMap escapeChar = s := by
  induction s with
  | nil => rfl
  | cons c s ih =>
      rw [List.flatMap_cons, escapeChar_verbatim (h c List.mem_cons_self),
        ih fun d hd => h d (List.mem_cons_of_mem c hd)]
      rfl

theorem isSource_iff {c : Char} :
    isSource c = true ↔ isBlank c = true ∨ isVerbatim c = true := by
  rw [isSource, Bool.or_eq_true]

theorem isSpaced_iff {c : Char} : isSpaced c = true ↔ (isBlank c = true → c = ' ') := by
  cases h : isBlank c with
  | false => simp [isSpaced, h]
  | true => simp [isSpaced, h]

theorem isVerbatim_of_source {c : Char} (hsource : isSource c = true)
    (hspaced : isSpaced c = true) : isVerbatim c = true := by
  rcases isSource_iff.mp hsource with hblank | hverbatim
  · rw [isSpaced_iff.mp hspaced hblank]
    decide
  · exact hverbatim

/-- White space other than the space is made of control characters. -/
theorem control_of_not_spaced {c : Char} (h : ¬isSpaced c = true) :
    9 ≤ c.toNat ∧ c.toNat ≤ 13 := by
  rw [isSpaced_iff, Classical.not_imp] at h
  obtain ⟨hblank, hspace⟩ := h
  simp only [isBlank, Bool.or_eq_true, decide_eq_true_iff, Bool.and_eq_true] at hblank
  rcases hblank with heq | hrange
  · exact absurd heq hspace
  · exact hrange

namespace Consists

variable {s : List Char}

theorem source (h : Verbatim s) : Source s :=
  h.imp fun _ hc => isSource_iff.mpr (.inr hc)

theorem verbatim (h : Source s) (hspaces : SpacesOnly s) : Verbatim s :=
  fun c hc => isVerbatim_of_source (h c hc) (hspaces c hc)

theorem notMem (h : Source s) : '"' ∉ s := fun hmem => absurd (h _ hmem) (by decide)

end Consists

/-- White space other than the space has an escape sequence, of letters and digits. -/
theorem escapeChar_control {c : Char} (h : ¬isSpaced c = true) :
    ∃ d s, escapeChar c = '\\' :: d :: s ∧ Consists Char.isAlphanum (d :: s) := by
  obtain ⟨hlow, hhigh⟩ := control_of_not_spaced h
  have hc : c = Char.ofNat c.toNat := c.ofNat_toNat.symm
  rw [hc]
  interval_cases c.toNat
  · exact ⟨'t', [], rfl, by decide⟩
  · exact ⟨'n', [], rfl, by decide⟩
  · exact ⟨'u', "000b".toList, rfl, by decide⟩
  · exact ⟨'f', [], rfl, by decide⟩
  · exact ⟨'r', [], rfl, by decide⟩

theorem escapeChar_source {c : Char} (h : isSource c = true) :
    (isVerbatim c = true ∧ escapeChar c = [c]) ∨
      ∃ d s, escapeChar c = '\\' :: d :: s ∧ Consists Char.isAlphanum (d :: s) := by
  by_cases hspaced : isSpaced c = true
  · have hc := isVerbatim_of_source h hspaced
    exact .inl ⟨hc, escapeChar_verbatim hc⟩
  · exact .inr (escapeChar_control hspaced)

/-- The characters of a dump are those of the text and those of the escape sequences. -/
theorem mem_escaped {s : List Char} (h : Source s) {b : Char} (hb : b ∈ s.flatMap escapeChar) :
    b ∈ s ∧ isVerbatim b = true ∨ b = '\\' ∨ b.isAlphanum = true := by
  obtain ⟨c, hc, hb⟩ := List.mem_flatMap.mp hb
  rcases escapeChar_source (h c hc) with ⟨hverbatim, hescape⟩ | ⟨d, t, hescape, ht⟩
  · rw [hescape, List.mem_singleton] at hb
    subst hb
    exact .inl ⟨hc, hverbatim⟩
  · rw [hescape] at hb
    rcases List.mem_cons.mp hb with hslash | hb
    · exact .inr (.inl hslash)
    · exact .inr (.inr (ht b hb))

theorem quote_notMem_escaped {s : List Char} (h : Source s) : '"' ∉ s.flatMap escapeChar := by
  intro hmem
  rcases mem_escaped h hmem with ⟨-, hverbatim⟩ | hslash | halnum
  · exact absurd hverbatim (by decide)
  · exact absurd hslash (by decide)
  · exact absurd halnum (by decide)

theorem dumpString_verbatim {s : List Char} (h : Verbatim s) :
    dumpString s = '"' :: (s ++ ['"']) := by
  rw [dumpString, flatMap_escapeChar h]

/-- Between quotes `raw` is read as `s`, whatever stands behind it. -/
def ReadsAs (raw s : List Char) : Prop :=
  ∀ rest, readString (raw ++ '"' :: rest) = some (s, rest)

/-- Between quotes `raw` is never read as `s`. -/
def NeverReadsAs (raw s : List Char) : Prop :=
  ∀ rest r, readString (raw ++ '"' :: rest) ≠ some (s, r)

theorem readString_cons {c : Char} (hprint : 32 ≤ c.toNat) (hquote : c ≠ '"') (hslash : c ≠ '\\')
    (s : List Char) : readString (c :: s) = (readString s).map fun r => (c :: r.1, r.2) := by
  have hkept : ¬(c.toNat < 32 ∨ c = '\\') := by
    rintro (hcontrol | hc)
    · omega
    · exact hslash hc
  rw [readString.eq_def]
  split
  case h_1 heq => cases heq
  case h_2 heq => exact absurd (List.cons.inj heq).1 hquote
  case h_3 heq => exact absurd (List.cons.inj heq).1 hslash
  case h_4 heq => exact absurd (List.cons.inj heq).1 hslash
  case h_5 heq =>
    obtain ⟨rfl, rfl⟩ := List.cons.inj heq
    rw [if_neg hkept]

theorem readString_append {s : List Char} (h : Verbatim s) (t : List Char) :
    readString (s ++ t) = (readString t).map fun r => (s ++ r.1, r.2) := by
  induction s with
  | nil =>
      rw [List.nil_append]
      cases readString t with
      | none => rfl
      | some r => rfl
  | cons c s ih =>
      obtain ⟨hlow, -, hquote, hslash⟩ := isVerbatim_iff.mp (h c List.mem_cons_self)
      rw [List.cons_append, readString_cons hlow hquote hslash,
        ih fun d hd => h d (List.mem_cons_of_mem c hd), Option.map_map]
      rfl

theorem readsAs_verbatim {s : List Char} (h : Verbatim s) : ReadsAs s s := by
  intro rest
  have hend : readString ('"' :: rest) = some ([], rest) := by
    rw [readString]
  rw [readString_append h, hend, Option.map_some, List.append_nil]

def NoDigit (s : List Char) : Prop := ∀ c ∈ s.head?, c.isDigit = false

theorem toDigits_head {n : Nat} (hn : 0 < n) : (Nat.toDigits 10 n).head? ≠ some '0' := by
  induction n using Nat.strong_induction_on with
  | _ n ih =>
      rw [Nat.toDigits_eq_if (by decide)]
      split
      case isTrue hlt =>
        interval_cases n <;> decide
      case isFalse hge =>
        have hne : Nat.toDigits 10 (n / 10) ≠ [] := Nat.toDigits_ne_nil
        rw [List.head?_append_of_ne_nil _ hne]
        exact ih (n / 10) (Nat.div_lt_self hn (by decide)) (by omega)

theorem readNumber_toDigits (n : Nat) {rest : List Char} (h : NoDigit rest) :
    readNumber (Nat.toDigits 10 n ++ rest) = some (.number n, rest) := by
  have hall : ∀ c ∈ Nat.toDigits 10 n, c.isDigit = true := fun c hc =>
    Nat.isDigit_of_mem_toDigits (by decide) (by decide) hc
  have htake : (Nat.toDigits 10 n ++ rest).takeWhile Char.isDigit = Nat.toDigits 10 n := by
    rw [List.takeWhile_append_of_pos hall]
    cases rest with
    | nil => simp
    | cons c rest =>
        rw [List.takeWhile_cons_of_neg (by simp [h c rfl]), List.append_nil]
  have hdrop : (Nat.toDigits 10 n ++ rest).dropWhile Char.isDigit = rest := by
    rw [List.dropWhile_append_of_pos hall]
    cases rest with
    | nil => rfl
    | cons c rest => rw [List.dropWhile_cons_of_neg (by simp [h c rfl])]
  have hform : ¬(Nat.toDigits 10 n = [] ∨
      ((Nat.toDigits 10 n).head? = some '0' ∧ (Nat.toDigits 10 n).length ≠ 1)) := by
    rintro (hnil | ⟨hhead, hlen⟩)
    · exact Nat.toDigits_ne_nil hnil
    · cases n with
      | zero => exact hlen rfl
      | succ n => exact toDigits_head (Nat.succ_pos n) hhead
  rw [readNumber, htake, hdrop, if_neg hform, Nat.ofDigitChars_ten_toDigits]

namespace Json

variable {raw g : List Char → List Char}

/-- The first character of a value is neither a space nor a closing bracket. -/
theorem dumpsWith_head (raw : List Char → List Char) (j : Json) :
    ∃ c s, dumpsWith raw j = c :: s ∧ isJsonSpace c = false ∧ c ≠ ']' := by
  cases j with
  | number n =>
      rw [dumpsWith]
      cases hdigits : Nat.toDigits 10 n with
      | nil => exact absurd hdigits Nat.toDigits_ne_nil
      | cons c s =>
          have hdigit : c.isDigit = true :=
            Nat.isDigit_of_mem_toDigits (b := 10) (n := n) (by decide) (by decide)
              (by simp [hdigits])
          refine ⟨c, s, rfl, ?_, ?_⟩
          · cases hspace : isJsonSpace c with
            | false => rfl
            | true =>
                have hcases : ((c = ' ' ∨ c = '\t') ∨ c = '\n') ∨ c = '\r' := by
                  simpa [isJsonSpace] using hspace
                rcases hcases with ((rfl | rfl) | rfl) | rfl
                · exact absurd hdigit (by decide)
                · exact absurd hdigit (by decide)
                · exact absurd hdigit (by decide)
                · exact absurd hdigit (by decide)
          · rintro rfl
            exact absurd hdigit (by decide)
  | string s => exact ⟨'"', _, rfl, by decide, by decide⟩
  | array items => exact ⟨'[', _, rfl, by decide, by decide⟩
  | object members => exact ⟨'\x7b', _, rfl, by decide, by decide⟩

theorem skipSpace_cons {c : Char} (h : isJsonSpace c = false) (s : List Char) :
    skipSpace (c :: s) = c :: s :=
  List.dropWhile_cons_of_neg (by simp [h])

theorem noDigit_cons {c : Char} (h : c.isDigit = false) (s : List Char) : NoDigit (c :: s) := by
  rintro d hd
  obtain rfl : c = d := Option.some.inj hd
  exact h

theorem dumpItemsWith_cons_cons (j k : Json) (js : List Json) :
    dumpItemsWith raw (j :: k :: js) = dumpsWith raw j ++ ',' :: dumpItemsWith raw (k :: js) := by
  rw [dumpItemsWith]
  exact List.cons_ne_nil k js

theorem dumpMembersWith_cons_cons (k : List Char) (v : Json) (m : List Char × Json)
    (ms : List (List Char × Json)) :
    dumpMembersWith raw ((k, v) :: m :: ms) =
      dumpString k ++ ':' :: (dumpsWith raw v ++ ',' :: dumpMembersWith raw (m :: ms)) := by
  rw [dumpMembersWith]
  exact List.cons_ne_nil m ms

theorem dumpItemsWith_head (raw : List Char → List Char) (j : Json) (js : List Json)
    (rest : List Char) :
    ∃ c s, dumpItemsWith raw (j :: js) ++ rest = c :: s ∧ isJsonSpace c = false ∧ c ≠ ']' := by
  obtain ⟨c, s, hdumps, hspace, hbracket⟩ := dumpsWith_head raw j
  cases js with
  | nil =>
      rw [dumpItemsWith, hdumps]
      exact ⟨c, _, rfl, hspace, hbracket⟩
  | cons k js =>
      rw [dumpItemsWith_cons_cons, hdumps]
      exact ⟨c, _, rfl, hspace, hbracket⟩

theorem dumpMembersWith_head (raw : List Char → List Char) (m : List Char × Json)
    (ms : List (List Char × Json)) (rest : List Char) :
    ∃ s, dumpMembersWith raw (m :: ms) ++ rest = '"' :: s := by
  rcases m with ⟨k, v⟩
  cases ms with
  | nil => exact ⟨_, rfl⟩
  | cons n ms => exact ⟨_, rfl⟩

/-! ### One round of the reader -/

theorem readValue_number (n fuel : Nat) {rest : List Char} (hrest : NoDigit rest) :
    readValue (fuel + 1) (Nat.toDigits 10 n ++ rest) = some (number n, rest) := by
  obtain ⟨c, s, hdumps, hspace, -⟩ := dumpsWith_head id (number n)
  rw [dumpsWith] at hdumps
  have hread := readNumber_toDigits n hrest
  have hdigit : c.isDigit = true :=
    Nat.isDigit_of_mem_toDigits (b := 10) (n := n) (by decide) (by decide) (by simp [hdumps])
  rw [hdumps, List.cons_append] at hread ⊢
  rw [readValue, skipSpace_cons hspace]
  split
  case h_1 heq =>
    obtain ⟨rfl, -⟩ := List.cons.inj heq
    exact absurd hdigit (by decide)
  case h_2 heq =>
    obtain ⟨rfl, -⟩ := List.cons.inj heq
    exact absurd hdigit (by decide)
  case h_3 heq =>
    obtain ⟨rfl, -⟩ := List.cons.inj heq
    exact absurd hdigit (by decide)
  case h_4 => exact hread

theorem readValue_quote (fuel : Nat) (s : List Char) :
    readValue (fuel + 1) ('"' :: s) = (readString s).map fun r => (string r.1, r.2) := by
  have hquote : isJsonSpace '"' = false := by decide
  simp only [readValue, skipSpace_cons hquote]

theorem readValue_noItems (fuel : Nat) (s : List Char) :
    readValue (fuel + 1) ('[' :: ']' :: s) = some (array [], s) := by
  have hopen : isJsonSpace '[' = false := by decide
  have hclose : isJsonSpace ']' = false := by decide
  simp only [readValue, skipSpace_cons hopen, skipSpace_cons hclose]

theorem readValue_items {c : Char} (hspace : isJsonSpace c = false) (hclose : c ≠ ']') (fuel : Nat)
    (s : List Char) :
    readValue (fuel + 1) ('[' :: c :: s) =
      (readItems fuel (c :: s)).map fun r => (array r.1, r.2) := by
  have hopen : isJsonSpace '[' = false := by decide
  rw [readValue, skipSpace_cons hopen]
  simp only [skipSpace_cons hspace]
  split
  case h_1 heq => exact absurd (List.cons.inj heq).1 hclose
  case h_2 => rfl

theorem readValue_noMembers (fuel : Nat) (s : List Char) :
    readValue (fuel + 1) ('\x7b' :: '\x7d' :: s) = some (object [], s) := by
  have hopen : isJsonSpace '\x7b' = false := by decide
  have hclose : isJsonSpace '\x7d' = false := by decide
  simp only [readValue, skipSpace_cons hopen, skipSpace_cons hclose]

theorem readValue_members (fuel : Nat) (s : List Char) :
    readValue (fuel + 1) ('\x7b' :: '"' :: s) =
      (readMembers fuel ('"' :: s)).map fun r => (object r.1, r.2) := by
  have hopen : isJsonSpace '\x7b' = false := by decide
  have hquote : isJsonSpace '"' = false := by decide
  simp only [readValue, skipSpace_cons hopen, skipSpace_cons hquote]
  rfl

section

variable {fuel : Nat} {s t u k : List Char} {v : Json}

theorem readItems_comma (h : readValue fuel s = some (v, ',' :: t)) :
    readItems (fuel + 1) s = (readItems fuel t).map fun r => (v :: r.1, r.2) := by
  have hcomma : isJsonSpace ',' = false := by decide
  simp only [readItems, h, Option.bind_some, skipSpace_cons hcomma]

theorem readItems_close (h : readValue fuel s = some (v, ']' :: t)) :
    readItems (fuel + 1) s = some ([v], t) := by
  have hclose : isJsonSpace ']' = false := by decide
  simp only [readItems, h, Option.bind_some, skipSpace_cons hclose]

theorem readItems_head {vs : List Json} (h : readItems fuel s = some (vs, t)) :
    ∃ fuel' v u, fuel = fuel' + 1 ∧ readValue fuel' s = some (v, u) ∧ vs.head? = some v := by
  cases fuel with
  | zero =>
      rw [readItems] at h
      cases h
  | succ fuel =>
      rw [readItems, Option.bind_eq_some_iff] at h
      obtain ⟨⟨v, u⟩, hvalue, hrest⟩ := h
      refine ⟨fuel, v, u, rfl, hvalue, ?_⟩
      split at hrest
      case h_1 =>
        obtain ⟨r, -, hr⟩ := Option.map_eq_some_iff.mp hrest
        rw [← (Prod.mk.inj hr).1]
        rfl
      case h_2 =>
        rw [← (Prod.mk.inj (Option.some.inj hrest)).1]
        rfl
      case h_3 => cases hrest

theorem readMembers_comma (hkey : readString s = some (k, ':' :: t))
    (h : readValue fuel t = some (v, ',' :: u)) :
    readMembers (fuel + 1) ('"' :: s) =
      (readMembers fuel u).map fun r => ((k, v) :: r.1, r.2) := by
  have hquote : isJsonSpace '"' = false := by decide
  have hcolon : isJsonSpace ':' = false := by decide
  have hcomma : isJsonSpace ',' = false := by decide
  simp only [readMembers, skipSpace_cons hquote, hkey, Option.bind_some, skipSpace_cons hcolon, h,
    skipSpace_cons hcomma]

theorem readMembers_close (hkey : readString s = some (k, ':' :: t))
    (h : readValue fuel t = some (v, '\x7d' :: u)) :
    readMembers (fuel + 1) ('"' :: s) = some ([(k, v)], u) := by
  have hquote : isJsonSpace '"' = false := by decide
  have hcolon : isJsonSpace ':' = false := by decide
  have hclose : isJsonSpace '\x7d' = false := by decide
  simp only [readMembers, skipSpace_cons hquote, hkey, Option.bind_some, skipSpace_cons hcolon, h,
    skipSpace_cons hclose]

theorem readMembers_head {ms : List (List Char × Json)} (hkey : readString s = some (k, ':' :: t))
    (h : readMembers fuel ('"' :: s) = some (ms, u)) :
    ∃ fuel' v r, fuel = fuel' + 1 ∧ readValue fuel' t = some (v, r) ∧ ms.head? = some (k, v) := by
  cases fuel with
  | zero =>
      rw [readMembers] at h
      cases h
  | succ fuel =>
      have hquote : isJsonSpace '"' = false := by decide
      have hcolon : isJsonSpace ':' = false := by decide
      simp only [readMembers, skipSpace_cons hquote, hkey, Option.bind_some,
        skipSpace_cons hcolon] at h
      obtain ⟨⟨v, r⟩, hvalue, hrest⟩ := Option.bind_eq_some_iff.mp h
      refine ⟨fuel, v, r, rfl, hvalue, ?_⟩
      split at hrest
      case h_1 =>
        obtain ⟨w, -, hw⟩ := Option.map_eq_some_iff.mp hrest
        rw [← (Prod.mk.inj hw).1]
        rfl
      case h_2 =>
        rw [← (Prod.mk.inj (Option.some.inj hrest)).1]
        rfl
      case h_3 => cases hrest

end

/-! ### Whole values -/

theorem dumpsWith_length_pos (j : Json) : 1 ≤ (dumpsWith raw j).length := by
  obtain ⟨c, s, hdumps, -⟩ := dumpsWith_head raw j
  rw [hdumps]
  exact Nat.le_add_left 1 _

theorem readString_key {k : List Char} (hk : Verbatim k) (s : List Char) :
    readString (k ++ '"' :: ':' :: s) = some (k, ':' :: s) :=
  readsAs_verbatim hk (':' :: s)

mutual

/-- A value is read back, whatever stands behind it, in as many rounds as its text has
characters. -/
theorem readValue_dumpsWith : ∀ (j : Json),
    AllStrings Verbatim (fun s => ReadsAs (raw s) (g s)) j → ∀ (fuel : Nat) (rest : List Char),
    (dumpsWith raw j).length ≤ fuel → NoDigit rest →
    readValue fuel (dumpsWith raw j ++ rest) = some (mapStrings g j, rest)
  | number n, _, fuel, rest, hfuel, hrest => by
      obtain ⟨fuel, rfl⟩ := Nat.exists_eq_add_of_le' ((dumpsWith_length_pos _).trans hfuel)
      rw [dumpsWith, mapStrings]
      exact readValue_number n fuel hrest
  | string s, hall, fuel, rest, hfuel, _ => by
      obtain ⟨fuel, rfl⟩ := Nat.exists_eq_add_of_le' ((dumpsWith_length_pos _).trans hfuel)
      rw [AllStrings] at hall
      rw [dumpsWith, mapStrings, List.cons_append, List.append_assoc, readValue_quote,
        List.singleton_append, hall rest]
      rfl
  | array items, hall, fuel, rest, hfuel, _ => by
      obtain ⟨fuel, rfl⟩ := Nat.exists_eq_add_of_le' ((dumpsWith_length_pos _).trans hfuel)
      rw [AllStrings] at hall
      rw [dumpsWith] at hfuel ⊢
      simp only [List.length_cons, List.length_append, List.length_nil] at hfuel
      rw [mapStrings, List.cons_append, List.append_assoc, List.singleton_append]
      cases items with
      | nil => exact readValue_noItems fuel rest
      | cons j js =>
          obtain ⟨c, s, hhead, hspace, hclose⟩ :=
            dumpItemsWith_head raw j js (']' :: rest)
          have hread := readItems_dumpsWith j js hall fuel rest (by omega)
          rw [hhead] at hread ⊢
          rw [readValue_items hspace hclose, hread]
          rfl
  | object members, hall, fuel, rest, hfuel, _ => by
      obtain ⟨fuel, rfl⟩ := Nat.exists_eq_add_of_le' ((dumpsWith_length_pos _).trans hfuel)
      rw [AllStrings] at hall
      rw [dumpsWith] at hfuel ⊢
      simp only [List.length_cons, List.length_append, List.length_nil] at hfuel
      rw [mapStrings, List.cons_append, List.append_assoc, List.singleton_append]
      cases members with
      | nil => exact readValue_noMembers fuel rest
      | cons m ms =>
          obtain ⟨s, hhead⟩ := dumpMembersWith_head raw m ms ('\x7d' :: rest)
          have hread := readMembers_dumpsWith m ms hall fuel rest (by omega)
          rw [hhead] at hread ⊢
          rw [readValue_members, hread]
          rfl

theorem readItems_dumpsWith : ∀ (j : Json) (js : List Json),
    AllItems Verbatim (fun s => ReadsAs (raw s) (g s)) (j :: js) →
    ∀ (fuel : Nat) (rest : List Char), (dumpItemsWith raw (j :: js)).length + 1 ≤ fuel →
    readItems fuel (dumpItemsWith raw (j :: js) ++ ']' :: rest) =
      some (mapItems g (j :: js), rest)
  | j, [], hall, fuel, rest, hfuel => by
      rw [AllItems] at hall
      obtain ⟨fuel, rfl⟩ := Nat.exists_eq_add_of_le' ((Nat.le_add_left 1 _).trans hfuel)
      rw [dumpItemsWith] at hfuel ⊢
      have hread := readValue_dumpsWith j hall.1 fuel (']' :: rest) (by omega)
        (noDigit_cons (by decide) rest)
      rw [readItems_close hread, mapItems, mapItems]
  | j, k :: js, hall, fuel, rest, hfuel => by
      rw [AllItems] at hall
      obtain ⟨fuel, rfl⟩ := Nat.exists_eq_add_of_le' ((Nat.le_add_left 1 _).trans hfuel)
      rw [dumpItemsWith_cons_cons] at hfuel ⊢
      simp only [List.length_append, List.length_cons] at hfuel
      have hread := readValue_dumpsWith j hall.1 fuel
        (',' :: (dumpItemsWith raw (k :: js) ++ ']' :: rest)) (by omega)
        (noDigit_cons (by decide) _)
      have hnext := readItems_dumpsWith k js hall.2 fuel rest (by omega)
      rw [List.append_assoc, List.cons_append, readItems_comma hread, hnext, mapItems]
      rfl

theorem readMembers_dumpsWith : ∀ (m : List Char × Json) (ms : List (List Char × Json)),
    AllMembers Verbatim (fun s => ReadsAs (raw s) (g s)) (m :: ms) →
    ∀ (fuel : Nat) (rest : List Char), (dumpMembersWith raw (m :: ms)).length + 1 ≤ fuel →
    readMembers fuel (dumpMembersWith raw (m :: ms) ++ '\x7d' :: rest) =
      some (mapMembers g (m :: ms), rest)
  | (k, v), [], hall, fuel, rest, hfuel => by
      rw [AllMembers] at hall
      obtain ⟨fuel, rfl⟩ := Nat.exists_eq_add_of_le' ((Nat.le_add_left 1 _).trans hfuel)
      rw [dumpMembersWith, dumpString_verbatim hall.1] at hfuel ⊢
      simp only [List.length_append, List.length_cons, List.length_nil] at hfuel
      have hread := readValue_dumpsWith v hall.2.1 fuel ('\x7d' :: rest) (by omega)
        (noDigit_cons (by decide) rest)
      simp only [List.cons_append, List.append_assoc, List.nil_append]
      rw [readMembers_close (readString_key hall.1 _) hread, mapMembers, mapMembers]
  | (k, v), m :: ms, hall, fuel, rest, hfuel => by
      rw [AllMembers] at hall
      obtain ⟨fuel, rfl⟩ := Nat.exists_eq_add_of_le' ((Nat.le_add_left 1 _).trans hfuel)
      rw [dumpMembersWith_cons_cons, dumpString_verbatim hall.1] at hfuel ⊢
      simp only [List.length_append, List.length_cons, List.length_nil] at hfuel
      have hread := readValue_dumpsWith v hall.2.1 fuel
        (',' :: (dumpMembersWith raw (m :: ms) ++ '\x7d' :: rest)) (by omega)
        (noDigit_cons (by decide) _)
      have hnext := readMembers_dumpsWith m ms hall.2.2 fuel rest (by omega)
      simp only [List.cons_append, List.append_assoc, List.nil_append]
      rw [readMembers_comma (readString_key hall.1 _) hread, hnext, mapMembers]
      rfl

end

/-- Between its quotes a string is read as it is meant, or never. -/
def Settled (raw g : List Char → List Char) (s : List Char) : Prop :=
  ReadsAs (raw s) (g s) ∨ NeverReadsAs (raw s) (g s)

mutual

/-- What is read as it is meant ends where its text ends, and so has each of its strings been. -/
theorem readsAs_of_readValue : ∀ (j : Json), AllStrings Verbatim (Settled raw g) j →
    ∀ (fuel : Nat) (rest r : List Char), NoDigit rest →
    readValue fuel (dumpsWith raw j ++ rest) = some (mapStrings g j, r) →
    AllStrings Verbatim (fun s => ReadsAs (raw s) (g s)) j ∧ r = rest
  | j, _, 0, rest, r, _, hread => by
      rw [readValue] at hread
      cases hread
  | number n, _, fuel + 1, rest, r, hrest, hread => by
      rw [dumpsWith, readValue_number n fuel hrest] at hread
      exact ⟨allStrings_number n, (Prod.mk.inj (Option.some.inj hread)).2.symm⟩
  | string s, hall, fuel + 1, rest, r, _, hread => by
      rw [AllStrings] at hall ⊢
      rw [dumpsWith, mapStrings, List.cons_append, List.append_assoc, readValue_quote,
        List.singleton_append, Option.map_eq_some_iff] at hread
      obtain ⟨⟨t, u⟩, hstring, heq⟩ := hread
      obtain ⟨ht, rfl⟩ := Prod.mk.inj heq
      obtain rfl := string.inj ht
      rcases hall with hreads | hnever
      · rw [hreads rest] at hstring
        exact ⟨hreads, (Prod.mk.inj (Option.some.inj hstring)).2.symm⟩
      · exact absurd hstring (hnever rest u)
  | array [], _, fuel + 1, rest, r, _, hread => by
      have hnone := readValue_noItems fuel rest
      rw [dumpsWith, dumpItemsWith] at hread
      rw [List.nil_append, List.cons_append, List.singleton_append, hnone] at hread
      rw [allStrings_array]
      exact ⟨by simp, (Prod.mk.inj (Option.some.inj hread)).2.symm⟩
  | array (j :: js), hall, fuel + 1, rest, r, _, hread => by
      rw [AllStrings] at hall ⊢
      obtain ⟨c, s, hhead, hspace, hclose⟩ := dumpItemsWith_head raw j js (']' :: rest)
      rw [dumpsWith, mapStrings, List.cons_append, List.append_assoc, List.singleton_append, hhead,
        readValue_items hspace hclose, ← hhead, Option.map_eq_some_iff] at hread
      obtain ⟨⟨vs, u⟩, hitems, heq⟩ := hread
      obtain ⟨hvs, rfl⟩ := Prod.mk.inj heq
      obtain rfl := array.inj hvs
      exact readsAs_of_readItems j js hall fuel rest u hitems
  | object [], _, fuel + 1, rest, r, _, hread => by
      have hnone := readValue_noMembers fuel rest
      rw [dumpsWith, dumpMembersWith] at hread
      rw [List.nil_append, List.cons_append, List.singleton_append, hnone] at hread
      rw [allStrings_object]
      exact ⟨by simp, (Prod.mk.inj (Option.some.inj hread)).2.symm⟩
  | object (m :: ms), hall, fuel + 1, rest, r, _, hread => by
      rw [AllStrings] at hall ⊢
      obtain ⟨s, hhead⟩ := dumpMembersWith_head raw m ms ('\x7d' :: rest)
      rw [dumpsWith, mapStrings, List.cons_append, List.append_assoc, List.singleton_append, hhead,
        readValue_members, ← hhead, Option.map_eq_some_iff] at hread
      obtain ⟨⟨vs, u⟩, hmembers, heq⟩ := hread
      obtain ⟨hvs, rfl⟩ := Prod.mk.inj heq
      obtain rfl := object.inj hvs
      exact readsAs_of_readMembers m ms hall fuel rest u hmembers
termination_by j => sizeOf j

theorem readsAs_of_readItems : ∀ (j : Json) (js : List Json),
    AllItems Verbatim (Settled raw g) (j :: js) → ∀ (fuel : Nat) (rest r : List Char),
    readItems fuel (dumpItemsWith raw (j :: js) ++ ']' :: rest) = some (mapItems g (j :: js), r) →
    AllItems Verbatim (fun s => ReadsAs (raw s) (g s)) (j :: js) ∧ r = rest
  | j, [], hall, fuel, rest, r, hread => by
      rw [AllItems] at hall ⊢
      obtain ⟨fuel, v, u, rfl, hvalue, hv⟩ := readItems_head hread
      obtain rfl := Option.some.inj hv
      rw [dumpItemsWith] at hread hvalue
      obtain ⟨hj, rfl⟩ := readsAs_of_readValue j hall.1 fuel (']' :: rest) u
        (noDigit_cons (by decide) rest) hvalue
      rw [readItems_close hvalue] at hread
      exact ⟨⟨hj, hall.2⟩, (Prod.mk.inj (Option.some.inj hread)).2.symm⟩
  | j, k :: js, hall, fuel, rest, r, hread => by
      rw [AllItems] at hall ⊢
      obtain ⟨fuel, v, u, rfl, hvalue, hv⟩ := readItems_head hread
      obtain rfl := Option.some.inj hv
      rw [dumpItemsWith_cons_cons, List.append_assoc, List.cons_append] at hread hvalue
      obtain ⟨hj, rfl⟩ := readsAs_of_readValue j hall.1 fuel _ u (noDigit_cons (by decide) _) hvalue
      rw [readItems_comma hvalue, Option.map_eq_some_iff] at hread
      obtain ⟨⟨vs, w⟩, hitems, heq⟩ := hread
      rw [mapItems] at heq
      obtain ⟨hvs, rfl⟩ := Prod.mk.inj heq
      have htail : vs = mapItems g (k :: js) := (List.cons.inj hvs).2
      rw [htail] at hitems
      obtain ⟨hjs, rfl⟩ := readsAs_of_readItems k js hall.2 fuel rest w hitems
      exact ⟨⟨hj, hjs⟩, rfl⟩
termination_by j js => sizeOf (j :: js)

theorem readsAs_of_readMembers : ∀ (m : List Char × Json) (ms : List (List Char × Json)),
    AllMembers Verbatim (Settled raw g) (m :: ms) → ∀ (fuel : Nat) (rest r : List Char),
    readMembers fuel (dumpMembersWith raw (m :: ms) ++ '\x7d' :: rest) =
      some (mapMembers g (m :: ms), r) →
    AllMembers Verbatim (fun s => ReadsAs (raw s) (g s)) (m :: ms) ∧ r = rest
  | (k, v), [], hall, fuel, rest, r, hread => by
      rw [AllMembers] at hall ⊢
      rw [dumpMembersWith, dumpString_verbatim hall.1] at hread
      simp only [List.cons_append, List.append_assoc, List.nil_append] at hread
      have hkey := readString_key hall.1 (dumpsWith raw v ++ '\x7d' :: rest)
      obtain ⟨fuel, w, u, rfl, hvalue, hw⟩ := readMembers_head hkey hread
      obtain rfl := (Prod.mk.inj (Option.some.inj hw)).2
      obtain ⟨hv, rfl⟩ := readsAs_of_readValue v hall.2.1 fuel _ u (noDigit_cons (by decide) _)
        hvalue
      rw [readMembers_close hkey hvalue] at hread
      exact ⟨⟨hall.1, hv, hall.2.2⟩, (Prod.mk.inj (Option.some.inj hread)).2.symm⟩
  | (k, v), m :: ms, hall, fuel, rest, r, hread => by
      rw [AllMembers] at hall ⊢
      rw [dumpMembersWith_cons_cons, dumpString_verbatim hall.1] at hread
      simp only [List.cons_append, List.append_assoc, List.nil_append] at hread
      have hkey := readString_key hall.1
        (dumpsWith raw v ++ ',' :: (dumpMembersWith raw (m :: ms) ++ '\x7d' :: rest))
      obtain ⟨fuel, w, u, rfl, hvalue, hw⟩ := readMembers_head hkey hread
      obtain rfl := (Prod.mk.inj (Option.some.inj hw)).2
      obtain ⟨hv, rfl⟩ := readsAs_of_readValue v hall.2.1 fuel _ u (noDigit_cons (by decide) _)
        hvalue
      rw [readMembers_comma hkey hvalue, Option.map_eq_some_iff] at hread
      obtain ⟨⟨vs, x⟩, hmembers, heq⟩ := hread
      rw [mapMembers] at heq
      obtain ⟨hvs, rfl⟩ := Prod.mk.inj heq
      have htail : vs = mapMembers g (m :: ms) := (List.cons.inj hvs).2
      rw [htail] at hmembers
      obtain ⟨hms, rfl⟩ := readsAs_of_readMembers m ms hall.2.2 fuel rest x hmembers
      exact ⟨⟨hall.1, hv, hms⟩, rfl⟩
termination_by m ms => sizeOf (m :: ms)

end

end Json

end Foundation
