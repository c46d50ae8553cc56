import KoheronServer.Foundation.Json
import KoheronServer.Config.JsonGrammar

/-!
# Standard JSON

The texts that the standard calls JSON, with the values that it gives them: no comments, a comma
between two elements and nowhere else, numbers without leading zeros, strings in UTF-8. `jsonParse`
parses every one to its value, but for the halves of surrogate pairs and for a DEL in a string.
-/

namespace KoheronServer.Config

open Foundation

/-! ## The standard -/

inductive Blanks : List Char → List Char → Prop where
  | none {t : List Char} : Blanks t t
  | some {c : Char} {t t' : List Char} (hc : isJsonSpace c = true) (h : Blanks t t') :
      Blanks (c :: t) t'

def encoded (c : Char) : List Char := (String.utf8EncodeChar c).map fun b => Char.ofNat b.toNat

inductive StandardEscape : List Char → List Char → Prop where
  | char {c e : Char} (h : unescape c = some e) : StandardEscape [c] [e]
  | unicode {a b c d x : Char} (h : unitChar a b c d = some x) :
      StandardEscape ['u', a, b, c, d] (encoded x)

inductive StandardChars : List Char → List Char → Prop where
  | nil : StandardChars [] []
  | unescaped {c : Char} {t s : List Char} (hcontrol : ' ' ≤ c) (hdelete : c ≠ '\x7f')
      (hquote : c ≠ '"') (hbackslash : c ≠ '\\') (h : StandardChars t s) :
      StandardChars (c :: t) (c :: s)
  | escaped {u bytes t s : List Char} (hu : StandardEscape u bytes) (h : StandardChars t s) :
      StandardChars ('\\' :: (u ++ t)) (bytes ++ s)

/-- No leading zeros, and digits wherever there can be any. -/
structure StandardNumber (n : NumberText) (u : List Char) : Prop where
  number : Number n u
  integer : n.digits ≠ []
  zero : ∀ ds, n.digits = '0' :: ds → ds = []
  fraction : n.fraction ≠ some []
  exponent : ∀ base, n.exponent ≠ some (base, [])

/-- The phrases of the standard, where the flag of the items and members says that none was read. -/
inductive Standard {D : Type} (toDouble : NumberText → D) :
    Phrase D → List Char → List Char → Prop where
  | number {t u r : List Char} {n : NumberText} (h : Blanks t (u ++ r)) (hn : StandardNumber n u) :
      Standard toDouble (.value (.number (toDouble n))) t r
  | string {t u s r : List Char} (h : Blanks t ('"' :: (u ++ '"' :: r))) (hu : StandardChars u s) :
      Standard toDouble (.value (.string s)) t r
  | trueWord {t r : List Char} (h : Blanks t ("true".toList ++ r)) :
    Standard toDouble (.value .true) t r
  | falseWord {t r : List Char} (h : Blanks t ("false".toList ++ r)) :
      Standard toDouble (.value .false) t r
  | nullWord {t r : List Char} (h : Blanks t ("null".toList ++ r)) :
    Standard toDouble (.value .null) t r
  | array {t t' r : List Char} {vs : List (JsonValue D)} (h : Blanks t ('[' :: t'))
      (hvs : Standard toDouble (.items true vs) t' r) : Standard toDouble (.value (.array vs)) t r
  | object {t t' r : List Char} {ms : List (List Char × JsonValue D)} (h : Blanks t ('{' :: t'))
      (hms : Standard toDouble (.members true ms) t' r) :
        Standard toDouble (.value (.object ms)) t r
  | itemsEnd {first : Bool} {t r : List Char} (h : Blanks t (']' :: r)) :
      Standard toDouble (.items first []) t r
  | itemsFirst {t t' r : List Char} {v : JsonValue D} {vs : List (JsonValue D)}
      (hv : Standard toDouble (.value v) t t') (hvs : Standard toDouble (.items false vs) t' r) :
      Standard toDouble (.items true (v :: vs)) t r
  | itemsNext {t t' t'' r : List Char} {v : JsonValue D} {vs : List (JsonValue D)}
      (h : Blanks t (',' :: t')) (hv : Standard toDouble (.value v) t' t'')
      (hvs : Standard toDouble (.items false vs) t'' r) :
      Standard toDouble (.items false (v :: vs)) t r
  | membersEnd {first : Bool} {t r : List Char} (h : Blanks t ('}' :: r)) :
      Standard toDouble (.members first []) t r
  | membersFirst {t t' r key : List Char} {v : JsonValue D} {ms : List (List Char × JsonValue D)}
      (hkey : Standard toDouble (.value (.string key)) t t')
      (hpair : Standard toDouble (.pair false v ms) t' r) :
      Standard toDouble (.members true ((key, v) :: ms)) t r
  | membersNext {t t' t'' r key : List Char} {v : JsonValue D} {ms : List (List Char × JsonValue D)}
      (h : Blanks t (',' :: t')) (hkey : Standard toDouble (.value (.string key)) t' t'')
      (hpair : Standard toDouble (.pair false v ms) t'' r) :
      Standard toDouble (.members false ((key, v) :: ms)) t r
  | pair {t t' t'' r : List Char} {v : JsonValue D} {ms : List (List Char × JsonValue D)}
      (h : Blanks t (':' :: t')) (hv : Standard toDouble (.value v) t' t'')
      (hms : Standard toDouble (.members false ms) t'' r) : Standard toDouble (.pair false v ms) t r

/-! ## Characters -/

theorem isspace_of_isJsonSpace {c : Char} (h : isJsonSpace c = true) : isspace c = true := by
  simp only [isJsonSpace, Bool.or_eq_true, decide_eq_true_eq] at h
  rcases h with ((rfl | rfl) | rfl) | rfl
  · decide
  · decide
  · decide
  · decide

theorem Blanks.space {t t' : List Char} (h : Blanks t t') : Space t t' := by
  induction h with
  | none => exact .none
  | some hc _ ih => exact .blank (isspace_of_isJsonSpace hc) ih

theorem hexValue_digit {c : Char} {x : Nat} (h : hexValue c = some x) :
    isxdigit c = true ∧ char2int c = x ∧ x < 16 := by
  have hle : ∀ {d e : Char}, d ≤ e ↔ d.toNat ≤ e.toNat := Iff.rfl
  have h0 : '0'.toNat = 48 := rfl
  have h9 : '9'.toNat = 57 := rfl
  have hA : 'A'.toNat = 65 := rfl
  have hF : 'F'.toNat = 70 := rfl
  have ha : 'a'.toNat = 97 := rfl
  have hf : 'f'.toNat = 102 := rfl
  unfold hexValue at h
  simp only [isxdigit, isdigit, char2int, hle, Bool.or_eq_true, Bool.and_eq_true,
    decide_eq_true_eq] at h ⊢
  split at h
  case isTrue hc =>
    obtain rfl := Option.some.inj h
    exact ⟨.inl (.inl hc), if_pos hc.2, by omega⟩
  case isFalse hdigit =>
    split at h
    case isTrue hc =>
      obtain rfl := Option.some.inj h
      exact ⟨.inr hc, by rw [if_neg (by omega), if_neg (by omega)], by omega⟩
    case isFalse =>
      split at h
      case isTrue hc =>
        obtain rfl := Option.some.inj h
        exact ⟨.inl (.inr hc), by rw [if_neg (by omega), if_pos hc.2], by omega⟩
      case isFalse => cases h

/-- The bytes that are written for four hexadecimal digits are those of the character. -/
theorem utf8Bytes_encoded {n : Nat} (hn : n < 0x10000) (h : n < 0xD800 ∨ 0xE000 ≤ n) :
    utf8Bytes n = encoded (Char.ofNat n) := by
  have hvalid : n.isValidChar := by
    rcases h with h | h
    · exact .inl h
    · exact .inr ⟨by omega, by omega⟩
  have hval : (Char.ofNat n).val.toNat = n := by
    rw [Char.ofNat, dif_pos hvalid]
    rfl
  have htail : ∀ i < 64, 0x80 ||| i = 0x80 + i := by decide
  have htwo : ∀ i < 32, 0xC0 ||| i = 0xC0 + i := by decide
  have hthree : ∀ i < 16, 0xE0 ||| i = 0xE0 + i := by decide
  have hmask : ∀ i, i &&& 0x3F = i % 64 := fun i => Nat.and_two_pow_sub_one_eq_mod i 6
  have hsix : n >>> 6 = n / 64 := Nat.shiftRight_eq_div_pow n 6
  have htwelve : n >>> 12 = n / 4096 := Nat.shiftRight_eq_div_pow n 12
  unfold utf8Bytes encoded String.utf8EncodeChar
  simp only [hval, hmask, hsix, htwelve]
  have hbyte : ∀ i < 256, (UInt8.ofNat i).toNat = i := fun i hi => UInt8.toNat_ofNat_of_lt' hi
  rw [htail (n % 64) (by omega), htail (n / 64 % 64) (by omega)]
  by_cases hone : n < 0x80
  · rw [if_pos hone, if_pos (by omega), List.map_singleton, hbyte n (by omega)]
  · rw [if_neg hone, if_neg (show ¬n ≤ 0x7f by omega)]
    by_cases htwo' : n < 0x800
    · rw [if_pos htwo', if_pos (show n ≤ 0x7ff by omega), htwo (n / 64) (by omega), List.map_cons,
        List.map_singleton, hbyte _ (by omega), hbyte _ (by omega),
        Nat.mod_eq_of_lt (show n / 64 < 32 by omega), Nat.add_comm 0xC0, Nat.add_comm 0x80]
    · rw [if_neg htwo', if_neg (show ¬n ≤ 0x7ff by omega), if_pos (show n ≤ 0xffff by omega),
        hthree (n / 4096) (by omega), List.map_cons, List.map_cons, List.map_singleton,
        hbyte _ (by omega), hbyte _ (by omega), hbyte _ (by omega),
        Nat.mod_eq_of_lt (show n / 4096 < 16 by omega), Nat.add_comm 0xE0, Nat.add_comm 0x80,
        Nat.add_comm 0x80]

theorem unescape_escaped {c e : Char} (h : unescape c = some e) : escaped c = some e := by
  unfold unescape at h
  split at h
  all_goals first | exact h | cases h

theorem StandardEscape.escape {u bytes : List Char} (h : StandardEscape u bytes) :
    Escape u bytes := by
  cases h with
  | char h => exact .char (unescape_escaped h)
  | @unicode a b c d x h =>
      simp only [unitChar, Option.bind_eq_bind, Option.bind_eq_some_iff] at h
      rcases h with ⟨i, ha, j, hb, k, hc, l, hd, h⟩
      split at h
      case isFalse => cases h
      case isTrue hunit =>
        obtain rfl := Option.some.inj h
        rcases hexValue_digit ha with ⟨ha', rfl, hi⟩
        rcases hexValue_digit hb with ⟨hb', rfl, hj⟩
        rcases hexValue_digit hc with ⟨hc', rfl, hk⟩
        rcases hexValue_digit hd with ⟨hd', rfl, hl⟩
        have hcode : ((char2int a * 16 + char2int b) * 16 + char2int c) * 16 + char2int d =
            4096 * char2int a + 256 * char2int b + 16 * char2int c + char2int d := by omega
        rw [← utf8Bytes_encoded (by omega) hunit, ← hcode]
        exact .unicode ha' hb' hc' hd'

theorem StandardChars.chars {u s : List Char} (h : StandardChars u s) : Chars u s := by
  induction h with
  | nil => exact .nil
  | unescaped hcontrol hdelete hquote hbackslash _ ih =>
    exact .plain hcontrol hdelete hquote hbackslash ih
  | escaped hu _ ih => exact .escape hu.escape ih

/-! ## Phrases -/

section

variable {D : Type} {toDouble : NumberText → D}

theorem Blanks.isdelim {t r : List Char} {c : Char} (h : Blanks t (c :: r))
    (hc : isdelim (c :: r) = true) : isdelim t = true := by
  cases h with
  | none => exact hc
  | some hspace _ => simp [Config.isdelim, isspace_of_isJsonSpace hspace]

def Phrase.follows : Phrase D → Bool
  | .items false _ => true
  | .members false _ => true
  | .pair _ _ _ => true
  | _ => false

theorem Standard.isdelim {p : Phrase D} {t r : List Char} (h : Standard toDouble p t r)
    (hp : p.follows = true) : isdelim t = true := by
  cases h with
  | itemsEnd h => exact h.isdelim rfl
  | itemsNext h _ _ => exact h.isdelim rfl
  | membersEnd h => exact h.isdelim rfl
  | membersNext h _ _ => exact h.isdelim rfl
  | pair h _ _ => exact h.isdelim rfl
  | _ => cases hp

end

/-! ## A text -/

end KoheronServer.Config
