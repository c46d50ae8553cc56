import KoheronServer.Config.KServerConfig

/-!
# Comments

A comment goes from its `#` to the end of the line. The loop of `jsonParse` advances
before it looks for the newline, so an empty comment takes the next line with it.
Where that line holds nothing, the loop finds what a parser finds that skips every
comment.
-/

namespace KoheronServer.Config

open Foundation

/-- A text without the white space and the comments at its head, which may start in a comment. -/
def skipBlank : Bool → List Char → List Char
  | _, [] => []
  | false, c :: s =>
      if isspace c then skipBlank false s else if c = '#' then skipBlank true s else c :: s
  | true, c :: s => if c = '\n' then skipBlank false s else skipBlank true s

theorem skipBlank_dropWhile (s : List Char) :
    skipBlank false (s.dropWhile isspace) = skipBlank false s := by
  induction s with
  | nil => rfl
  | cons c s ih =>
      rw [List.dropWhile_cons]
      split
      case isTrue hc => rw [ih, skipBlank, if_pos hc]
      case isFalse => rfl

/-- What is left behind a comment. -/
theorem skipBlank_comment (s : List Char) :
    skipBlank true s = skipBlank false (s.dropWhile (· ≠ '\n')) := by
  induction s with
  | nil => rfl
  | cons c s ih =>
      by_cases hc : c = '\n'
      · subst hc
        rfl
      · rw [skipBlank, if_neg hc, ih, List.dropWhile_cons, if_pos (by simpa using hc)]

theorem skipBlank_body {body : List Char} (h : ∀ c ∈ body, c ≠ '\n') (s : List Char) :
    skipBlank true (body ++ '\n' :: s) = skipBlank false s := by
  induction body with
  | nil => rfl
  | cons c body ih =>
      rw [List.cons_append, skipBlank, if_neg (h c List.mem_cons_self)]
      exact ih fun c' hc' => h c' (List.mem_cons_of_mem _ hc')

def hollow (s : List Char) : Bool :=
  match s.dropWhile (· ≠ '\n') with
  | [] => false
  | _ :: _ =>
      match (s.takeWhile (· ≠ '\n')).dropWhile isspace with
      | [] => true
      | c :: _ => c = '#'

theorem skipBlank_hollow {s : List Char} (h : hollow s = true) :
    s.dropWhile (· ≠ '\n') ≠ [] ∧
      skipBlank false (s.dropWhile (· ≠ '\n')) = skipBlank false s := by
  induction s with
  | nil => cases h
  | cons c s ih =>
      by_cases hc : c = '\n'
      · subst hc
        exact ⟨List.cons_ne_nil _ _, rfl⟩
      · have hne : decide (c ≠ '\n') = true := by simpa using hc
        rw [hollow, List.dropWhile_cons, if_pos hne, List.takeWhile_cons, if_pos hne,
          List.dropWhile_cons] at h
        rw [List.dropWhile_cons, if_pos hne, skipBlank]
        by_cases hspace : isspace c = true
        · rw [if_pos hspace] at h ⊢
          exact ih h
        · rw [if_neg hspace] at h ⊢
          split at h
          · cases h
          case h_2 hdrop =>
            have hhash : c = '#' := of_decide_eq_true h
            rw [if_pos hhash, skipBlank_comment, hdrop]
            exact ⟨List.cons_ne_nil _ _, rfl⟩

/-- The loop stands at an empty comment, and the next line is not hollow. -/
def swallowsLine (rest : List Char) : Bool :=
  match rest.dropWhile isspace with
  | '#' :: '\n' :: s => !hollow s
  | _ => false

theorem skipComment_cons (c : Char) {s : List Char} (h : s.dropWhile (· ≠ '\n') ≠ []) :
    skipComment (c :: s) = some (s.dropWhile (· ≠ '\n')) := by
  cases hdrop : s.dropWhile (· ≠ '\n') with
  | nil => exact absurd hdrop h
  | cons d s' => simp only [skipComment, hdrop]

/-- Elsewhere it skips a comment as it is meant. -/
theorem skipComment_blank {rest s : List Char} (hrest : rest.dropWhile isspace = '#' :: s)
    (h : swallowsLine rest = false) :
    (skipComment s = none ∧ skipBlank false rest = []) ∨
      ∃ rest', skipComment s = some rest' ∧ skipBlank false rest' = skipBlank false rest := by
  have hblank : skipBlank false rest = skipBlank true s := by
    rw [← skipBlank_dropWhile, hrest]
    rfl
  rw [hblank]
  cases s with
  | nil => exact .inl ⟨rfl, rfl⟩
  | cons c s =>
      by_cases hc : c = '\n'
      · subst hc
        have hhollow : hollow s = true := by
          simpa [swallowsLine, hrest] using h
        obtain ⟨hne, hskip⟩ := skipBlank_hollow hhollow
        exact .inr ⟨_, skipComment_cons '\n' hne, hskip⟩
      · rw [skipBlank, if_neg hc, skipBlank_comment]
        by_cases hdrop : s.dropWhile (· ≠ '\n') = []
        · rw [hdrop]
          refine .inl ⟨?_, rfl⟩
          simp only [skipComment, hdrop]
        · exact .inr ⟨_, skipComment_cons c hdrop, rfl⟩

section

variable {D : Type} {toDouble : NumberText → D} {allocates : Nat → Bool} {st st' : ParseState D}

/-- A round of the loop of a parser that skips white space and comments at once. -/
def ParseState.meantStep (toDouble : NumberText → D) (allocates : Nat → Bool) (st : ParseState D) :
    ParseResult D ⊕ ParseState D :=
  match skipBlank false st.rest with
  | [] => .inl .overread
  | c :: s => token toDouble allocates { st with rest := s, endptr := c :: s } c s

theorem meantStep_nil (h : skipBlank false st.rest = []) :
    st.meantStep toDouble allocates = .inl .overread := by
  rw [ParseState.meantStep, h]

theorem meantStep_cons {c : Char} {s : List Char} (h : skipBlank false st.rest = c :: s) :
    st.meantStep toDouble allocates =
      ParseState.token toDouble allocates { st with rest := s, endptr := c :: s } c s := by
  rw [ParseState.meantStep, h]

/-- A round finds no more than the end of the text, or skips a comment, or is a round of that
parser. -/
inductive RoundMeant (toDouble : NumberText → D) (allocates : Nat → Bool) (st : ParseState D) :
    ParseResult D ⊕ ParseState D → Prop where
  | last {r : ParseResult D} (hr : ∀ v e, r ≠ .ok v e) (hblank : skipBlank false st.rest = []) :
      RoundMeant toDouble allocates st (.inl r)
  | comment {rest endptr : List Char} (hblank : skipBlank false rest = skipBlank false st.rest) :
      RoundMeant toDouble allocates st (.inr { st with rest := rest, endptr := endptr })
  | token : RoundMeant toDouble allocates st (st.meantStep toDouble allocates)

theorem step_meant (h : swallowsLine st.rest = false) :
    RoundMeant toDouble allocates st (st.step toDouble allocates) := by
  cases hrest : st.rest with
  | nil =>
      have hstep : st.step toDouble allocates = .inl (.error .breakingBad st.endptr) := by
        rw [ParseState.step, hrest]
      rw [hstep]
      exact .last (fun _ _ heq => nomatch heq) (by rw [hrest]; rfl)
  | cons c₀ s₀ =>
      cases hdrop : st.rest.dropWhile isspace with
      | nil =>
          have hstep : st.step toDouble allocates = .inl .overread := by
            unfold ParseState.step
            simp only [hrest] at hdrop ⊢
            rw [hdrop]
          rw [hstep]
          exact .last (fun _ _ heq => nomatch heq) (by rw [← skipBlank_dropWhile, hdrop]; rfl)
      | cons c s =>
          rw [ParseState.step_cons hdrop]
          by_cases hc : c = '#'
          · subst hc
            rw [if_pos rfl]
            rcases skipComment_blank hdrop h with ⟨hskip, hblank⟩ | ⟨rest, hskip, hblank⟩
            · rw [hskip]
              exact .last (fun _ _ heq => nomatch heq) hblank
            · rw [hskip]
              exact .comment hblank
          · have hspace : isspace c = false := by
              have hhead := List.head?_dropWhile_not isspace st.rest
              rw [hdrop] at hhead
              simpa using hhead
            have hblank : skipBlank false st.rest = c :: s := by
              rw [← skipBlank_dropWhile, hdrop, skipBlank, hspace, if_neg (by simp), if_neg hc]
            rw [if_neg hc, ← meantStep_cons hblank]
            exact .token

/-- `jsonParse` finds a value where that parser does, when it swallows no line. -/
theorem ends_iff_meant {v : JsonValue D} {e : List Char}
    (h : ∀ st', Reaches (ParseState.step toDouble allocates) st st' → swallowsLine st'.rest = false) :
    Ends (ParseState.step toDouble allocates) st (.ok v e) ↔
      Ends (ParseState.meantStep toDouble allocates) st (.ok v e) := by
  induction hlength : st.rest.length using Nat.strongRecOn generalizing st with
  | ind n ih =>
    subst hlength
    have hnext : ∀ {st₁}, st.step toDouble allocates = .inr st₁ →
        (Ends (ParseState.step toDouble allocates) st₁ (.ok v e) ↔
          Ends (ParseState.meantStep toDouble allocates) st₁ (.ok v e)) := by
      intro st₁ hstep
      exact ih _ (ParseState.step_length hstep) (fun st' hst' => h st' (.head hstep hst')) rfl
    have hround : RoundMeant toDouble allocates st _ := step_meant (h st .refl)
    generalize hstep : st.step toDouble allocates = r at hround
    cases hround with
    | last hr hblank =>
        rw [ends_inl hstep, ends_inl (meantStep_nil hblank)]
        exact ⟨fun heq => absurd heq.symm (hr v e), fun heq => nomatch heq⟩
    | comment hblank =>
        rw [ends_inr hstep, hnext hstep]
        apply ends_congr
        simp only [ParseState.meantStep, hblank]
    | token =>
        cases hmeant : st.meantStep toDouble allocates with
        | inl r =>
            rw [ends_inl (hstep.trans hmeant), ends_inl hmeant]
        | inr st₁ =>
            rw [ends_inr (hstep.trans hmeant), ends_inr hmeant, hnext (hstep.trans hmeant)]

end

end KoheronServer.Config
