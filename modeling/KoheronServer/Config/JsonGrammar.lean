import KoheronServer.Config.JsonTokens

/-!
# The language of `jsonParse`

The loop of `jsonParse` keeps the arrays and objects that are open on a stack. Its language is JSON
with comments, where a comma or a colon may be missing and a comma may stand in front of a closing
bracket. A text is parsed to a value exactly when it derives this value, the stack has room for its
depth and every node is allocated.
-/

namespace KoheronServer.Config

open Foundation

section

variable {D : Type}

/-! ## The grammar -/

/-- What a text can be read as: a value, the rest of an array or of an object up to its bracket, or
the rest of an object behind a key. The flag says that a comma or a colon was just read. -/
inductive Phrase (D : Type) where
  | value (v : JsonValue D)
  | items (separator : Bool) (nodes : List (JsonValue D))
  | members (separator : Bool) (nodes : List (List Char × JsonValue D))
  | pair (separator : Bool) (v : JsonValue D) (nodes : List (List Char × JsonValue D))

/-- A text starts with a phrase, with what is left of it. -/
inductive Derives (toDouble : NumberText → D) : Phrase D → List Char → List Char → Prop where
  | token {t t' r : List Char} {v : JsonValue D} (h : Space t t') (hv : Token toDouble t' v r) :
      Derives toDouble (.value v) t r
  | array {t t' r : List Char} {vs : List (JsonValue D)} (h : Space t ('[' :: t'))
      (hvs : Derives toDouble (.items true vs) t' r) : Derives toDouble (.value (.array vs)) t r
  | object {t t' r : List Char} {ms : List (List Char × JsonValue D)} (h : Space t ('{' :: t'))
      (hms : Derives toDouble (.members true ms) t' r) : Derives toDouble (.value (.object ms)) t r
  | itemsEnd {separator : Bool} {t r : List Char} (h : Space t (']' :: r)) :
      Derives toDouble (.items separator []) t r
  | itemsComma {t t' r : List Char} {vs : List (JsonValue D)} (h : Space t (',' :: t'))
      (hvs : Derives toDouble (.items true vs) t' r) : Derives toDouble (.items false vs) t r
  | item {separator : Bool} {t t' r : List Char} {v : JsonValue D} {vs : List (JsonValue D)}
      (hv : Derives toDouble (.value v) t t') (hvs : Derives toDouble (.items false vs) t' r) :
      Derives toDouble (.items separator (v :: vs)) t r
  | membersEnd {separator : Bool} {t r : List Char} (h : Space t ('}' :: r)) :
      Derives toDouble (.members separator []) t r
  | membersComma {t t' r : List Char} {ms : List (List Char × JsonValue D)}
      (h : Space t (',' :: t')) (hms : Derives toDouble (.members true ms) t' r) :
      Derives toDouble (.members false ms) t r
  | member {separator : Bool} {t t' r key : List Char} {v : JsonValue D}
      {ms : List (List Char × JsonValue D)} (hkey : Derives toDouble (.value (.string key)) t t')
      (hpair : Derives toDouble (.pair false v ms) t' r) :
      Derives toDouble (.members separator ((key, v) :: ms)) t r
  | pairColon {t t' r : List Char} {v : JsonValue D} {ms : List (List Char × JsonValue D)}
      (h : Space t (':' :: t')) (hpair : Derives toDouble (.pair true v ms) t' r) :
      Derives toDouble (.pair false v ms) t r
  | pair {separator : Bool} {t t' r : List Char} {v : JsonValue D}
      {ms : List (List Char × JsonValue D)} (hv : Derives toDouble (.value v) t t')
      (hms : Derives toDouble (.members false ms) t' r) :
      Derives toDouble (.pair separator v ms) t r

mutual

def JsonValue.depth : JsonValue D → Nat
  | .array nodes => depthItems nodes + 1
  | .object nodes => depthMembers nodes + 1
  | _ => 0

def depthItems : List (JsonValue D) → Nat
  | [] => 0
  | v :: nodes => max v.depth (depthItems nodes)

def depthMembers : List (List Char × JsonValue D) → Nat
  | [] => 0
  | (_, v) :: nodes => max v.depth (depthMembers nodes)

end

mutual

def JsonValue.size : JsonValue D → Nat
  | .array nodes => sizeItems nodes
  | .object nodes => sizeMembers nodes
  | _ => 0

def sizeItems : List (JsonValue D) → Nat
  | [] => 0
  | v :: nodes => v.size + 1 + sizeItems nodes

def sizeMembers : List (List Char × JsonValue D) → Nat
  | [] => 0
  | (_, v) :: nodes => v.size + 1 + sizeMembers nodes

end

def Phrase.depth : Phrase D → Nat
  | .value v => v.depth
  | .items _ nodes => depthItems nodes
  | .members _ nodes => depthMembers nodes
  | .pair _ v nodes => max v.depth (depthMembers nodes)

def Phrase.size : Phrase D → Nat
  | .value v => v.size
  | .items _ nodes => sizeItems nodes
  | .members _ nodes => sizeMembers nodes
  | .pair _ v nodes => v.size + 1 + sizeMembers nodes

/-- Something of this depth and size fits where so many arrays and objects are open, and so many
nodes are allocated. -/
structure Fits (allocates : Nat → Bool) (level allocations depth size : Nat) : Prop where
  depth : level + depth ≤ jsonStackSize
  allocates : ∀ i < size, allocates (allocations + i) = true

end

section

variable {allocates : Nat → Bool} {level allocations depth depth' size size' : Nat}

theorem fits_node :
    Fits allocates level allocations (max depth depth') (size + 1 + size') ↔
      Fits allocates level allocations depth size ∧ allocates (allocations + size) = true ∧
        Fits allocates level (allocations + size + 1) depth' size' := by
  constructor
  · intro h
    have hlevel := h.depth
    refine ⟨⟨by omega, fun i hi => h.allocates i (by omega)⟩, h.allocates size (by omega),
      ⟨by omega, ?_⟩⟩
    intro i hi
    have hnext := h.allocates (size + 1 + i) (Nat.add_lt_add_left hi _)
    rwa [← Nat.add_assoc, ← Nat.add_assoc] at hnext
  · rintro ⟨hv, hnode, hrest⟩
    have hdepth := hv.depth
    have hdepth' := hrest.depth
    constructor
    · omega
    · intro i hi
      rcases Nat.lt_trichotomy i size with hlt | rfl | hgt
      · exact hv.allocates i hlt
      · exact hnode
      · obtain ⟨j, rfl⟩ : ∃ j, i = size + 1 + j := ⟨i - (size + 1), by omega⟩
        have hnext := hrest.allocates j (by omega)
        rwa [← Nat.add_assoc, ← Nat.add_assoc]

theorem fits_bracket :
    Fits allocates level allocations (depth + 1) size ↔
      Fits allocates (level + 1) allocations depth size := by
  constructor
  · intro h
    have hlevel := h.depth
    exact ⟨by omega, h.allocates⟩
  · intro h
    have hlevel := h.depth
    exact ⟨by omega, h.allocates⟩

end

/-! ## What derives is read -/

section

variable {D : Type} {toDouble : NumberText → D} {allocates : Nat → Bool} {st st' : ParseState D}
  {p : Phrase D} {v o : JsonValue D} {allocations : Nat} {r : List Char}

/-- Some rounds come to a round that takes a value, with these frames below it. -/
def Takes (toDouble : NumberText → D) (allocates : Nat → Bool) (st : ParseState D)
    (o : JsonValue D) (r : List Char) (stack : List (Frame D)) (allocations : Nat) : Prop :=
  ∃ st₁ st₂ : ParseState D, Reaches (ParseState.step toDouble allocates) st st₁ ∧
    st₁.step toDouble allocates = st₂.value allocates o r ∧
    st₂.stack = stack ∧ st₂.allocations = allocations

theorem Takes.of_reaches {stack : List (Frame D)} {allocations : Nat}
    (hreaches : Reaches (ParseState.step toDouble allocates) st st')
    (h : Takes toDouble allocates st' o r stack allocations) :
    Takes toDouble allocates st o r stack allocations := by
  rcases h with ⟨st₁, st₂, hst₁, hrest⟩
  exact ⟨st₁, st₂, hreaches.trans hst₁, hrest⟩

theorem Space.ne_nil {t : List Char} {c : Char} {s : List Char} (h : Space t (c :: s)) :
    t ≠ [] := by
  rintro rfl
  cases h

theorem step_blank {c : Char} {t : List Char} (hc : isspace c = true) (ht : t ≠ [])
    (hst : st.rest = c :: t) :
    st.step toDouble allocates = ParseState.step toDouble allocates { st with rest := t } := by
  have hdrop : st.rest.dropWhile isspace = t.dropWhile isspace := by
    rw [hst, List.dropWhile_cons, if_pos hc]
  cases htail : t.dropWhile isspace with
  | nil =>
      rw [htail] at hdrop
      cases t with
      | nil => exact absurd rfl ht
      | cons d t =>
          rw [hst] at hdrop
          simp only [ParseState.step, hst, hdrop, htail]
  | cons d s =>
      rw [htail] at hdrop
      rw [ParseState.step_cons hdrop, ParseState.step_cons htail]

/-- The loop goes over the space in front of a token. -/
theorem Space.reaches {t : List Char} {c : Char} {s : List Char} (h : Space t (c :: s))
    (hspace : isspace c = false) (hhash : c ≠ '#') (endptr : List Char) (stack : List (Frame D))
    (separator : Bool) (a : Nat) :
    ∃ st₁, Reaches (ParseState.step toDouble allocates) ⟨t, endptr, stack, separator, a⟩ st₁ ∧
      st₁.step toDouble allocates =
        ParseState.token toDouble allocates ⟨s, c :: s, stack, separator, a⟩ c s := by
  generalize hcs : c :: s = t' at h ⊢
  induction h generalizing endptr with
  | none =>
      subst hcs
      refine ⟨_, .refl, ?_⟩
      rw [ParseState.step_cons (by rw [List.dropWhile_cons, hspace]; rfl), if_neg hhash]
  | blank hd h ih =>
      subst hcs
      rcases ih endptr rfl with ⟨st₁, hreaches, hstep⟩
      have hround := @step_blank D toDouble allocates
        ⟨_, endptr, stack, separator, a⟩ _ _ hd h.ne_nil rfl
      rcases hreaches.of_step_eq hround with ⟨st₂, hreaches', hstep'⟩
      exact ⟨st₂, hreaches', hstep'.trans hstep⟩
  | @comment d body t t' hbody h ih =>
      rcases ih ('#' :: d :: (body ++ '\n' :: t)) hcs with ⟨st₁, hreaches, hstep⟩
      refine ⟨st₁, .head ?_ hreaches, hstep⟩
      rw [ParseState.step_cons rfl, if_pos rfl, skipComment_body hbody]

theorem Token.empty {t : List Char} (h : Token toDouble t o r) : o.depth = 0 ∧ o.size = 0 := by
  cases h <;> exact ⟨rfl, rfl⟩

/-- How a frame takes a value: as a key or as a node, with the allocations behind it. -/
inductive Frame.Puts (allocates : Nat → Bool) (allocations : Nat) :
    Frame D → JsonValue D → Frame D → Nat → Prop where
  | node {nodes : List (JsonValue D)} {v : JsonValue D} (h : allocates allocations = true) :
      Puts allocates allocations (.array nodes) v (.array (nodes ++ [v])) (allocations + 1)
  | key {nodes : List (List Char × JsonValue D)} {key : List Char} :
      Puts allocates allocations (.object nodes none) (.string key)
        (.object nodes (some key)) allocations
  | member {nodes : List (List Char × JsonValue D)} {key : List Char} {v : JsonValue D}
      (h : allocates allocations = true) :
      Puts allocates allocations (.object nodes (some key)) v (.object (nodes ++ [(key, v)]) none)
        (allocations + 1)

theorem Frame.Puts.value_eq {frame frame' : Frame D} {a' : Nat} {s : List Char}
    {outer : List (Frame D)} (h : frame.Puts allocates st.allocations v frame' a')
    (hstack : st.stack = frame :: outer) :
    st.value allocates v s =
      .inr { st with rest := s, stack := frame' :: outer, separator := false, allocations := a' } := by
  cases h with
  | node h => simp only [ParseState.value, hstack, h, if_true]
  | key => simp only [ParseState.value, hstack]
  | member h => simp only [ParseState.value, hstack, h, if_true]

/-- The loop goes on behind a value that a frame takes. -/
theorem Takes.put {frame frame' : Frame D} {outer : List (Frame D)} {a a' : Nat}
    (h : Takes toDouble allocates st v r (frame :: outer) a)
    (hputs : frame.Puts allocates a v frame' a') :
    ∃ endptr, Reaches (ParseState.step toDouble allocates) st
    ⟨r, endptr, frame' :: outer, false, a'⟩ := by
  rcases h with ⟨st₁, st₂, hreaches, hstep, hstack, rfl⟩
  rw [hputs.value_eq hstack] at hstep
  exact ⟨_, hreaches.tail hstep⟩

/-- The loop reads a phrase: from a text on, with the frame on top that the phrase is for, it comes
to take the value that the frame is closed with. -/
def Phrase.Read (toDouble : NumberText → D) (allocates : Nat → Bool) (t r : List Char) (a : Nat)
    (endptr : List Char) (outer : List (Frame D)) : Phrase D → Prop
  | .value v => ∀ separator,
      Takes toDouble allocates ⟨t, endptr, outer, separator, a⟩ v r outer (a + v.size)
  | .items separator vs => ∀ nodes,
      Takes toDouble allocates ⟨t, endptr, .array nodes :: outer, separator, a⟩
        (.array (nodes ++ vs)) r outer (a + sizeItems vs)
  | .members separator ms => ∀ nodes,
      Takes toDouble allocates ⟨t, endptr, .object nodes none :: outer, separator, a⟩
        (.object (nodes ++ ms)) r outer (a + sizeMembers ms)
  | .pair separator v ms => ∀ nodes key,
      Takes toDouble allocates ⟨t, endptr, .object nodes (some key) :: outer, separator, a⟩
        (.object (nodes ++ (key, v) :: ms)) r outer (a + (v.size + 1 + sizeMembers ms))

def Phrase.frames : Phrase D → Nat
  | .value _ => 0
  | _ => 1

/-- A phrase that derives and fits is read. -/
theorem Derives.read {t : List Char} (h : Derives toDouble p t r) (a : Nat) (endptr : List Char)
    (outer : List (Frame D)) (hfits : Fits allocates (outer.length + p.frames) a p.depth p.size) :
    p.Read toDouble allocates t r a endptr outer := by
  induction h generalizing a endptr outer with
  | token hspace hv =>
      intro separator
      rcases token_value hv with ⟨c, s, rfl, hc, hhash, htoken⟩
      rcases hspace.reaches hc hhash endptr outer separator a with ⟨st₁, hreaches, hstep⟩
      rw [htoken] at hstep
      refine ⟨st₁, _, hreaches, hstep, rfl, ?_⟩
      rw [hv.empty.2, Nat.add_zero]
  | @array t t' r vs hspace _ ih =>
      intro separator
      rcases hspace.reaches rfl (by decide) endptr outer separator a with ⟨st₁, hreaches, hstep⟩
      have hinner := fits_bracket.mp hfits
      have hroom : outer.length ≠ jsonStackSize := by
        have hlevel := hinner.depth
        simp only [Phrase.frames] at hlevel
        omega
      simp only [ParseState.token, ParseState.push, if_neg hroom] at hstep
      exact .of_reaches (hreaches.tail hstep) (ih a _ outer hinner [])
  | @object t t' r ms hspace _ ih =>
      intro separator
      rcases hspace.reaches rfl (by decide) endptr outer separator a with ⟨st₁, hreaches, hstep⟩
      have hinner := fits_bracket.mp hfits
      have hroom : outer.length ≠ jsonStackSize := by
        have hlevel := hinner.depth
        simp only [Phrase.frames] at hlevel
        omega
      simp only [ParseState.token, ParseState.push, if_neg hroom] at hstep
      exact .of_reaches (hreaches.tail hstep) (ih a _ outer hinner [])
  | @itemsEnd separator t r hspace =>
      intro nodes
      rcases hspace.reaches rfl (by decide) endptr (.array nodes :: outer) separator a with
        ⟨st₁, hreaches, hstep⟩
      exact ⟨st₁, _, hreaches, by rw [List.append_nil]; exact hstep, rfl, rfl⟩
  | itemsComma hspace _ ih =>
      intro nodes
      rcases hspace.reaches rfl (by decide) endptr (.array nodes :: outer) false a with
        ⟨st₁, hreaches, hstep⟩
      exact .of_reaches (hreaches.tail hstep) (ih a _ outer hfits nodes)
  | @item separator t t' r v vs _ _ ihv ihvs =>
      intro nodes
      rcases fits_node.mp hfits with ⟨hv, hnode, hvs⟩
      have htakes := ihv a endptr (.array nodes :: outer) hv separator
      rcases htakes.put (.node hnode) with ⟨endptr', hreaches⟩
      have hread := ihvs _ endptr' outer hvs (nodes ++ [v])
      have hsize : a + v.size + 1 + sizeItems vs = a + (v.size + 1 + sizeItems vs) := by omega
      rw [List.append_assoc, hsize] at hread
      exact .of_reaches hreaches hread
  | @membersEnd separator t r hspace =>
      intro nodes
      rcases hspace.reaches rfl (by decide) endptr (.object nodes none :: outer) separator a with
        ⟨st₁, hreaches, hstep⟩
      exact ⟨st₁, _, hreaches, by rw [List.append_nil]; exact hstep, rfl, rfl⟩
  | membersComma hspace _ ih =>
      intro nodes
      rcases hspace.reaches rfl (by decide) endptr (.object nodes none :: outer) false a with
        ⟨st₁, hreaches, hstep⟩
      exact .of_reaches (hreaches.tail hstep) (ih a _ outer hfits nodes)
  | @member separator t t' r key v ms _ _ ihkey ihpair =>
      intro nodes
      have hkey : Fits allocates (outer.length + 1) a 0 0 :=
        ⟨Nat.le_trans (Nat.le_add_right _ _) hfits.depth, fun i hi => absurd hi (Nat.not_lt_zero i)⟩
      have htakes := ihkey a endptr (.object nodes none :: outer) hkey separator
      rcases htakes.put .key with ⟨endptr', hreaches⟩
      exact .of_reaches hreaches (ihpair a endptr' outer hfits nodes key)
  | pairColon hspace _ ih =>
      intro nodes key
      rcases hspace.reaches rfl (by decide) endptr (.object nodes (some key) :: outer) false a with
        ⟨st₁, hreaches, hstep⟩
      exact .of_reaches (hreaches.tail hstep) (ih a _ outer hfits nodes key)
  | @pair separator t t' r v ms _ _ ihv ihms =>
      intro nodes key
      rcases fits_node.mp hfits with ⟨hv, hnode, hms⟩
      have htakes := ihv a endptr (.object nodes (some key) :: outer) hv separator
      rcases htakes.put (.member hnode) with ⟨endptr', hreaches⟩
      have hread := ihms _ endptr' outer hms (nodes ++ [(key, v)])
      have hsize : a + v.size + 1 + sizeMembers ms = a + (v.size + 1 + sizeMembers ms) := by omega
      rw [List.append_assoc, hsize] at hread
      exact .of_reaches hreaches hread

end

/-! ## What is read derives -/

section

variable {D : Type} (toDouble : NumberText → D) (allocates : Nat → Bool)

/-- What an open array or object demands of the text: that its rest derives, and that what is below
it goes on behind it. -/
def Frame.Demands (below : Nat → JsonValue D → List Char → Prop) (level : Nat) (separator : Bool)
    (a : Nat) (t : List Char) : Frame D → Prop
  | .array nodes => ∃ vs r, Derives toDouble (.items separator vs) t r ∧
      Fits allocates level a (depthItems vs) (sizeItems vs) ∧
      below (a + sizeItems vs) (.array (nodes ++ vs)) r
  | .object nodes none => ∃ ms r, Derives toDouble (.members separator ms) t r ∧
      Fits allocates level a (depthMembers ms) (sizeMembers ms) ∧
      below (a + sizeMembers ms) (.object (nodes ++ ms)) r
  | .object nodes (some key) => ∃ v ms r, Derives toDouble (.pair separator v ms) t r ∧
      Fits allocates level a (max v.depth (depthMembers ms)) (v.size + 1 + sizeMembers ms) ∧
      below (a + (v.size + 1 + sizeMembers ms)) (.object (nodes ++ (key, v) :: ms)) r

/-- What the open arrays and objects demand of the text behind a value, for `v` with `e` to be the
result. -/
def Behind (v : JsonValue D) (e : List Char) : List (Frame D) → Nat → JsonValue D → List Char → Prop
  | [], _, o, t => o = v ∧ t = e
  | frame :: outer, a, o, t => ∃ frame' a', frame.Puts allocates a o frame' a' ∧
      frame'.Demands toDouble allocates (Behind v e outer) (outer.length + 1) false a' t

/-- What a state demands of its text. -/
def Demands (v : JsonValue D) (e : List Char) (stack : List (Frame D)) (separator : Bool) (a : Nat)
    (t : List Char) : Prop :=
  match stack with
  | [] => Derives toDouble (.value v) t e ∧ Fits allocates 0 a v.depth v.size
  | frame :: outer =>
      frame.Demands toDouble allocates (Behind toDouble allocates v e outer) (outer.length + 1)
        separator a t

end

section

variable {D : Type} {toDouble : NumberText → D} {allocates : Nat → Bool} {st : ParseState D}
  {v o : JsonValue D} {e t t' r s : List Char} {stack outer : List (Frame D)} {frame : Frame D}
  {separator : Bool} {a : Nat}

theorem Derives.space {p : Phrase D} (hspace : Space t t') (h : Derives toDouble p t' r) :
    Derives toDouble p t r := by
  induction h generalizing t with
  | token h hv => exact .token (hspace.trans h) hv
  | array h hvs => exact .array (hspace.trans h) hvs
  | object h hms => exact .object (hspace.trans h) hms
  | itemsEnd h => exact .itemsEnd (hspace.trans h)
  | itemsComma h hvs => exact .itemsComma (hspace.trans h) hvs
  | item _ hvs ihv => exact .item (ihv hspace) hvs
  | membersEnd h => exact .membersEnd (hspace.trans h)
  | membersComma h hms => exact .membersComma (hspace.trans h) hms
  | member _ hpair ihkey => exact .member (ihkey hspace) hpair
  | pairColon h hpair => exact .pairColon (hspace.trans h) hpair
  | pair _ hms ihv => exact .pair (ihv hspace) hms

theorem Demands.space (hspace : Space t t') (h : Demands toDouble allocates v e stack separator a t') :
    Demands toDouble allocates v e stack separator a t := by
  unfold Demands at h ⊢
  split at h
  case h_1 => exact ⟨.space hspace h.1, h.2⟩
  case h_2 frame outer =>
    unfold Frame.Demands at h ⊢
    split at h
    case h_1 =>
      rcases h with ⟨vs, r, hvs, hrest⟩
      exact ⟨vs, r, .space hspace hvs, hrest⟩
    case h_2 =>
      rcases h with ⟨ms, r, hms, hrest⟩
      exact ⟨ms, r, .space hspace hms, hrest⟩
    case h_3 =>
      rcases h with ⟨o, ms, r, hpair, hrest⟩
      exact ⟨o, ms, r, .space hspace hpair, hrest⟩

theorem demands_value (h : Derives toDouble (.value o) t r)
    (hfits : Fits allocates stack.length a o.depth o.size)
    (hbehind : Behind toDouble allocates v e stack (a + o.size) o r) :
    Demands toDouble allocates v e stack separator a t := by
  cases stack with
  | nil =>
      rcases hbehind with ⟨rfl, rfl⟩
      exact ⟨h, hfits⟩
  | cons frame outer =>
      rcases hbehind with ⟨frame', a', hputs, hdemands⟩
      cases hputs with
      | @node nodes _ hnode =>
          rcases hdemands with ⟨vs, r', hvs, hrest, hbelow⟩
          refine ⟨o :: vs, r', .item h hvs, fits_node.mpr ⟨hfits, hnode, hrest⟩, ?_⟩
          rw [List.append_assoc, Nat.add_assoc, Nat.add_assoc, ← Nat.add_assoc o.size] at hbelow
          exact hbelow
      | @key nodes key =>
          rcases hdemands with ⟨o', ms, r', hpair, hrest, hbelow⟩
          exact ⟨(key, o') :: ms, r', .member h hpair, hrest, hbelow⟩
      | @member nodes key _ hnode =>
          rcases hdemands with ⟨ms, r', hms, hrest, hbelow⟩
          refine ⟨o, ms, r', .pair h hms, fits_node.mpr ⟨hfits, hnode, hrest⟩, ?_⟩
          rw [List.append_assoc, Nat.add_assoc, Nat.add_assoc, ← Nat.add_assoc o.size] at hbelow
          exact hbelow

theorem demands_token (hlength : stack.length ≤ jsonStackSize) (h : Token toDouble t o r)
    (hbehind : Behind toDouble allocates v e stack a o r) :
    Demands toDouble allocates v e stack separator a t := by
  apply demands_value (.token .none h)
  · rw [h.empty.1, h.empty.2]
    exact ⟨hlength, fun i hi => absurd hi (Nat.not_lt_zero i)⟩
  · rwa [h.empty.2]

/-- A round ends with the result, or comes to a state whose demands are met. -/
def Meets (toDouble : NumberText → D) (allocates : Nat → Bool) (v : JsonValue D) (e : List Char) :
    ParseResult D ⊕ ParseState D → Prop
  | .inl r => r = .ok v e
  | .inr st => st.stack.length ≤ jsonStackSize →
      Demands toDouble allocates v e st.stack st.separator st.allocations st.rest

theorem meets_value (hlength : st.stack.length ≤ jsonStackSize)
    (h : Meets toDouble allocates v e (st.value allocates o s)) :
    Behind toDouble allocates v e st.stack st.allocations o s := by
  unfold ParseState.value at h
  split at h
  case h_1 hstack =>
    rw [hstack]
    cases h
    exact ⟨rfl, rfl⟩
  case h_2 nodes outer hstack =>
    rw [hstack] at hlength ⊢
    split at h
    case h_1 key => exact ⟨_, _, .key, h hlength⟩
    case h_2 => cases h
  case h_3 nodes key outer hstack =>
    rw [hstack] at hlength ⊢
    split at h
    case isTrue hnode => exact ⟨_, _, .member hnode, h hlength⟩
    case isFalse => cases h
  case h_4 nodes outer hstack =>
    rw [hstack] at hlength ⊢
    split at h
    case isTrue hnode => exact ⟨_, _, .node hnode, h hlength⟩
    case isFalse => cases h

theorem meets_number (hlength : st.stack.length ≤ jsonStackSize) (hstart : startsNumber t = true)
    (h : Meets toDouble allocates v e (st.number toDouble allocates t)) :
    Demands toDouble allocates v e st.stack separator st.allocations t := by
  rcases number_of_string2double hstart with ⟨u, hu, hnumber⟩
  simp only [ParseState.number] at h
  split at h
  case isTrue hdelim =>
    rw [hu]
    exact demands_token hlength (.number hnumber hdelim) (meets_value hlength h)
  case isFalse => cases h

theorem meets_string (hlength : st.stack.length ≤ jsonStackSize)
    (h : Meets toDouble allocates v e (st.string allocates s)) :
    Demands toDouble allocates v e st.stack separator st.allocations ('"' :: s) := by
  rcases string_cases s with ⟨content, hchars⟩ | ⟨u, content, r, rfl, hchars⟩ | hbad
  · simp only [ParseState.string, readString_unterminated hchars] at h
    exact demands_token hlength (.unterminated hchars) (meets_value hlength h)
  · simp only [ParseState.string, readString_closed hchars] at h
    split at h
    case isTrue hdelim =>
      exact demands_token hlength (.string hchars hdelim) (meets_value hlength h)
    case isFalse => cases h
  · rcases hbad [] with ⟨endptr, hread⟩
    simp only [ParseState.string, hread] at h
    cases h

theorem meets_identifier {name : List Char} {c : Char} (hlength : st.stack.length ≤ jsonStackSize)
    (htoken : ∀ r, isdelim r = true → Token toDouble (c :: (name ++ r)) o r)
    (h : Meets toDouble allocates v e (st.identifier allocates name o s)) :
    Demands toDouble allocates v e st.stack separator st.allocations (c :: s) := by
  unfold ParseState.identifier at h
  split at h
  case isTrue hname =>
    rcases (Bool.and_eq_true _ _).mp hname with ⟨hhead, hdelim⟩
    rcases List.isPrefixOf_iff_prefix.mp hhead with ⟨r, rfl⟩
    rw [List.drop_left] at hdelim h
    exact demands_token hlength (htoken r hdelim) (meets_value hlength h)
  case isFalse => cases h

theorem meets_push (hlength : st.stack.length ≤ jsonStackSize)
    (h : Meets toDouble allocates v e (st.push frame s)) :
    Demands toDouble allocates v e (frame :: st.stack) true st.allocations s := by
  unfold ParseState.push at h
  split at h
  case isTrue => cases h
  case isFalse hroom =>
    apply h
    show st.stack.length + 1 ≤ jsonStackSize
    omega

theorem meets_closeArray (hlength : st.stack.length ≤ jsonStackSize)
    (h : Meets toDouble allocates v e (st.closeArray allocates s)) :
    Demands toDouble allocates v e st.stack st.separator st.allocations (']' :: s) := by
  unfold ParseState.closeArray at h
  split at h
  case h_1 => cases h
  case h_2 => cases h
  case h_3 nodes outer hstack =>
    rw [hstack] at hlength ⊢
    have hbehind := meets_value (Nat.le_of_succ_le hlength) h
    refine ⟨[], s, .itemsEnd .none, ⟨hlength, fun i hi => absurd hi (Nat.not_lt_zero i)⟩, ?_⟩
    rwa [List.append_nil]

theorem meets_closeObject (hlength : st.stack.length ≤ jsonStackSize)
    (h : Meets toDouble allocates v e (st.closeObject allocates s)) :
    Demands toDouble allocates v e st.stack st.separator st.allocations ('}' :: s) := by
  unfold ParseState.closeObject at h
  split at h
  case h_1 => cases h
  case h_2 => cases h
  case h_3 => cases h
  case h_4 nodes outer hstack =>
    rw [hstack] at hlength ⊢
    have hbehind := meets_value (Nat.le_of_succ_le hlength) h
    refine ⟨[], s, .membersEnd .none, ⟨hlength, fun i hi => absurd hi (Nat.not_lt_zero i)⟩, ?_⟩
    rwa [List.append_nil]

theorem meets_colon (hlength : st.stack.length ≤ jsonStackSize)
    (h : Meets toDouble allocates v e (st.colon s)) :
    Demands toDouble allocates v e st.stack st.separator st.allocations (':' :: s) := by
  unfold ParseState.colon at h
  split at h
  case h_1 nodes key outer hseparator hstack =>
    have hdemands := h hlength
    simp only [ParseState.opened, hstack] at hdemands
    rw [hstack, hseparator]
    rcases hdemands with ⟨o, ms, r, hpair, hrest⟩
    exact ⟨o, ms, r, .pairColon .none hpair, hrest⟩
  case h_2 => cases h

theorem meets_comma (hlength : st.stack.length ≤ jsonStackSize)
    (h : Meets toDouble allocates v e (st.comma s)) :
    Demands toDouble allocates v e st.stack st.separator st.allocations (',' :: s) := by
  unfold ParseState.comma at h
  split at h
  case h_1 nodes outer hseparator hstack =>
    have hdemands := h hlength
    simp only [ParseState.opened, hstack] at hdemands
    rw [hstack, hseparator]
    rcases hdemands with ⟨ms, r, hms, hrest⟩
    exact ⟨ms, r, .membersComma .none hms, hrest⟩
  case h_2 nodes outer hseparator hstack =>
    have hdemands := h hlength
    simp only [ParseState.opened, hstack] at hdemands
    rw [hstack, hseparator]
    rcases hdemands with ⟨vs, r, hvs, hrest⟩
    exact ⟨vs, r, .itemsComma .none hvs, hrest⟩
  case h_3 => cases h

theorem meets_token {c : Char} (h : Meets toDouble allocates v e (st.token toDouble allocates c s))
    (hlength : st.stack.length ≤ jsonStackSize) :
    Demands toDouble allocates v e st.stack st.separator st.allocations (c :: s) := by
  unfold ParseState.token at h
  split at h
  · unfold ParseState.minus at h
    split at h
    case h_1 => cases h
    case h_2 d s =>
      split at h
      case isTrue hd => exact meets_number hlength hd h
      case isFalse => cases h
  · exact meets_string hlength h
  · exact meets_identifier hlength (fun r hr => .true hr) h
  · exact meets_identifier hlength (fun r hr => .false hr) h
  · exact meets_identifier hlength (fun r hr => .null hr) h
  · exact meets_closeArray hlength h
  · exact meets_closeObject hlength h
  · rcases meets_push hlength h with ⟨vs, r, hvs, hfits, hbehind⟩
    exact demands_value (.array .none hvs) (fits_bracket.mpr hfits) hbehind
  · rcases meets_push hlength h with ⟨ms, r, hms, hfits, hbehind⟩
    exact demands_value (.object .none hms) (fits_bracket.mpr hfits) hbehind
  · exact meets_colon hlength h
  · exact meets_comma hlength h
  · split at h
    case isTrue hdigit =>
      have hdigits : ∀ d ∈ [c], isdigit d = true := List.forall_mem_singleton.mpr hdigit
      exact meets_number hlength (startsNumber_digits hdigits (List.cons_ne_nil _ _)).1 h
    case isFalse => cases h

theorem meets_step (hlength : st.stack.length ≤ jsonStackSize)
    (h : Meets toDouble allocates v e (st.step toDouble allocates)) :
    Demands toDouble allocates v e st.stack st.separator st.allocations st.rest := by
  unfold ParseState.step at h
  split at h
  case h_1 => cases h
  case h_2 =>
    apply Demands.space (space_dropWhile st.rest)
    split at h
    case h_1 => cases h
    case h_2 s hdrop =>
      rw [hdrop]
      split at h
      case h_1 => cases h
      case h_2 rest hskip => exact .space (space_skipComment hskip) (h hlength)
    case h_3 c s _ hdrop =>
      rw [hdrop]
      have hround := meets_token h hlength
      exact hround

/-- What is parsed to a value derives it, and fits. -/
theorem demands_of_ends (h : Ends (ParseState.step toDouble allocates) st (.ok v e))
    (hlength : st.stack.length ≤ jsonStackSize) :
    Demands toDouble allocates v e st.stack st.separator st.allocations st.rest := by
  revert hlength
  apply Ends.induction (P := fun st => st.stack.length ≤ jsonStackSize →
    Demands toDouble allocates v e st.stack st.separator st.allocations st.rest) _ _ h
  · intro st hstep hlength
    apply meets_step hlength
    rw [hstep]
    rfl
  · intro st st' hstep _ ih hlength
    apply meets_step hlength
    rw [hstep]
    exact ih

/-- A text with a value at its head is parsed to it. -/
theorem Derives.jsonParse_eq {allocates : Nat → Bool} {text e : List Char} {v : JsonValue D}
    (h : Derives toDouble (.value v) text e) (hdepth : v.depth ≤ jsonStackSize)
    (hall : ∀ i < v.size, allocates i = true) : jsonParse toDouble allocates text = .ok v e := by
  have hfits : Fits allocates 0 0 v.depth v.size := by
    constructor
    · rwa [Nat.zero_add]
    · intro i hi
      rw [Nat.zero_add]
      exact hall i hi
  rcases h.read 0 text [] hfits true with ⟨st₁, st₂, hreaches, hstep, hstack, -⟩
  rw [jsonParse_eq_iff]
  apply hreaches.ends_iff.mpr
  have hlast : st₂.value allocates v e = .inl (.ok v e) := by
    simp only [ParseState.value, hstack]
  exact (ends_inl (hstep.trans hlast)).mpr rfl

/-- `jsonParse` accepts its language: a text with a value at its head, behind white space and
comments, that has no more brackets inside each other than the stack has places, when the nodes of
the value are allocated. -/
theorem jsonParse_ok_iff (toDouble : NumberText → D) (allocates : Nat → Bool) (text : List Char)
    (v : JsonValue D) (e : List Char) :
    jsonParse toDouble allocates text = .ok v e ↔
      Derives toDouble (.value v) text e ∧ v.depth ≤ jsonStackSize ∧
        ∀ i < v.size, allocates i = true := by
  constructor
  · intro h
    rw [jsonParse_eq_iff] at h
    have hdemands := demands_of_ends h (Nat.zero_le _)
    have hdepth := hdemands.2.depth
    have hall := hdemands.2.allocates
    simp only [ParseState.start, Nat.zero_add] at hdepth hall
    exact ⟨hdemands.1, hdepth, hall⟩
  · rintro ⟨h, hdepth, hall⟩
    exact h.jsonParse_eq hdepth hall

end

end KoheronServer.Config
