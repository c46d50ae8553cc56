import KoheronServer.Wire.Packs

/-!
# Generated parsers

The code that `parser_generator` of devgen emits for an operation, over any
session: every pack is received through `cmd.sess`, a negative result stops the
parser with -1, and the device function is called behind the last pack.
-/

namespace KoheronServer.Session

open Foundation Wire

/-- The memory that a receive finds: an uninitialised stack buffer or the previous
contents of an array, and what the vector or string held. -/
structure Slot where
  raw : Memory
  held : Bytes

/-- The ways in which a command ends its server: a load behind the end of a `Buffer`, a `resize`
that no allocator can serve, a device id behind the end of `device_list`, and an assertion of a
build with `DEBUG_KSERVER`. -/
inductive Abort where
  | bufferOverread
  | lengthError
  | deviceOverflow
  | assertion
  deriving DecidableEq, Repr

/-- What receiving a pack returns, what the arguments hold then, and the session behind it. -/
structure Received (σ : Type) where
  ret : Int
  args : List Arg
  session : σ

/-- `SessionAbstract` as the parsers use it: `deserialize` for a scalar pack, `recv` for the
rest. -/
structure SessionAbstract (σ : Type) where
  receive : Pack → Slot → σ → Except Abort (Received σ)

/-- How the parser ends: with -1, or with arguments for the device function. -/
inductive Parsed where
  | rejected
  | called (args : List Arg)

/-- The body that `parser_generator` emits for `packs`, from index `idx` on. -/
def parsePacks {σ : Type} (sess : SessionAbstract σ) (slots : Nat → Slot) :
    Nat → List Pack → σ → Except Abort (Parsed × σ)
  | _, [], s => .ok (.called [], s)
  | idx, pack :: packs, s =>
      match sess.receive pack (slots idx) s with
      | .error e => .error e
      | .ok r =>
          if r.ret < 0 then .ok (.rejected, r.session)
          else
            match parsePacks sess slots (idx + 1) packs r.session with
            | .error e => .error e
            | .ok (.rejected, s) => .ok (.rejected, s)
            | .ok (.called args, s) => .ok (.called (r.args ++ args), s)

/-- `execute_op` of a generated device up to the call of the device function. -/
def executeOp {σ : Type} (sess : SessionAbstract σ) (slots : Nat → Slot) (arguments : Signature)
    (s : σ) : Except Abort (Parsed × σ) :=
  parsePacks sess slots 0 (buildArgsPacks arguments).1 s

/-! ## Behind a pack -/

section

variable {σ : Type} {sess : SessionAbstract σ} {slots : Nat → Slot} {idx : Nat}
  {pack : Pack} {s : σ}

/-- What a parser does behind a pack with these arguments, by what `rest` does with the others. -/
structure Continues (args : List Arg) (rest result : Except Abort (Parsed × σ)) : Prop where
  error : ∀ e, rest = .error e → result = .error e
  rejected : ∀ s, rest = .ok (.rejected, s) → result = .ok (.rejected, s)
  called : ∀ args' s, rest = .ok (.called args', s) → result = .ok (.called (args ++ args'), s)

theorem parsePacks_error (packs : List Pack) {e : Abort}
    (h : sess.receive pack (slots idx) s = .error e) :
    parsePacks sess slots idx (pack :: packs) s = .error e := by
  simp only [parsePacks, h]

theorem parsePacks_rejected (packs : List Pack) {r : Received σ}
    (h : sess.receive pack (slots idx) s = .ok r) (hret : r.ret < 0) :
    parsePacks sess slots idx (pack :: packs) s = .ok (.rejected, r.session) := by
  simp only [parsePacks, h, if_pos hret]

theorem parsePacks_received (packs : List Pack) {r : Received σ}
    (h : sess.receive pack (slots idx) s = .ok r) (hret : ¬r.ret < 0) :
    Continues r.args (parsePacks sess slots (idx + 1) packs r.session)
      (parsePacks sess slots idx (pack :: packs) s) := by
  constructor
  · intro e hrest
    simp only [parsePacks, h, if_neg hret, hrest]
  · intro s' hrest
    simp only [parsePacks, h, if_neg hret, hrest]
  · intro args' s' hrest
    simp only [parsePacks, h, if_neg hret, hrest]

variable {args : List Arg} {rest result : Except Abort (Parsed × σ)}

theorem Continues.of_rejected (h : Continues args rest result)
    (hresult : result = .ok (.rejected, s)) :
    rest = .ok (.rejected, s) := by
  rcases hrest : rest with e | ⟨parsed, s'⟩
  · rw [h.error e hrest] at hresult
    cases hresult
  · cases parsed with
    | rejected =>
        rw [h.rejected s' hrest] at hresult
        exact hresult
    | called args' =>
        rw [h.called args' s' hrest] at hresult
        cases hresult

theorem Continues.of_called (h : Continues args rest result) {all : List Arg}
    (hresult : result = .ok (.called all, s)) :
    ∃ args', rest = .ok (.called args', s) ∧ all = args ++ args' := by
  rcases hrest : rest with e | ⟨parsed, s'⟩
  · rw [h.error e hrest] at hresult
    cases hresult
  · cases parsed with
    | rejected =>
        rw [h.rejected s' hrest] at hresult
        cases hresult
    | called args' =>
        rw [h.called args' s' hrest] at hresult
        cases hresult
        exact ⟨args', rfl, rfl⟩

/-- A parser that has received a pack rejects where it rejects behind it. -/
theorem Continues.rejected_iff (h : Continues args rest result) :
    (∃ s', result = .ok (.rejected, s')) ↔ ∃ s', rest = .ok (.rejected, s') := by
  constructor
  · intro hresult
    obtain ⟨s', hresult⟩ := hresult
    exact ⟨s', h.of_rejected hresult⟩
  · intro hrest
    obtain ⟨s', hrest⟩ := hrest
    exact ⟨s', h.rejected s' hrest⟩

end

theorem parsePacks_keeps {σ : Type} {sess : SessionAbstract σ} {P : σ → Prop}
    (hreceive : ∀ pack slot s r, sess.receive pack slot s = .ok r → P s → P r.session)
    {slots : Nat → Slot} {idx : Nat} {packs : List Pack} {s s' : σ} {parsed : Parsed}
    (h : parsePacks sess slots idx packs s = .ok (parsed, s')) (hs : P s) : P s' := by
  induction packs generalizing idx s parsed with
  | nil =>
      cases h
      exact hs
  | cons pack packs ih =>
      cases hr : sess.receive pack (slots idx) s with
      | error e =>
          rw [parsePacks_error packs hr] at h
          cases h
      | ok r =>
          have hnext := hreceive pack (slots idx) s r hr hs
          by_cases hret : r.ret < 0
          · rw [parsePacks_rejected packs hr hret] at h
            cases h
            exact hnext
          · have hcontinues := parsePacks_received packs hr hret
            cases parsed with
            | rejected => exact ih (hcontinues.of_rejected h) hnext
            | called args =>
                obtain ⟨args', hrest, -⟩ := hcontinues.of_called h
                exact ih hrest hnext

end KoheronServer.Session
