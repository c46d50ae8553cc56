import KoheronServer.Devgen.Header
import Mathlib.Data.List.Chain

/-!
# Packs of an argument list

`build_args_packs`, on the texts of the types: adjacent scalars are packed together, and every
container is a pack of its own. The packs are a partition of the argument list, in its order.
-/

namespace KoheronServer.Devgen

open Foundation

inductive Pack where
  | scalar (args : List Argument)
  | array (arg : Argument)
  | vector (arg : Argument)
  | string (arg : Argument)

def Pack.args : Pack → List Argument
  | scalar args => args
  | array arg | vector arg | string arg => [arg]

def Pack.isScalar : Pack → Bool
  | scalar _ => true
  | _ => false

structure PackState where
  packs : List Pack
  argsList : List Argument
  hasVector : Bool

/-- `if len(args_list) > 0: ...`, before a container and behind the loop. -/
def PackState.flush (st : PackState) : PackState :=
  if st.argsList.length > 0 then
    { st with packs := st.packs ++ [.scalar st.argsList], argsList := [] }
  else st

def PackState.push (st : PackState) (pack : Pack) : PackState :=
  { st with packs := st.packs ++ [pack] }

/-- A round of the loop. Its `assert False` is never reached. -/
def packArgument (st : PackState) (arg : Argument) : PackState :=
  if isStdArray arg.type then st.flush.push (.array arg)
  else if isStdVector arg.type || isStdString arg.type then
    let st := { st with hasVector := true }.flush
    if isStdVector arg.type then st.push (.vector arg) else st.push (.string arg)
  else { st with argsList := st.argsList ++ [arg] }

/-- `build_args_packs`: the packs and `has_vector`. -/
def buildArgsPacks (arguments : List Argument) : List Pack × Bool :=
  let st := (arguments.foldl packArgument ⟨[], [], false⟩).flush
  (st.packs, st.hasVector)

/-! ## The partition -/

def isContainer (type : List Char) : Bool := isStdArray type || isStdVector type || isStdString type

def Pack.OwnFamily : Pack → Prop
  | scalar args => args ≠ [] ∧ ∀ a ∈ args, isContainer a.type = false
  | array arg => isStdArray arg.type = true
  | vector arg => isStdVector arg.type = true
  | string arg => isStdString arg.type = true

def Pack.Apart (p q : Pack) : Prop := p.isScalar = false ∨ q.isScalar = false

/-- The packs hold the arguments, each once and in order; every pack is of its own family, a
container alone in its pack and scalars with all the scalars next to them. -/
structure Partition (args : List Argument) (packs : List Pack) (hasVector : Bool) : Prop where
  flatten : packs.flatMap Pack.args = args
  own : ∀ p ∈ packs, p.OwnFamily
  apart : packs.IsChain Pack.Apart
  hasVector : hasVector = true ↔ ∃ a ∈ args, (isStdVector a.type || isStdString a.type) = true

/-- What holds between two rounds, behind the arguments `seen`. -/
structure PackState.Inv (seen : List Argument) (st : PackState) : Prop where
  flatten : st.packs.flatMap Pack.args ++ st.argsList = seen
  pending : ∀ a ∈ st.argsList, isContainer a.type = false
  own : ∀ p ∈ st.packs, p.OwnFamily
  apart : st.packs.IsChain Pack.Apart
  -- the pending scalars may become a pack
  last : ∀ p ∈ st.packs.getLast?, p.isScalar = false
  hasVector : st.hasVector = true ↔ ∃ a ∈ seen, (isStdVector a.type || isStdString a.type) = true

namespace PackState

variable {seen : List Argument} {st : PackState}

@[simp] theorem flush_argsList (st : PackState) : st.flush.argsList = [] := by
  unfold flush
  split
  case isTrue => rfl
  case isFalse hlen => exact List.eq_nil_of_length_eq_zero (by omega)

@[simp] theorem flush_hasVector (st : PackState) : st.flush.hasVector = st.hasVector := by
  unfold flush
  split
  case isTrue => rfl
  case isFalse => rfl

/-- Flushed packs are a partition of what has been seen. -/
theorem Inv.flush (h : st.Inv seen) : Partition seen st.flush.packs st.flush.hasVector := by
  rw [flush_hasVector]
  unfold PackState.flush
  split
  case isTrue hlen =>
    refine ⟨?_, ?_, ?_, h.hasVector⟩
    · rw [List.flatMap_append, List.flatMap_singleton]
      exact h.flatten
    · refine List.forall_mem_append.mpr ⟨h.own, List.forall_mem_singleton.mpr ⟨?_, h.pending⟩⟩
      exact List.ne_nil_of_length_pos hlen
    · refine List.isChain_append.mpr ⟨h.apart, List.isChain_singleton _, ?_⟩
      intro p hp q _
      exact .inl (h.last p hp)
  case isFalse hlen =>
    have hnil : st.argsList = [] := List.eq_nil_of_length_eq_zero (by omega)
    have hflatten := h.flatten
    rw [hnil, List.append_nil] at hflatten
    exact ⟨hflatten, h.own, h.apart, h.hasVector⟩

theorem flush_marked (st : PackState) :
    PackState.flush { st with hasVector := true } = { st.flush with hasVector := true } := by
  unfold flush
  split
  case isTrue => rfl
  case isFalse => rfl

theorem Inv.push (h : st.Inv seen) {arg : Argument} {pack : Pack} {flag : Bool}
    (hargs : pack.args = [arg]) (hown : pack.OwnFamily) (hscalar : pack.isScalar = false)
    (hflag : flag = true ↔
      st.hasVector = true ∨ (isStdVector arg.type || isStdString arg.type) = true) :
    (PackState.push { st.flush with hasVector := flag } pack).Inv (seen ++ [arg]) where
  flatten := by
    rw [PackState.push, flush_argsList, List.flatMap_append, List.flatMap_singleton,
      h.flush.flatten, hargs, List.append_nil]
  pending := by
    intro a ha
    rw [PackState.push, flush_argsList] at ha
    cases ha
  own := List.forall_mem_append.mpr ⟨h.flush.own, List.forall_mem_singleton.mpr hown⟩
  apart := by
    refine List.isChain_append.mpr ⟨h.flush.apart, List.isChain_singleton _, ?_⟩
    intro p _ q hq
    obtain rfl : pack = q := by simpa using hq
    exact .inr hscalar
  last := by
    intro p hp
    obtain rfl : pack = p := by simpa [PackState.push] using hp
    exact hscalar
  hasVector := by
    rw [PackState.push, hflag, h.hasVector]
    simp only [List.mem_append, List.mem_singleton, or_and_right, exists_or, exists_eq_left]

theorem Inv.packArgument (h : st.Inv seen) (arg : Argument) :
    (Devgen.packArgument st arg).Inv (seen ++ [arg]) := by
  unfold Devgen.packArgument
  split
  case isTrue harray =>
    have hnone : (isStdVector arg.type || isStdString arg.type) = false := by
      rw [not_vector_of_array harray, not_string_of_array harray]
      rfl
    have hflush : st.flush = { st.flush with hasVector := st.hasVector } := by
      rw [← flush_hasVector st]
    rw [hflush]
    have hown : (Pack.array arg).OwnFamily := harray
    exact h.push rfl hown rfl (by simp [hnone])
  case isFalse harray =>
    split
    case isTrue hvector =>
      rw [flush_marked]
      split
      case isTrue hvec =>
        have hown : (Pack.vector arg).OwnFamily := hvec
        exact h.push rfl hown rfl (by simp [hvector])
      case isFalse hvec =>
        have hown : (Pack.string arg).OwnFamily := by simpa [Pack.OwnFamily, hvec] using hvector
        exact h.push rfl hown rfl (by simp [hvector])
    case isFalse hvector =>
      have hscalar : isContainer arg.type = false := by
        simpa [isContainer, harray] using hvector
      refine ⟨?_, ?_, h.own, h.apart, h.last, ?_⟩
      · rw [← List.append_assoc, h.flatten]
      · exact List.forall_mem_append.mpr ⟨h.pending, List.forall_mem_singleton.mpr hscalar⟩
      · rw [h.hasVector]
        simp only [List.mem_append, List.mem_singleton, or_and_right, exists_or, exists_eq_left,
          hvector, Bool.false_eq_true, or_false]

theorem Inv.foldl (h : st.Inv seen) (args : List Argument) :
    (args.foldl Devgen.packArgument st).Inv (seen ++ args) := by
  induction args generalizing seen st with
  | nil =>
      rw [List.append_nil]
      exact h
  | cons a args ih =>
      rw [List.append_cons]
      exact ih (h.packArgument a)

theorem inv_start : (⟨[], [], false⟩ : PackState).Inv [] where
  flatten := rfl
  pending := by simp
  own := by simp
  apart := .nil
  last := by simp
  hasVector := by simp

end PackState

/-- The packs are a partition, for every argument list. -/
theorem buildArgsPacks_partition (args : List Argument) :
    Partition args (buildArgsPacks args).1 (buildArgsPacks args).2 :=
  (PackState.inv_start.foldl args).flush

end KoheronServer.Devgen
