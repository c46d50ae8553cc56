import KoheronServer.Session.Execute

/-!
# The loop of a session

`Session::run` over any transport. What happens around a session while it runs is
an environment: the loads of `exit_comm`, whether a write has found the
connection closed, and what the buffers of a parser held before.
-/

namespace KoheronServer.Session

open Foundation Wire

/-- `Command::HEADER_SIZE`. -/
def headerSize : Nat := 8

/-- `Command::HEADER_START`: the first bytes of a header are reserved. -/
def headerStart : Nat := 4

def decodeHeader (header : Memory) : Nat × Nat :=
  ((extractUint16 (header.offset headerStart)).toNat,
    (extractUint16 (header.offset (headerStart + ScalarType.sizeOf .uint16))).toNat)

/-- What `read_command` returns; the ids are set where the result is positive. -/
structure CommandRead (σ : Type) where
  ret : Int
  device : Nat
  operation : Nat
  session : σ

structure Transport (σ : Type) extends SessionAbstract σ where
  readCommand : σ → CommandRead σ

structure Env where
  devices : DeviceTable
  /-- The `n`-th load of `exit_comm`; every turn of the loop has two. -/
  exitComm : Nat → Bool
  /-- Whether `status` is `CLOSED` behind the `n`-th request. -/
  closed : Nat → Bool
  /-- What the receives of the `n`-th request find, by the index of the pack. -/
  slots : Nat → Nat → Slot

def Env.quiet (devices : DeviceTable) : Env where
  devices := devices
  exitComm := fun _ => false
  closed := fun _ => false
  slots := fun _ _ => ⟨fun _ => 0, []⟩

structure Request where
  device : Nat
  operation : Nat
  outcome : Outcome

inductive Ending where
  | returned (ret : Int)
  | aborted (e : Abort)
  | running
  deriving DecidableEq, Repr

/-- A run: the session at every `read_command`, the requests, and how it ended. -/
structure Run (σ : Type) where
  reads : List σ
  requests : List Request
  ending : Ending

def Run.turn {σ : Type} (s : σ) (request : Request) (run : Run σ) : Run σ where
  reads := s :: run.reads
  requests := request :: run.requests
  ending := run.ending

/-- At most `fuel` turns of the loop in `run`, from request `i` on. -/
def runLoop {σ : Type} (t : Transport σ) (env : Env) : Nat → Nat → σ → Run σ
  | 0, _, _ => ⟨[], [], .running⟩
  | fuel + 1, i, s =>
      if env.exitComm (2 * i) then ⟨[], [], .returned 0⟩
      else
        let cmd := t.readCommand s
        if env.exitComm (2 * i + 1) then ⟨[s], [], .returned 0⟩
        else if cmd.ret ≤ 0 then ⟨[s], [], .returned cmd.ret⟩
        else
          match execute t.toSessionAbstract env.devices (env.slots i) cmd.device cmd.operation
              cmd.session with
          | .error e => ⟨[s], [], .aborted e⟩
          | .ok (outcome, s') =>
              let request := ⟨cmd.device, cmd.operation, outcome⟩
              if env.closed i then ⟨[s], [request], .returned 0⟩
              else (runLoop t env fuel (i + 1) s').turn s request

/-- The loop goes through request `i`: no shutdown is seen and the session is not closed. -/
def Env.Continues (env : Env) (i : Nat) : Prop :=
  env.exitComm (2 * i) = false ∧ env.exitComm (2 * i + 1) = false ∧ env.closed i = false

section

variable {σ : Type} (t : Transport σ) (env : Env)

theorem runLoop_stop {i : Nat} (s : σ) (fuel : Nat)
    (h : env.exitComm (2 * i) = true ∨ env.exitComm (2 * i + 1) = true) :
    (runLoop t env (fuel + 1) i s).reads = [] ∨ (runLoop t env (fuel + 1) i s).reads = [s] := by
  by_cases hfirst : env.exitComm (2 * i) = true
  · simp [runLoop, hfirst]
  · have hsecond : env.exitComm (2 * i + 1) = true := h.resolve_left hfirst
    simp [runLoop, hfirst, hsecond]

theorem runLoop_reads {i : Nat} (s : σ) (fuel : Nat) (h : env.exitComm (2 * i) = false) :
    ∃ reads, (runLoop t env (fuel + 1) i s).reads = s :: reads := by
  simp only [runLoop, h, Bool.false_eq_true, if_false]
  split
  · exact ⟨[], rfl⟩
  · split
    · exact ⟨[], rfl⟩
    · split
      · exact ⟨[], rfl⟩
      · split
        · exact ⟨[], rfl⟩
        · exact ⟨_, rfl⟩

theorem runLoop_request {i : Nat} {s s' : σ} (fuel : Nat) (hload : env.exitComm (2 * i) = false)
    (hload' : env.exitComm (2 * i + 1) = false) (hret : 0 < (t.readCommand s).ret)
    {outcome : Outcome}
    (hexec : execute t.toSessionAbstract env.devices (env.slots i) (t.readCommand s).device
      (t.readCommand s).operation (t.readCommand s).session = .ok (outcome, s')) :
    let request := ⟨(t.readCommand s).device, (t.readCommand s).operation, outcome⟩
    runLoop t env (fuel + 1) i s =
      if env.closed i then ⟨[s], [request], .returned 0⟩
      else (runLoop t env fuel (i + 1) s').turn s request := by
  have hpos : ¬ (t.readCommand s).ret ≤ 0 := by omega
  simp [runLoop, hload, hload', hpos, hexec]

/-- An invariant of the loop: a turn that executes a command keeps it, as far as the session
in front of the turn meets a condition. -/
theorem runLoop_keeps {Inv Meets : σ → Prop}
    (hturn : ∀ s, Inv s → Meets s → 0 < (t.readCommand s).ret → ∀ slots outcome s',
      execute t.toSessionAbstract env.devices slots (t.readCommand s).device
        (t.readCommand s).operation (t.readCommand s).session = .ok (outcome, s') → Inv s')
    {fuel i : Nat} {s : σ} (hinv : Inv s) (hmeets : ∀ s' ∈ (runLoop t env fuel i s).reads, Meets s') :
    ∀ s' ∈ (runLoop t env fuel i s).reads, Inv s' := by
  induction fuel generalizing i s with
  | zero => simp [runLoop]
  | succ fuel ih =>
      intro s' hs'
      unfold runLoop at hs' hmeets
      by_cases hload : env.exitComm (2 * i) = true
      · simp [hload] at hs'
      · rw [if_neg hload] at hs' hmeets
        simp only at hs' hmeets
        by_cases hload' : env.exitComm (2 * i + 1) = true
        · rw [if_pos hload', List.mem_singleton] at hs'
          exact hs' ▸ hinv
        · rw [if_neg hload'] at hs' hmeets
          by_cases hret : (t.readCommand s).ret ≤ 0
          · rw [if_pos hret, List.mem_singleton] at hs'
            exact hs' ▸ hinv
          · rw [if_neg hret] at hs' hmeets
            cases hexec : execute t.toSessionAbstract env.devices (env.slots i)
                (t.readCommand s).device (t.readCommand s).operation (t.readCommand s).session with
            | error e =>
                simp only [hexec, List.mem_singleton] at hs'
                exact hs' ▸ hinv
            | ok result =>
                obtain ⟨outcome, next⟩ := result
                simp only [hexec] at hs' hmeets
                by_cases hclosed : env.closed i = true
                · rw [if_pos hclosed, List.mem_singleton] at hs'
                  exact hs' ▸ hinv
                · rw [if_neg hclosed] at hs' hmeets
                  have hfirst : Meets s := hmeets s (List.mem_cons_self ..)
                  have hnext := hturn s hinv hfirst (by omega) _ _ _ hexec
                  rcases List.mem_cons.mp hs' with rfl | hs'
                  · exact hinv
                  · exact ih hnext (fun s'' hs'' => hmeets s'' (List.mem_cons_of_mem _ hs'')) s' hs'

end

end KoheronServer.Session
