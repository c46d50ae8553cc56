import KoheronServer.Devices.Threads

/-!
# Circular dependencies

A constructor that gets a device which is still being constructed is handed a
reference through a null pointer. The error of `alloc` stays in `alloc_device`,
which sets `exit_all` and returns, so the constructors around it go on and their
devices are marked as started.
-/

namespace KoheronServer.Devices

open Foundation Relation

variable {n : Nat}

/-- What a request for a device should leave when constructors need each other in a circle. -/
structure FailsCleanly (constructors : Constructors n) (m : DeviceManager n) : Prop where
  references : m.Clean
  started : ∀ dev, ReachesCycle constructors.Needs dev → m.isStarted dev = false
  exitAll : m.exitAll = true

/-- A device behind which there is a circle is started all the same, and on the way a null
reference has been handed out and `exit_all` set. -/
theorem start_cycle {constructors : Constructors n} {m m' : DeviceManager n} {dev : Fin n}
    (hcycle : ReachesCycle constructors.Needs dev) (hidle : m.devCont.isStarting dev = false)
    (h : DeviceManager.Allocated constructors dev m m') :
    m'.isStarted dev = true ∧ ¬m'.Clean ∧ m'.exitAll = true := by
  have hstarted := h.started hidle
  have hnull : ¬m'.Clean := by
    intro hclean
    exact hcycle.not_founded (h.consistent.founded hclean dev hstarted)
  exact ⟨hstarted, hnull, h.consistent.exits hnull⟩

/-- A request for a device behind which there is a circle fails cleanly in no state that session
threads can bring about. -/
theorem cycle_not_clean {constructors : Constructors n} {dev : Fin n}
    (hcycle : ReachesCycle constructors.Needs dev) {past : List (Server n × Action n)}
    {s : Server n} (h : Run (Server.Step constructors) (Server.init n) past s) (debug : Bool) :
    (∃ m', s.manager.execute constructors debug (deviceId dev) = some (.ok (.device dev, m')) ∧
      ¬FailsCleanly constructors m') ∧
    ∃ object m', DeviceManager.get (DeviceManager.allocDevice constructors (n + 1)) dev s.manager =
        some (object, m') ∧ ¬FailsCleanly constructors m' := by
  have hinv := Server.run_inv h
  have hidle := hinv.free dev
  constructor
  · obtain ⟨m', hexecute, halloc⟩ := DeviceManager.execute_spec hinv.consistent debug hidle
    exact ⟨m', hexecute, fun hclean => (start_cycle hcycle hidle halloc).2.1 hclean.references⟩
  · obtain ⟨m', hget, halloc⟩ := DeviceManager.get_spec hinv.consistent
      (DeviceManager.allocDevice_spec constructors (n + 1) dev s.manager hinv.consistent
        (Nat.lt_succ_of_le s.manager.unstarting_le))
    exact ⟨_, m', hget, fun hclean => (start_cycle hcycle hidle halloc).2.1 hclean.references⟩

/-- Two devices that get each other in their constructors. -/
def circle : Constructors 2 := fun dev => [dev.rev]

theorem circle_reaches : ReachesCycle circle.Needs 0 := by
  have hthere : circle.Needs 0 1 := List.mem_singleton.mpr rfl
  have hback : circle.Needs 1 0 := List.mem_singleton.mpr rfl
  exact ⟨0, .refl, .tail (.single hthere) hback⟩

/-- The first command for one of them. -/
theorem cycle_not_clean_circle :
    (∃ m', (DeviceManager.created 2).execute circle false 2 = some (.ok (.device 0, m')) ∧
      ¬FailsCleanly circle m') ∧
    ∃ object m', DeviceManager.get (DeviceManager.allocDevice circle 3) 0
        (DeviceManager.created 2) = some (object, m') ∧ ¬FailsCleanly circle m' :=
  cycle_not_clean circle_reaches .start false

/-- It hands out a null reference and marks both as started. -/
theorem circle_starts :
    ∃ m', (DeviceManager.created 2).execute circle false 2 = some (.ok (.device 0, m')) ∧
      .got 1 0 false ∈ m'.events ∧ m'.isStarted 0 = true ∧ m'.isStarted 1 = true ∧
      ¬FailsCleanly circle m' := by
  refine ⟨_, rfl, by decide, rfl, rfl, ?_⟩
  intro h
  exact h.references 1 0 (by decide)

end KoheronServer.Devices
