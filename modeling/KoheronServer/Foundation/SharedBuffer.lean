import KoheronServer.Foundation.SendThreads

/-!
# Sending through a shared buffer

Threads that build their messages in one buffer, and write what it holds. In every
interleaving each message is delivered once and as it is exactly when any two messages
of different threads are the same in the buffer or are sent under a common lock.
-/

namespace Foundation

/-- The buffer, what has been written from it, and the threads that send. -/
structure SharedBuffer (μ β ℓ : Type) where
  buffer : β
  delivered : List β
  threads : Threads μ ℓ

namespace SharedBuffer

variable {μ β ℓ : Type}

def init (buffer : β) (jobs : Nat → List (Job μ ℓ)) : SharedBuffer μ β ℓ := ⟨buffer, [], .init jobs⟩

/-- An effect on the buffer: `content m` is what a message is in it. -/
def apply (content : μ → β) (s : SharedBuffer μ β ℓ) (th : Threads μ ℓ) :
    SendEffect μ → SharedBuffer μ β ℓ
  | .silent => ⟨s.buffer, s.delivered, th⟩
  | .build m => ⟨content m, s.delivered, th⟩
  | .write _ => ⟨s.buffer, s.delivered ++ [s.buffer], th⟩

@[simp] theorem apply_threads (content : μ → β) (s : SharedBuffer μ β ℓ) (th : Threads μ ℓ)
    (e : SendEffect μ) : (s.apply content th e).threads = th := by
  cases e <;> rfl

variable [DecidableEq ℓ]

def step (content : μ → β) (s : SharedBuffer μ β ℓ) (a : Nat × SendAction) :
    Option (SharedBuffer μ β ℓ) :=
  match s.threads.step a.1 a.2 with
  | none => none
  | some (th, e) => some (s.apply content th e)

theorem step_cases {content : μ → β} {s s' : SharedBuffer μ β ℓ} {a : Nat × SendAction}
    (h : step content s a = some s') :
    ∃ th e, Threads.Stepped s.threads a.1 a.2 th e ∧ s' = s.apply content th e := by
  unfold step at h
  cases hstep : s.threads.step a.1 a.2 with
  | none => simp [hstep] at h
  | some result =>
      obtain ⟨th, e⟩ := result
      simp only [hstep] at h
      cases h
      exact ⟨th, e, Threads.step_iff.mp hstep, rfl⟩

theorem step_of_stepped {content : μ → β} {s : SharedBuffer μ β ℓ} {t : Nat} {a : SendAction}
    {th : Threads μ ℓ} {e : SendEffect μ} (h : Threads.Stepped s.threads t a th e) :
    step content s (t, a) = some (s.apply content th e) := by
  simp only [step, Threads.step_iff.mpr h]

end SharedBuffer

def writes {σ μ ℓ : Type} [DecidableEq ℓ] (threads : σ → Threads μ ℓ) :
    List (σ × (Nat × SendAction)) → List (Nat × μ)
  | [] => []
  | (s, a) :: past =>
      writes threads past ++
        match (threads s).step a.1 a.2 with
        | none => []
        | some (_, e) => e.written.map fun m => (a.1, m)

namespace SharedBuffer

variable {μ β ℓ : Type} [DecidableEq ℓ]

/-- Every message is delivered once and as it is: what has been written from the buffer are the
contents of the messages whose second step has been taken, in this order, and each thread has
written its messages from the first one on. -/
structure Unmixed (content : μ → β) (jobs : Nat → List (Job μ ℓ))
    (past : List (SharedBuffer μ β ℓ × (Nat × SendAction))) (s : SharedBuffer μ β ℓ) : Prop where
  delivered : s.delivered = (writes SharedBuffer.threads past).map fun x => content x.2
  once : ∀ t, ((writes SharedBuffer.threads past).filter fun x => x.1 = t).map Prod.snd ++
    s.threads.remaining t = (jobs t).flatMap Job.messages

/-- Two messages of different threads are under a common lock, or it does not matter which of them
is written. -/
def Compatible (content : μ → β) (jobs : Nat → List (Job μ ℓ)) : Prop :=
  ∀ t t', t ≠ t' → ∀ job ∈ jobs t, ∀ job' ∈ jobs t', ∀ m ∈ job.messages, ∀ m' ∈ job'.messages,
    content m = content m' ∨ ∃ l, l ∈ job.locks ∧ l ∈ job'.locks

/-- The buffer holds each message that is built and not yet written. -/
def Holds (content : μ → β) (s : SharedBuffer μ β ℓ) : Prop :=
  ∀ t locks m ms, s.threads.control t = .built locks m ms → s.buffer = content m

/-! ### Compatible messages -/

section

variable {content : μ → β} {jobs : Nat → List (Job μ ℓ)} {s s' : SharedBuffer μ β ℓ}
  {b : Nat} {a : SendAction}

/-- Between the steps of a message no thread builds another one. -/
theorem holds_step (hcompatible : Compatible content jobs) (howned : s.threads.Owned)
    (hjobs : s.threads.FromJobs jobs) (hholds : Holds content s)
    (h : step content s (b, a) = some s') :
    Holds content s' := by
  obtain ⟨th, e, hstepped, rfl⟩ := step_cases h
  intro t locks m ms hbuilt
  rw [apply_threads] at hbuilt
  by_cases ht : t = b
  · subst ht
    cases hstepped with
    | start hcontrol _ _ =>
        rw [Threads.setControl_self] at hbuilt
        cases hbuilt
    | build hcontrol =>
        rw [Threads.setControl_self] at hbuilt
        cases hbuilt
        rfl
    | write hcontrol =>
        rw [Threads.setControl_self] at hbuilt
        cases hbuilt
    | finish hcontrol =>
        rw [Threads.setControl_self] at hbuilt
        cases hbuilt
  · rw [hstepped.control_of_ne ht] at hbuilt
    have hbuffer := hholds t locks m ms hbuilt
    cases hstepped with
    | start _ _ _ => exact hbuffer
    | build hcontrol =>
        rename_i locks' m' ms'
        obtain ⟨job, hjob, hlocks, hmem⟩ := hjobs.current t m
          (by rw [hbuilt]; exact List.mem_cons_self)
        obtain ⟨job', hjob', hlocks', hmem'⟩ := hjobs.current b m'
          (by rw [hcontrol]; exact List.mem_cons_self)
        rcases hcompatible t b ht job hjob job' hjob' m hmem m' hmem' with hsame | ⟨l, hl, hl'⟩
        · exact hsame.symm
        · rw [hlocks] at hl
          rw [hlocks'] at hl'
          exact absurd (howned.exclusive hl hl') ht
    | write _ => exact hbuffer
    | finish _ => exact hbuffer

theorem writes_cons {past : List (SharedBuffer μ β ℓ × (Nat × SendAction))} {th : Threads μ ℓ}
    {e : SendEffect μ} (h : Threads.Stepped s.threads b a th e) :
    writes SharedBuffer.threads ((s, (b, a)) :: past) =
      writes SharedBuffer.threads past ++ e.written.map fun m => (b, m) := by
  simp only [writes, Threads.step_iff.mpr h]

/-- A step of a thread writes its next message, or none. -/
theorem once_step {past : List (SharedBuffer μ β ℓ × (Nat × SendAction))}
    (honce : ∀ t, ((writes SharedBuffer.threads past).filter fun x => x.1 = t).map Prod.snd ++
      s.threads.remaining t = (jobs t).flatMap Job.messages) (h : step content s (b, a) = some s') (t : Nat) :
    ((writes SharedBuffer.threads ((s, (b, a)) :: past)).filter fun x => x.1 = t).map Prod.snd ++
      s'.threads.remaining t = (jobs t).flatMap Job.messages := by
  obtain ⟨th, e, hstepped, rfl⟩ := step_cases h
  rw [writes_cons hstepped, apply_threads, List.filter_append, List.map_append, List.append_assoc,
    ← honce t]
  by_cases ht : t = b
  · subst ht
    rw [hstepped.remaining_self]
    cases e <;> simp [SendEffect.written]
  · rw [hstepped.remaining_of_ne ht]
    have hother : ¬b = t := fun h => ht h.symm
    cases e <;> simp [SendEffect.written, hother]

theorem delivered_step {past : List (SharedBuffer μ β ℓ × (Nat × SendAction))}
    (hholds : Holds content s)
    (hdelivered : s.delivered = (writes SharedBuffer.threads past).map fun x => content x.2)
    (h : step content s (b, a) = some s') :
    s'.delivered = (writes SharedBuffer.threads ((s, (b, a)) :: past)).map fun x =>
      content x.2 := by
  obtain ⟨th, e, hstepped, rfl⟩ := step_cases h
  rw [writes_cons hstepped, List.map_append, ← hdelivered]
  cases hstepped with
  | start _ _ _ => simp [apply, SendEffect.written]
  | build _ => simp [apply, SendEffect.written]
  | write hcontrol => simp [apply, SendEffect.written, hholds b _ _ _ hcontrol]
  | finish _ => simp [apply, SendEffect.written]

end

/-- The runs of threads that send these messages. -/
abbrev Sends (content : μ → β) (buffer : β) (jobs : Nat → List (Job μ ℓ)) :=
  Run (fun s a s' => step content s a = some s') (init buffer jobs)

theorem run_locks {content : μ → β} {buffer : β} {jobs : Nat → List (Job μ ℓ)}
    {past : List (SharedBuffer μ β ℓ × (Nat × SendAction))} {s : SharedBuffer μ β ℓ}
    (h : Sends content buffer jobs past s) : s.threads.Owned ∧ s.threads.FromJobs jobs := by
  refine h.invariant (P := fun s => s.threads.Owned ∧ s.threads.FromJobs jobs)
    ⟨Threads.owned_init jobs, Threads.fromJobs_init jobs⟩ ?_
  intro s a s' hinv hstep
  obtain ⟨th, e, hstepped, rfl⟩ := step_cases hstep
  rw [apply_threads]
  exact ⟨hstepped.owned hinv.1, hstepped.fromJobs hinv.2⟩

/-- Compatible messages are delivered once and as they are, in every interleaving. -/
theorem run_unmixed {content : μ → β} {buffer : β} {jobs : Nat → List (Job μ ℓ)}
    (hcompatible : Compatible content jobs)
    {past : List (SharedBuffer μ β ℓ × (Nat × SendAction))} {s : SharedBuffer μ β ℓ}
    (h : Sends content buffer jobs past s) : Unmixed content jobs past s := by
  have hall : Holds content s ∧ Unmixed content jobs past s := by
    refine h.history_invariant (P := fun past s => Holds content s ∧ Unmixed content jobs past s)
      run_locks ⟨fun t locks m ms hbuilt => (nomatch hbuilt), rfl, fun t => rfl⟩ ?_
    intro past s a s' hlocks hinv hstep
    exact ⟨holds_step hcompatible hlocks.1 hlocks.2 hinv.1 hstep,
      delivered_step hinv.1 hinv.2.delivered hstep, once_step hinv.2.once hstep⟩
  exact hall.2

/-! ### Messages that are not compatible -/

section

variable {content : μ → β} {buffer : β} {jobs : Nat → List (Job μ ℓ)}

def Reached (content : μ → β) (buffer : β) (jobs : Nat → List (Job μ ℓ)) (s : SharedBuffer μ β ℓ) :
    Prop :=
  ∃ past, Sends content buffer jobs past s

theorem Reached.step {s : SharedBuffer μ β ℓ} (h : Reached content buffer jobs s) {t : Nat}
    {a : SendAction} {th : Threads μ ℓ} {e : SendEffect μ}
    (hstep : Threads.Stepped s.threads t a th e) :
    Reached content buffer jobs (s.apply content th e) := by
  obtain ⟨past, hrun⟩ := h
  exact ⟨_, hrun.next (step_of_stepped hstep)⟩

/-- A thread in a job sends some of its messages, while the others wait. -/
theorem Reached.messages {s : SharedBuffer μ β ℓ} (h : Reached content buffer jobs s) {t : Nat}
    {locks : List ℓ} {ms rest : List μ} (hcontrol : s.threads.control t = .holding locks (ms ++ rest)) :
    ∃ s', Reached content buffer jobs s' ∧
      s'.threads = s.threads.setControl t (.holding locks rest) := by
  induction ms generalizing s with
  | nil =>
      have hsame : s.threads.setControl t (.holding locks rest) = s.threads :=
        Threads.setControl_eq_self hcontrol
      exact ⟨s, h, hsame.symm⟩
  | cons m ms ih =>
      have hbuild : Threads.Stepped s.threads t .build
          (s.threads.setControl t (.built locks m (ms ++ rest))) (.build m) := .build hcontrol
      have hwrite : Threads.Stepped (s.apply content _ (.build m)).threads t .write
          ((s.threads.setControl t (.built locks m (ms ++ rest))).setControl t (.holding locks (ms ++ rest)))
          (.write m) := .write (Threads.setControl_self _ _ _)
      have hafter := (h.step hbuild).step hwrite
      obtain ⟨s', hs', hthreads⟩ := ih hafter (by rw [apply_threads, Threads.setControl_self])
      refine ⟨s', hs', ?_⟩
      rw [hthreads, apply_threads, Threads.setControl_setControl, Threads.setControl_setControl]

/-- A thread begins a job under locks that are free, and sends its first messages. -/
theorem Reached.enter {s : SharedBuffer μ β ℓ} (h : Reached content buffer jobs s) {t : Nat}
    {job : Job μ ℓ} {post : List (Job μ ℓ)} {ms rest : List μ}
    (hcontrol : s.threads.control t = .idle)
    (hjobs : s.threads.jobs t = job :: post) (hfree : s.threads.isFree job.locks = true)
    (hmessages : job.messages = ms ++ rest) :
    ∃ s', Reached content buffer jobs s' ∧
      s'.threads = ((s.threads.setHolder job.locks (some t)).setJobs t post).setControl t
        (.holding job.locks rest) := by
  have hstart := h.step (.start hcontrol hjobs hfree)
  have hheld : (s.apply content (((s.threads.setHolder job.locks (some t)).setJobs t post).setControl t
      (.holding job.locks job.messages)) .silent).threads.control t = .holding job.locks (ms ++ rest) := by
    rw [apply_threads, Threads.setControl_self, hmessages]
  obtain ⟨s', hs', hthreads⟩ := hstart.messages hheld
  refine ⟨s', hs', ?_⟩
  rw [hthreads, apply_threads, Threads.setControl_setControl]

theorem Reached.job {s : SharedBuffer μ β ℓ} (h : Reached content buffer jobs s) {t : Nat}
    {job : Job μ ℓ} {post : List (Job μ ℓ)} (hcontrol : s.threads.control t = .idle)
    (hjobs : s.threads.jobs t = job :: post) (hholder : ∀ l, s.threads.holder l = none) :
    ∃ s', Reached content buffer jobs s' ∧ s'.threads = s.threads.setJobs t post := by
  obtain ⟨s₁, hs₁, hthreads⟩ := h.enter hcontrol hjobs (Threads.isFree_iff.mpr fun l _ => hholder l)
    (List.append_nil job.messages).symm
  have hdone : s₁.threads.control t = .holding job.locks [] := by
    rw [hthreads, Threads.setControl_self]
  refine ⟨_, hs₁.step (.finish hdone), ?_⟩
  rw [apply_threads, hthreads]
  apply Threads.ext
  · funext t'
    by_cases ht : t' = t
    · subst ht
      exact (Threads.setControl_self _ _ _).trans hcontrol.symm
    · rw [Threads.setControl_of_ne _ ht]
      exact Threads.setControl_of_ne _ ht _
  · rfl
  · funext l
    by_cases hl : l ∈ job.locks
    · exact (if_pos hl).trans (hholder l).symm
    · exact (if_neg hl).trans (if_neg hl)

theorem Reached.firstJobs {s : SharedBuffer μ β ℓ} (h : Reached content buffer jobs s) {t : Nat}
    {pre post : List (Job μ ℓ)} (hcontrol : s.threads.control t = .idle)
    (hjobs : s.threads.jobs t = pre ++ post) (hholder : ∀ l, s.threads.holder l = none) :
    ∃ s', Reached content buffer jobs s' ∧ s'.threads = s.threads.setJobs t post := by
  induction pre generalizing s with
  | nil => exact ⟨s, h, (Threads.setJobs_eq_self hjobs).symm⟩
  | cons job pre ih =>
      obtain ⟨s₁, hs₁, hthreads⟩ := h.job hcontrol hjobs hholder
      obtain ⟨s₂, hs₂, hthreads'⟩ := ih hs₁ (by rw [hthreads]; exact hcontrol)
        (by rw [hthreads]; exact if_pos rfl) (by rw [hthreads]; exact hholder)
      refine ⟨s₂, hs₂, ?_⟩
      rw [hthreads', hthreads, Threads.setJobs_setJobs]

/-- A thread that is between the two steps of a message writes another one. -/
theorem Reached.not_unmixed {s : SharedBuffer μ β ℓ} (h : Reached content buffer jobs s) {t : Nat}
    {locks : List ℓ} {m : μ} {ms : List μ} (hbuilt : s.threads.control t = .built locks m ms)
    (hbuffer : s.buffer ≠ content m) :
    ∃ past s', Sends content buffer jobs past s' ∧ ¬Unmixed content jobs past s' := by
  obtain ⟨past, hrun⟩ := h
  have hwrite : Threads.Stepped s.threads t .write (s.threads.setControl t (.holding locks ms))
      (.write m) := .write hbuilt
  refine ⟨_, _, hrun.next (step_of_stepped hwrite), ?_⟩
  intro hunmixed
  have hdelivered := hunmixed.delivered
  rw [writes_cons hwrite, List.map_append] at hdelivered
  have hlast := (List.append_inj' hdelivered rfl).2
  exact hbuffer (List.head_eq_of_cons_eq hlast)

/-- Two threads in jobs without a common lock, each in front of a message. -/
theorem reached_both (content : μ → β) (buffer : β) {t t' : Nat} (ht : t ≠ t') {job job' : Job μ ℓ}
    (hjob : job ∈ jobs t)
    (hjob' : job' ∈ jobs t') {m m' : μ} (hm : m ∈ job.messages) (hm' : m' ∈ job'.messages)
    (hlocks : ¬∃ l, l ∈ job.locks ∧ l ∈ job'.locks) :
    ∃ s rest rest', Reached content buffer jobs s ∧
      s.threads.control t = .holding job.locks (m :: rest) ∧
      s.threads.control t' = .holding job'.locks (m' :: rest') := by
  obtain ⟨pre, post, hsplit⟩ := List.append_of_mem hjob
  obtain ⟨pre', post', hsplit'⟩ := List.append_of_mem hjob'
  obtain ⟨ms, rest, hms⟩ := List.append_of_mem hm
  obtain ⟨ms', rest', hms'⟩ := List.append_of_mem hm'
  -- Both threads go through the jobs in front of the two, one after the other.
  have hinit : Reached content buffer jobs (init buffer jobs) := ⟨[], .start⟩
  obtain ⟨s₁, hs₁, hthreads₁⟩ := hinit.firstJobs (t := t) rfl hsplit fun _ => rfl
  obtain ⟨s₂, hs₂, hthreads₂⟩ := hs₁.firstJobs (t := t') (by rw [hthreads₁]; rfl)
    (by rw [hthreads₁]; exact (if_neg (Ne.symm ht)).trans hsplit')
    (by rw [hthreads₁]; exact fun _ => rfl)
  rw [hthreads₁] at hthreads₂
  obtain ⟨s₃, hs₃, hthreads₃⟩ := hs₂.enter (t := t') (by rw [hthreads₂]; rfl)
    (by rw [hthreads₂]; exact if_pos rfl)
    (by rw [hthreads₂]; exact Threads.isFree_iff.mpr fun _ _ => rfl) hms'
  rw [hthreads₂] at hthreads₃
  have hfree : s₃.threads.isFree job.locks = true := by
    rw [hthreads₃]
    refine Threads.isFree_iff.mpr fun l hl => if_neg ?_
    exact fun hl' => hlocks ⟨l, hl, hl'⟩
  obtain ⟨s₄, hs₄, hthreads₄⟩ := hs₃.enter (t := t)
    (by rw [hthreads₃]; exact Threads.setControl_of_ne _ ht _)
    (by rw [hthreads₃]; exact (if_neg ht).trans ((if_neg ht).trans (if_pos rfl))) hfree hms
  refine ⟨s₄, rest, rest', hs₄, ?_, ?_⟩
  · rw [hthreads₄, Threads.setControl_self]
  · rw [hthreads₄, Threads.setControl_of_ne _ (Ne.symm ht), hthreads₃]
    exact Threads.setControl_self _ _ _

/-- Messages that are not compatible are mixed in some interleaving. -/
theorem exists_mixed (buffer : β) (hjobs : ¬Compatible content jobs) :
    ∃ past s, Sends content buffer jobs past s ∧ ¬Unmixed content jobs past s := by
  simp only [Compatible, not_forall, not_or] at hjobs
  obtain ⟨t, t', ht, job, hjob, job', hjob', m, hm, m', hm', hdiffer, hlocks⟩ := hjobs
  obtain ⟨s, rest, rest', hs, hcontrol, hcontrol'⟩ :=
    reached_both content buffer ht hjob hjob' hm hm' hlocks
  have hfirst := hs.step (.build hcontrol)
  have hwaiting : (s.apply content (s.threads.setControl t (.built job.locks m rest))
      (.build m)).threads.control t' = .holding job'.locks (m' :: rest') := by
    rw [apply_threads, Threads.setControl_of_ne _ (Ne.symm ht), hcontrol']
  obtain ⟨s', hs', hbuffer, hbuilt⟩ : ∃ s', Reached content buffer jobs s' ∧
      s'.buffer = content m' ∧ s'.threads.control t = .built job.locks m rest := by
    refine ⟨_, hfirst.step (.build hwaiting), rfl, ?_⟩
    rw [apply_threads, Threads.setControl_of_ne _ ht, apply_threads, Threads.setControl_self]
  exact hs'.not_unmixed hbuilt (by rw [hbuffer]; exact Ne.symm hdiffer)

/-- All interleavings deliver each message once and as it is exactly when the messages are
compatible. -/
theorem unmixed_iff (content : μ → β) (buffer : β) (jobs : Nat → List (Job μ ℓ)) :
    (∀ past s, Sends content buffer jobs past s → Unmixed content jobs past s) ↔
      Compatible content jobs := by
  constructor
  · intro hall
    by_contra hjobs
    obtain ⟨past, s, hrun, hmixed⟩ := exists_mixed buffer hjobs
    exact hmixed (hall past s hrun)
  · intro hjobs past s hrun
    exact run_unmixed hjobs hrun

end

end SharedBuffer

end Foundation
