import CppLogger.Benchmark.ProducerGroup

/-!
# The steps of the producers

What a step of a worker, of the caller or of the clock can do, once for all the invariants.
-/

namespace CppLogger

variable {N M : ℕ} {E : Type*}

/-! ## Program points -/

/-- The worker has counted itself ready. -/
def ProducerPc.arrived : ProducerPc E → Bool
  | .unlaunched | .prepare | .recordPrepare _ | .arrive _ => false
  | _ => true

/-- The worker has counted itself completed. -/
def ProducerPc.done : ProducerPc E → Bool
  | .notifyCompletion | .awaitRelease | .asleepRelease | .exited => true
  | _ => false

/-- The workers may start, but those asleep are yet to be told. -/
def StartPc.starting : StartPc E → Bool
  | .abortNotify _ | .notifyStart => true
  | _ => false

/-- The workers may exit, but those asleep are yet to be told. -/
def StartPc.releasing : StartPc E → Bool
  | .releaseAndJoin _ _ .notifyRelease => true
  | _ => false

/-- The worker's next step is not a wakeup. -/
def ProducerPc.runnable : ProducerPc E → Bool
  | .unlaunched | .asleepStart _ | .asleepRelease | .exited => false
  | _ => true

namespace ProducerGroup

/-! ## What a step can do -/

/-- A worker goes from one program point to the next, or wakes up without a notification, and
leaves the other members as in the last state. -/
inductive WorkerMove (M : ℕ) (s : ProducerGroup N E) (i : Fin N) :
    ProducerPc E → ProducerPc E → ProducerGroup N E → List (GroupEvent N E) → Prop
  | prepare : WorkerMove M s i .prepare (.arrive true) s [.prepared i]
  | prepareFailed (failure : E) :
      WorkerMove M s i .prepare (.recordPrepare failure) s [.prepared i, .failed failure]
  | recordPrepare (failure : E) :
      WorkerMove M s i (.recordPrepare failure) (.arrive false) (s.recordWorkerFailure failure) []
  | arrive (canSubmit : Bool) :
      WorkerMove M s i (.arrive canSubmit) (s.afterStart canSubmit)
        { s with readyWorkers := s.readyWorkers + 1, caller := s.caller.notifyReady } []
  | awake (canSubmit : Bool) :
      WorkerMove M s i (.awakeStart canSubmit) (s.afterStart canSubmit) s []
  | submit {k : ℕ} (hk : k < M) :
      WorkerMove M s i (.submitNext k) (.submitting k) s [.submitBegan i k s.now]
  | submitDone {k : ℕ} (hk : M ≤ k) : WorkerMove M s i (.submitNext k) .complete s []
  | submitted (k : ℕ) :
      WorkerMove M s i (.submitting k) (.submitNext (k + 1)) s [.submitEnded i k s.now]
  | submitFailed (k : ℕ) (failure : E) :
      WorkerMove M s i (.submitting k) (.recordSubmit failure) s [.failed failure]
  | recordSubmit (failure : E) :
      WorkerMove M s i (.recordSubmit failure) .complete (s.recordWorkerFailure failure) []
  | complete : WorkerMove M s i .complete .notifyCompletion
      { s with completedWorkers := s.completedWorkers + 1 } []
  | notifyCompletion : WorkerMove M s i .notifyCompletion .awaitRelease
      { s with caller := s.caller.notifyCompletion } []
  | awaitRelease : WorkerMove M s i .awaitRelease s.afterRelease s []
  | wakeStart (canSubmit : Bool) :
      WorkerMove M s i (.asleepStart canSubmit) (.awakeStart canSubmit) s []
  | wakeRelease : WorkerMove M s i .asleepRelease .awaitRelease s []

/-- `releaseAndJoin` goes on from a program point to the next, if there is one. -/
inductive ReleaseMove (s : ProducerGroup N E) :
    ReleasePc → ProducerGroup N E → Option ReleasePc → List (GroupEvent N E) → Prop
  | release : ReleaseMove s .release { s with releaseWorkers := true } (some .notifyRelease) []
  | notifyRelease : ReleaseMove s .notifyRelease
      { s with workers := fun i => (s.workers i).notifyRelease } (some (.join 0)) []
  | skip (next : Fin N) (h : next < s.launched) (hjoined : s.joined next = true) :
      ReleaseMove s (.join next) s (some (.join (next + 1))) []
  | join (next : Fin N) (h : next < s.launched) (hjoined : s.joined next = false)
      (hexited : s.workers next = .exited) : ReleaseMove s (.join next)
        { s with joined := Function.update s.joined next true }
        (some (.join (next + 1))) [.joined next]
  | joined {next : ℕ} (h : s.launched ≤ next) : ReleaseMove s (.join next) s none []

/-- The caller goes on from a program point, or wakes up without a notification. -/
inductive CallerMove (s : ProducerGroup N E) :
    StartPc E → ProducerGroup N E → List (GroupEvent N E) → Prop
  | construct : CallerMove s .construct { s with caller := .launch } []
  | constructFailed (failure : E) :
      CallerMove s .construct { s with caller := .threw failure } [.failed failure]
  | launch (h : s.launched < N) :
      CallerMove s .launch (s.emplaceBack h) [.launched ⟨s.launched, h⟩]
  | launchFailed (failure : E) (h : s.launched < N) :
      CallerMove s .launch { s with caller := .abortStart failure } [.failed failure]
  | launchDone (h : s.launched = N) : CallerMove s .launch { s with caller := .awaitReady } []
  | abortStart (failure : E) : CallerMove s (.abortStart failure)
      { s with startWorkers := true, caller := .abortNotify failure } []
  | abortNotify (failure : E) : CallerMove s (.abortNotify failure)
      { s with
        workers := fun i => (s.workers i).notifyStart
        caller := .releaseAndJoin failure false .release } []
  | ready (h : s.readyWorkers = N) : CallerMove s .awaitReady
      { s with started := s.now, startWorkers := true, caller := .notifyStart } []
  | readySleep (h : s.readyWorkers ≠ N) :
      CallerMove s .awaitReady { s with caller := .asleepReady } []
  | notifyStart : CallerMove s .notifyStart
      { s with
        workers := fun i => (s.workers i).notifyStart
        caller := .awaitCompletion } []
  | completed (h : s.completedWorkers = N) :
      CallerMove s .awaitCompletion { s with producersDone := s.now, caller := .rethrow } []
  | completedSleep (h : s.completedWorkers ≠ N) :
      CallerMove s .awaitCompletion { s with caller := .asleepCompletion } []
  | noFailure (h : s.workerFailure = none) :
      CallerMove s .rethrow { s with caller := .returned } []
  | rethrow {failure : E} (h : s.workerFailure = some failure) :
      CallerMove s .rethrow { s with caller := .releaseAndJoin failure false .release } []
  | release (failure : E) (destructor : Bool) :
      CallerMove s (.releaseAndJoin failure destructor .release)
        { s with
          releaseWorkers := true
          caller := .releaseAndJoin failure destructor .notifyRelease } []
  | notifyRelease (failure : E) (destructor : Bool) :
      CallerMove s (.releaseAndJoin failure destructor .notifyRelease)
        { s with
          workers := fun i => (s.workers i).notifyRelease
          caller := .releaseAndJoin failure destructor (.join 0) } []
  | skip (failure : E) (destructor : Bool) (next : Fin N) (h : next < s.launched)
      (hjoined : s.joined next = true) :
      CallerMove s (.releaseAndJoin failure destructor (.join next))
        { s with caller := .releaseAndJoin failure destructor (.join (next + 1)) } []
  | join (failure : E) (destructor : Bool) (next : Fin N) (h : next < s.launched)
      (hjoined : s.joined next = false) (hexited : s.workers next = .exited) :
      CallerMove s (.releaseAndJoin failure destructor (.join next))
        { s with
          joined := Function.update s.joined next true
          caller := .releaseAndJoin failure destructor (.join (next + 1)) } [.joined next]
  | destroy (failure : E) {next : ℕ} (h : s.launched ≤ next) :
      CallerMove s (.releaseAndJoin failure false (.join next))
        { s with caller := .releaseAndJoin failure true .release } []
  | throw (failure : E) {next : ℕ} (h : s.launched ≤ next) :
      CallerMove s (.releaseAndJoin failure true (.join next))
        { s with caller := .threw failure } []
  | wakeReady : CallerMove s .asleepReady { s with caller := .awaitReady } []
  | wakeCompletion : CallerMove s .asleepCompletion { s with caller := .awaitCompletion } []

variable {s t : ProducerGroup N E} {i : Fin N} {es : List (GroupEvent N E)}

theorem workerLoop_move {outcome : Option E} (h : s.workerLoop M i outcome = some (t, es)) :
    ∃ pc s₁, WorkerMove M s i (s.workers i) pc s₁ es ∧ t = s₁.goto i pc := by
  unfold workerLoop at h
  cases hpc : s.workers i with
  | prepare =>
    rw [hpc] at h
    cases outcome with
    | none =>
      cases h
      exact ⟨_, _, .prepare, rfl⟩
    | some failure =>
      cases h
      exact ⟨_, _, .prepareFailed failure, rfl⟩
  | recordPrepare failure =>
    rw [hpc] at h
    cases h
    exact ⟨_, _, .recordPrepare failure, rfl⟩
  | arrive canSubmit =>
    rw [hpc] at h
    cases h
    exact ⟨_, _, .arrive canSubmit, rfl⟩
  | awakeStart canSubmit =>
    rw [hpc] at h
    cases h
    exact ⟨_, _, .awake canSubmit, rfl⟩
  | submitNext k =>
    rw [hpc] at h
    dsimp only at h
    split_ifs at h with hk
    · cases h
      exact ⟨_, _, .submit hk, rfl⟩
    · cases h
      exact ⟨_, _, .submitDone (not_lt.mp hk), rfl⟩
  | submitting k =>
    rw [hpc] at h
    cases outcome with
    | none =>
      cases h
      exact ⟨_, _, .submitted k, rfl⟩
    | some failure =>
      cases h
      exact ⟨_, _, .submitFailed k failure, rfl⟩
  | recordSubmit failure =>
    rw [hpc] at h
    cases h
    exact ⟨_, _, .recordSubmit failure, rfl⟩
  | complete =>
    rw [hpc] at h
    cases h
    exact ⟨_, _, .complete, rfl⟩
  | notifyCompletion =>
    rw [hpc] at h
    cases h
    exact ⟨_, _, .notifyCompletion, rfl⟩
  | awaitRelease =>
    rw [hpc] at h
    cases h
    exact ⟨_, _, .awaitRelease, rfl⟩
  | unlaunched | asleepStart | asleepRelease | exited =>
    rw [hpc] at h
    cases h

section Release

variable {pc : ReleasePc} {next : Option ReleasePc}

theorem releaseAndJoin_move (h : s.releaseAndJoin pc = some (t, next, es)) :
    ReleaseMove s pc t next es := by
  cases pc with
  | release =>
    cases h
    exact .release
  | notifyRelease =>
    cases h
    exact .notifyRelease
  | join i =>
    unfold releaseAndJoin at h
    dsimp only at h
    split_ifs at h with hless hjoined
    · cases h
      exact .skip ⟨i, hless.trans_le s.fits⟩ hless hjoined
    · split at h
      · next hexited =>
        cases h
        exact .join ⟨i, hless.trans_le s.fits⟩ hless (Bool.eq_false_iff.mpr hjoined) hexited
      · cases h
    · cases h
      exact .joined (not_lt.mp hless)

theorem ReleaseMove.keeps (h : ReleaseMove s pc t next es) (hi : s.joined i = true) :
    t.joined i = true := by
  cases h with
  | join j =>
    by_cases hij : i = j
    · rw [hij]
      exact Function.update_self _ _ _
    · exact (Function.update_of_ne hij _ _).trans hi
  | _ => exact hi

/-- Whoever is joined has exited. -/
theorem ReleaseMove.exited (h : ReleaseMove s pc t next es)
    (hs : ∀ i, s.joined i = true → s.workers i = .exited) (hi : t.joined i = true) :
    t.workers i = .exited := by
  cases h with
  | notifyRelease =>
    dsimp only
    rw [hs i hi]
    rfl
  | join j hless hjoined hexited =>
    by_cases hij : i = j
    · rw [hij]
      exact hexited
    · exact hs i ((Function.update_of_ne hij _ _).symm.trans hi)
  | _ => exact hs i hi

/-- The loop leaves no thread behind it that is not joined. -/
theorem ReleaseMove.before {k k' : ℕ} (h : ReleaseMove s (.join k) t (some (.join k')) es)
    (hs : ∀ i : Fin N, i < k → i < s.launched → s.joined i = true) (hi : i < k')
    (hlaunched : i < t.launched) : t.joined i = true := by
  have hkept : i < s.launched → (i : ℕ) < k → t.joined i = true := fun hlaunched hlt =>
    h.keeps (hs i hlt hlaunched)
  cases h with
  | skip j hless hjoined =>
    rcases Nat.lt_succ_iff_lt_or_eq.mp hi with hlt | heq
    · exact hkept hlaunched hlt
    · rw [Fin.ext heq]
      exact hjoined
  | join j =>
    rcases Nat.lt_succ_iff_lt_or_eq.mp hi with hlt | heq
    · exact hkept hlaunched hlt
    · rw [Fin.ext heq]
      exact Function.update_self _ _ _

/-- `releaseAndJoin` waits for nobody but a thread that has not exited. -/
theorem releaseAndJoin_blocked (s : ProducerGroup N E) (pc : ReleasePc) :
    (s.releaseAndJoin pc).isSome = true ∨
      ∃ i : Fin N, pc = .join i ∧ i < s.launched ∧ s.workers i ≠ .exited := by
  cases pc with
  | release | notifyRelease => exact .inl rfl
  | join next =>
    by_cases hless : next < s.launched
    · by_cases hexited : s.workers ⟨next, hless.trans_le s.fits⟩ = .exited
      · left
        unfold releaseAndJoin
        simp only [hless, dite_true, hexited]
        split_ifs <;> rfl
      · exact .inr ⟨⟨next, hless.trans_le s.fits⟩, rfl, hless, hexited⟩
    · left
      unfold releaseAndJoin
      simp only [hless, dite_false]
      rfl

/-- A step of `releaseAndJoin` in `start`. -/
theorem ReleaseMove.caller {failure : E} {destructor : Bool} (h : ReleaseMove s pc t next es) :
    CallerMove s (.releaseAndJoin failure destructor pc)
      { t with caller := .behindRelease failure destructor next } es := by
  cases h with
  | release => exact .release failure destructor
  | notifyRelease => exact .notifyRelease failure destructor
  | skip i hless hjoined => exact .skip failure destructor i hless hjoined
  | join i hless hjoined hexited => exact .join failure destructor i hless hjoined hexited
  | joined hle =>
    cases destructor with
    | true => exact .throw failure hle
    | false => exact .destroy failure hle

end Release

theorem startStep_move {outcome : Option E} (h : s.startStep outcome = some (t, es)) :
    CallerMove s s.caller t es := by
  unfold startStep at h
  cases hpc : s.caller with
  | construct =>
    rw [hpc] at h
    cases outcome with
    | none =>
      cases h
      exact .construct
    | some failure =>
      cases h
      exact .constructFailed failure
  | launch =>
    rw [hpc] at h
    dsimp only at h
    split_ifs at h with hless
    · cases outcome with
      | none =>
        cases h
        exact .launch hless
      | some failure =>
        cases h
        exact .launchFailed failure hless
    · cases h
      exact .launchDone (le_antisymm s.fits (not_lt.mp hless))
  | awaitReady =>
    rw [hpc] at h
    dsimp only at h
    split_ifs at h with hready
    · cases h
      exact .ready hready
    · cases h
      exact .readySleep hready
  | awaitCompletion =>
    rw [hpc] at h
    dsimp only at h
    split_ifs at h with hcompleted
    · cases h
      exact .completed hcompleted
    · cases h
      exact .completedSleep hcompleted
  | rethrow =>
    rw [hpc] at h
    dsimp only at h
    split at h
    · cases h
      exact .noFailure ‹_›
    · cases h
      exact .rethrow ‹_›
  | releaseAndJoin failure destructor pc =>
    rw [hpc] at h
    obtain ⟨⟨s', next, joins⟩, hrelease, heq⟩ := Option.map_eq_some_iff.mp h
    cases heq
    exact (releaseAndJoin_move hrelease).caller
  | abortStart failure =>
    rw [hpc] at h
    cases h
    exact .abortStart failure
  | abortNotify failure =>
    rw [hpc] at h
    cases h
    exact .abortNotify failure
  | notifyStart =>
    rw [hpc] at h
    cases h
    exact .notifyStart
  | asleepReady | asleepCompletion | returned | threw =>
    rw [hpc] at h
    cases h

theorem wakeWorker_move (h : s.wakeWorker i = some t) :
    ∃ pc, WorkerMove M s i (s.workers i) pc s [] ∧ t = s.goto i pc := by
  unfold wakeWorker at h
  cases hpc : s.workers i <;> rw [hpc] at h <;> cases h
  · exact ⟨_, .wakeStart _, rfl⟩
  · exact ⟨_, .wakeRelease, rfl⟩

theorem wakeCaller_move (h : s.wakeCaller = some t) : CallerMove s s.caller t [] := by
  unfold wakeCaller at h
  cases hpc : s.caller <;> rw [hpc] at h <;> cases h
  · exact .wakeReady
  · exact .wakeCompletion

/-- A step is one of a worker, one of the caller, or one of the clock. -/
theorem step_cases {a : GroupAction N E} (h : (groupSystem N M E).step s a = some (t, es)) :
    (∃ i pc s₁, WorkerMove M s i (s.workers i) pc s₁ es ∧ t = s₁.goto i pc) ∨
      CallerMove s s.caller t es ∨
      ∃ elapsed : ℕ, t = { s with now := s.now + elapsed } ∧ es = [] := by
  cases a with
  | caller outcome => exact .inr (.inl (startStep_move h))
  | worker i outcome => exact .inl ⟨i, workerLoop_move h⟩
  | wakeCaller =>
    obtain ⟨s', hwake, heq⟩ := Option.map_eq_some_iff.mp h
    cases heq
    exact .inr (.inl (wakeCaller_move hwake))
  | wakeWorker i =>
    obtain ⟨s', hwake, heq⟩ := Option.map_eq_some_iff.mp h
    cases heq
    obtain ⟨pc, hmove, rfl⟩ := wakeWorker_move (M := M) hwake
    exact .inl ⟨i, pc, s, hmove, rfl⟩
  | tick elapsed =>
    cases h
    exact .inr (.inr ⟨elapsed, rfl, rfl⟩)

end ProducerGroup

end CppLogger
