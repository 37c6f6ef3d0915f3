import CppLogger.Benchmark.ProducerMoves
import CppLogger.Foundation.Census

/-!
# The start barrier

Three waits follow one another: the caller waits until all workers have arrived, the workers
wait for the start, the caller waits for the last worker to complete. After a failure the
workers wait for their release and the caller for their exit. No wait is left behind: who
sleeps has somebody that is still on the way to the notification.
-/

namespace CppLogger

variable {N M : ℕ} {E : Type*}

namespace ProducerGroup

variable {s t : ProducerGroup N E} {i : Fin N} {es : List (GroupEvent N E)}

/-! ## The invariant -/

/-- What the members tell of a worker at a program point: whoever sleeps may sleep, or will be
told that it is over. -/
def WorkerOk (s : ProducerGroup N E) : ProducerPc E → Prop
  | .asleepStart _ => s.startWorkers = false ∨ s.caller.starting = true
  | .asleepRelease =>
    s.startWorkers = true ∧ (s.releaseWorkers = false ∨ s.caller.releasing = true)
  | .exited => s.startWorkers = true ∧ s.releaseWorkers = true
  | .submitNext _ | .submitting _ | .recordSubmit _ | .complete | .notifyCompletion
  | .awaitRelease => s.startWorkers = true
  | _ => True

def AllJoined (s : ProducerGroup N E) : Prop := ∀ i : Fin N, i < s.launched → s.joined i = true

def AllDone (s : ProducerGroup N E) : Prop := ∀ i, (s.workers i).done = true

/-- What the members tell of the caller at a program point. -/
def CallerOk (s : ProducerGroup N E) : StartPc E → Prop
  | .construct => s.launched = 0 ∧ s.startWorkers = false ∧ s.releaseWorkers = false
  | .launch => s.startWorkers = false ∧ s.releaseWorkers = false
  | .abortStart _ => s.launched < N ∧ s.startWorkers = false ∧ s.releaseWorkers = false
  | .abortNotify _ => s.launched < N ∧ s.startWorkers = true ∧ s.releaseWorkers = false
  | .awaitReady => s.launched = N ∧ s.startWorkers = false ∧ s.releaseWorkers = false
  | .asleepReady =>
    s.launched = N ∧ s.startWorkers = false ∧ s.releaseWorkers = false ∧ s.readyWorkers ≠ N
  | .notifyStart | .awaitCompletion =>
    s.launched = N ∧ s.startWorkers = true ∧ s.releaseWorkers = false
  | .asleepCompletion =>
    s.launched = N ∧ s.startWorkers = true ∧ s.releaseWorkers = false ∧
      (s.completedWorkers = N → ∃ i, s.workers i = .notifyCompletion)
  | .rethrow =>
    s.launched = N ∧ s.startWorkers = true ∧ s.releaseWorkers = false ∧ s.AllDone
  | .returned =>
    s.launched = N ∧ s.startWorkers = true ∧ s.releaseWorkers = false ∧ s.AllDone ∧
      s.workerFailure = none
  | .releaseAndJoin _ destructor .release =>
    s.startWorkers = true ∧ s.releaseWorkers = destructor ∧ (destructor = true → s.AllJoined)
  | .releaseAndJoin _ destructor .notifyRelease =>
    s.startWorkers = true ∧ s.releaseWorkers = true ∧ (destructor = true → s.AllJoined)
  | .releaseAndJoin _ destructor (.join next) =>
    s.startWorkers = true ∧ s.releaseWorkers = true ∧ (destructor = true → s.AllJoined) ∧
      ∀ i : Fin N, i < next → i < s.launched → s.joined i = true
  | .threw _ => s.AllJoined

/-- The counters count, and the flags and the program points fit together. -/
structure Barrier (s : ProducerGroup N E) : Prop where
  unlaunched : ∀ i, s.workers i = .unlaunched ↔ s.launched ≤ i
  ready : s.readyWorkers = census ProducerPc.arrived s.workers
  completed : s.completedWorkers = census ProducerPc.done s.workers
  joined : ∀ i, s.joined i = true → s.workers i = .exited
  workers : ∀ i, s.WorkerOk (s.workers i)
  caller : s.CallerOk s.caller

theorem barrier_initial : Barrier (initial : ProducerGroup N E) where
  unlaunched i := iff_of_true rfl (Nat.zero_le _)
  ready := (census_eq_zero.mpr fun _ => rfl).symm
  completed := (census_eq_zero.mpr fun _ => rfl).symm
  joined i h := by cases h
  workers i := trivial
  caller := ⟨rfl, rfl, rfl⟩

theorem WorkerOk.mono {s t : ProducerGroup N E} {x : ProducerPc E} (h : s.WorkerOk x)
    (hstart : s.startWorkers = true → t.startWorkers = true)
    (hrelease : s.releaseWorkers = true → t.releaseWorkers = true)
    (hasleep : ∀ canSubmit, x = .asleepStart canSubmit →
      s.startWorkers = false ∨ s.caller.starting = true →
      t.startWorkers = false ∨ t.caller.starting = true)
    (hunreleased : x = .asleepRelease → s.releaseWorkers = false ∨ s.caller.releasing = true →
      t.releaseWorkers = false ∨ t.caller.releasing = true) : t.WorkerOk x := by
  cases x with
  | asleepStart canSubmit => exact hasleep canSubmit rfl h
  | asleepRelease => exact ⟨hstart h.1, hunreleased rfl h.2⟩
  | exited => exact ⟨hstart h.1, hrelease h.2⟩
  | submitNext | submitting | recordSubmit | complete | notifyCompletion | awaitRelease =>
    exact hstart h
  | _ => trivial

/-! ## A worker moves -/

section Worker

variable {s₁ : ProducerGroup N E} {pc pc' : ProducerPc E}

theorem recordWorkerFailure_eq (s : ProducerGroup N E) (failure : E) :
    s.recordWorkerFailure failure =
      { s with workerFailure := some (s.workerFailure.getD failure) } := by
  unfold recordWorkerFailure
  cases h : s.workerFailure with
  | none => rfl
  | some first =>
    dsimp only [Option.getD_some]
    rw [← h]

@[simp] theorem afterStart_arrived (canSubmit : Bool) :
    (s.afterStart canSubmit).arrived = true := by
  unfold afterStart
  split_ifs <;> rfl

@[simp] theorem afterStart_done (canSubmit : Bool) : (s.afterStart canSubmit).done = false := by
  unfold afterStart
  split_ifs <;> rfl

@[simp] theorem afterRelease_arrived : s.afterRelease.arrived = true := by
  unfold afterRelease
  split_ifs <;> rfl

@[simp] theorem afterRelease_done : s.afterRelease.done = true := by
  unfold afterRelease
  split_ifs <;> rfl

/-- A worker does not touch what the caller writes. -/
structure SameMembers (s s₁ : ProducerGroup N E) : Prop where
  workers : s₁.workers = s.workers
  launched : s₁.launched = s.launched
  joined : s₁.joined = s.joined
  startWorkers : s₁.startWorkers = s.startWorkers
  releaseWorkers : s₁.releaseWorkers = s.releaseWorkers
  timing : s₁.timing = s.timing
  now : s₁.now = s.now
  starting : s₁.caller.starting = s.caller.starting
  releasing : s₁.caller.releasing = s.caller.releasing

theorem notifyReady_starting (pc : StartPc E) :
    pc.notifyReady.starting = pc.starting ∧ pc.notifyReady.releasing = pc.releasing := by
  cases pc <;> exact ⟨rfl, rfl⟩

theorem notifyCompletion_starting (pc : StartPc E) :
    pc.notifyCompletion.starting = pc.starting ∧ pc.notifyCompletion.releasing = pc.releasing := by
  cases pc <;> exact ⟨rfl, rfl⟩

theorem WorkerMove.same (h : WorkerMove M s i pc pc' s₁ es) : SameMembers s s₁ := by
  cases h with
  | recordPrepare failure | recordSubmit failure =>
    rw [recordWorkerFailure_eq]
    exact ⟨rfl, rfl, rfl, rfl, rfl, rfl, rfl, rfl, rfl⟩
  | arrive canSubmit =>
    obtain ⟨hstarting, hreleasing⟩ := notifyReady_starting s.caller
    exact ⟨rfl, rfl, rfl, rfl, rfl, rfl, rfl, hstarting, hreleasing⟩
  | notifyCompletion =>
    obtain ⟨hstarting, hreleasing⟩ := notifyCompletion_starting s.caller
    exact ⟨rfl, rfl, rfl, rfl, rfl, rfl, rfl, hstarting, hreleasing⟩
  | _ => exact ⟨rfl, rfl, rfl, rfl, rfl, rfl, rfl, rfl, rfl⟩

theorem WorkerMove.ready (h : WorkerMove M s i pc pc' s₁ es) :
    s₁.readyWorkers + pc.arrived.toNat = s.readyWorkers + pc'.arrived.toNat := by
  cases h with
  | recordPrepare failure | recordSubmit failure =>
    rw [recordWorkerFailure_eq]
    rfl
  | arrive canSubmit | awake canSubmit =>
    rw [afterStart_arrived]
    rfl
  | awaitRelease =>
    rw [afterRelease_arrived]
    rfl
  | _ => rfl

theorem WorkerMove.completed (h : WorkerMove M s i pc pc' s₁ es) :
    s₁.completedWorkers + pc.done.toNat = s.completedWorkers + pc'.done.toNat := by
  cases h with
  | recordPrepare failure | recordSubmit failure =>
    rw [recordWorkerFailure_eq]
    rfl
  | arrive canSubmit | awake canSubmit =>
    rw [afterStart_done]
    rfl
  | awaitRelease =>
    rw [afterRelease_done]
    rfl
  | _ => rfl

/-- After its completion a worker fails no more. -/
theorem WorkerMove.done (h : WorkerMove M s i pc pc' s₁ es) (hdone : pc.done = true) :
    pc'.done = true ∧ s₁.workerFailure = s.workerFailure := by
  cases h with
  | complete | notifyCompletion | wakeRelease => exact ⟨rfl, rfl⟩
  | awaitRelease => exact ⟨afterRelease_done, rfl⟩
  | _ => cases hdone

/-- Only threads that have been created and have not exited move. -/
theorem WorkerMove.alive (h : WorkerMove M s i pc pc' s₁ es) :
    pc ≠ .unlaunched ∧ pc ≠ .exited ∧ pc' ≠ .unlaunched := by
  cases h with
  | arrive canSubmit | awake canSubmit =>
    refine ⟨nofun, nofun, fun heq => ?_⟩
    have harrived := s.afterStart_arrived canSubmit
    rw [heq] at harrived
    cases harrived
  | awaitRelease =>
    refine ⟨nofun, nofun, fun heq => ?_⟩
    have harrived := s.afterRelease_arrived
    rw [heq] at harrived
    cases harrived
  | _ => exact ⟨nofun, nofun, nofun⟩

theorem workerOk_afterStart (canSubmit : Bool) : s.WorkerOk (s.afterStart canSubmit) := by
  unfold afterStart
  cases hstart : s.startWorkers with
  | false => exact .inl hstart
  | true => cases canSubmit <;> exact hstart

theorem workerOk_afterRelease (h : s.startWorkers = true) : s.WorkerOk s.afterRelease := by
  unfold afterRelease
  cases hrelease : s.releaseWorkers with
  | false => exact ⟨h, .inl hrelease⟩
  | true => exact ⟨h, hrelease⟩

theorem WorkerMove.workerOk (h : WorkerMove M s i pc pc' s₁ es) (hok : s.WorkerOk pc) :
    s.WorkerOk pc' := by
  cases h with
  | arrive canSubmit | awake canSubmit => exact workerOk_afterStart canSubmit
  | awaitRelease => exact workerOk_afterRelease hok
  | submit | submitDone | submitted | submitFailed | recordSubmit | complete
  | notifyCompletion => exact hok
  | wakeRelease => exact hok.1
  | _ => trivial

theorem CallerOk.notifyReady {caller : StartPc E} (h : s.CallerOk caller) :
    s.CallerOk caller.notifyReady := by
  cases caller with
  | asleepReady => exact ⟨h.1, h.2.1, h.2.2.1⟩
  | _ => exact h

theorem CallerOk.notifyCompletion {caller : StartPc E} (h : s.CallerOk caller) :
    s.CallerOk caller.notifyCompletion := by
  cases caller with
  | asleepCompletion => exact ⟨h.1, h.2.1, h.2.2.1⟩
  | _ => exact h

theorem notifyReady_ne (caller : StartPc E) : caller.notifyReady ≠ .asleepReady := by
  cases caller <;> exact nofun

theorem notifyCompletion_ne (caller : StartPc E) :
    caller.notifyCompletion ≠ .asleepCompletion := by
  cases caller <;> exact nofun

theorem WorkerMove.callerOk (h : WorkerMove M s i pc pc' s₁ es) (hok : s.CallerOk s.caller) :
    s.CallerOk s₁.caller := by
  cases h with
  | recordPrepare failure | recordSubmit failure =>
    rw [recordWorkerFailure_eq]
    exact hok
  | arrive canSubmit => exact hok.notifyReady
  | notifyCompletion => exact hok.notifyCompletion
  | _ => exact hok

/-- A caller that still sleeps has not been told of an arrival. -/
theorem WorkerMove.asleepReady (h : WorkerMove M s i pc pc' s₁ es)
    (hasleep : s₁.caller = .asleepReady) : s₁.readyWorkers = s.readyWorkers := by
  cases h with
  | recordPrepare failure | recordSubmit failure => rw [recordWorkerFailure_eq]
  | arrive canSubmit => exact absurd hasleep (notifyReady_ne s.caller)
  | _ => rfl

/-- If the caller still sleeps after the last completion, a worker is about to tell it. -/
theorem WorkerMove.asleepCompletion (h : WorkerMove M s i pc pc' s₁ es) (hpc : s.workers i = pc)
    (hok : s.CallerOk s.caller) (hasleep : s₁.caller = .asleepCompletion)
    (hcompleted : s₁.completedWorkers = N) :
    ∃ j, (s₁.goto i pc').workers j = .notifyCompletion := by
  have hstays : s.caller = .asleepCompletion → s.completedWorkers = N →
      pc ≠ .notifyCompletion → ∃ j, (s₁.goto i pc').workers j = .notifyCompletion := by
    intro hcaller hsame hne
    rw [hcaller] at hok
    obtain ⟨j, hj⟩ := hok.2.2.2 hsame
    have hji : j ≠ i := by
      rintro rfl
      exact hne (hpc.symm.trans hj)
    refine ⟨j, ?_⟩
    rw [goto_workers, Function.update_of_ne hji, h.same.workers, hj]
  cases h with
  | recordPrepare failure | recordSubmit failure =>
    rw [recordWorkerFailure_eq] at hasleep hcompleted
    exact hstays hasleep hcompleted nofun
  | arrive canSubmit =>
    refine hstays ?_ hcompleted nofun
    cases hcaller : s.caller <;> rw [hcaller] at hasleep <;> first | rfl | cases hasleep
  | complete => exact ⟨i, Function.update_self _ _ _⟩
  | notifyCompletion => exact absurd hasleep (notifyCompletion_ne s.caller)
  | _ => exact hstays hasleep hcompleted nofun

/-- What the caller relies on survives as long as its wakeup and its counters do. -/
theorem CallerOk.moves {caller : StartPc E} (hok : s.CallerOk caller) (hsame : SameMembers s s₁)
    (hdone : (s.workers i).done = true →
      pc'.done = true ∧ s₁.workerFailure = s.workerFailure)
    (hready : caller = .asleepReady → s₁.readyWorkers = s.readyWorkers)
    (hcompleted : caller = .asleepCompletion → s₁.completedWorkers = N →
      ∃ j, (s₁.goto i pc').workers j = .notifyCompletion) :
    (s₁.goto i pc').CallerOk caller := by
  have hall : s.AllDone → (s₁.goto i pc').AllDone := by
    intro hdone' j
    rw [goto_workers]
    by_cases hj : j = i
    · subst hj
      rw [Function.update_self]
      exact (hdone (hdone' j)).1
    · rw [Function.update_of_ne hj, hsame.workers]
      exact hdone' j
  have hjoined : s.AllJoined → (s₁.goto i pc').AllJoined := by
    intro hjoined j hj
    change s₁.joined j = true
    rw [hsame.joined]
    exact hjoined j (hsame.launched ▸ hj)
  have hlaunched : (s₁.goto i pc').launched = s.launched := hsame.launched
  have hstart : (s₁.goto i pc').startWorkers = s.startWorkers := hsame.startWorkers
  have hrelease : (s₁.goto i pc').releaseWorkers = s.releaseWorkers := hsame.releaseWorkers
  have hjoin : (s₁.goto i pc').joined = s.joined := hsame.joined
  cases caller with
  | asleepReady =>
    obtain ⟨h₁, h₂, h₃, h₄⟩ := hok
    exact ⟨hlaunched.trans h₁, hstart.trans h₂, hrelease.trans h₃, by rwa [← hready rfl] at h₄⟩
  | asleepCompletion =>
    obtain ⟨h₁, h₂, h₃, -⟩ := hok
    exact ⟨hlaunched.trans h₁, hstart.trans h₂, hrelease.trans h₃, hcompleted rfl⟩
  | rethrow =>
    obtain ⟨h₁, h₂, h₃, h₄⟩ := hok
    exact ⟨hlaunched.trans h₁, hstart.trans h₂, hrelease.trans h₃, hall h₄⟩
  | returned =>
    obtain ⟨h₁, h₂, h₃, h₄, h₅⟩ := hok
    exact ⟨hlaunched.trans h₁, hstart.trans h₂, hrelease.trans h₃, hall h₄,
      (hdone (h₄ i)).2.trans h₅⟩
  | releaseAndJoin failure destructor pc =>
    cases pc with
    | release | notifyRelease =>
      obtain ⟨h₁, h₂, h₃⟩ := hok
      exact ⟨hstart.trans h₁, hrelease.trans h₂, fun h => hjoined (h₃ h)⟩
    | join next =>
      obtain ⟨h₁, h₂, h₃, h₄⟩ := hok
      refine ⟨hstart.trans h₁, hrelease.trans h₂, fun h => hjoined (h₃ h), ?_⟩
      rwa [hlaunched, hjoin]
  | threw failure => exact hjoined hok
  | _ => simpa only [CallerOk, hlaunched, hstart, hrelease] using hok

theorem SameMembers.workerOk (h : SameMembers s s₁) {x : ProducerPc E} (hok : s.WorkerOk x) :
    (s₁.goto i pc').WorkerOk x := by
  refine hok.mono h.startWorkers.trans h.releaseWorkers.trans (fun _ _ hasleep => ?_)
    fun _ hasleep => ?_
  · exact hasleep.imp h.startWorkers.trans h.starting.trans
  · exact hasleep.imp h.releaseWorkers.trans h.releasing.trans

theorem Barrier.step_worker (h : Barrier s) (hmove : WorkerMove M s i (s.workers i) pc' s₁ es) :
    Barrier (s₁.goto i pc') := by
  have hsame := hmove.same
  obtain ⟨hlaunched, hexited, hstays⟩ := hmove.alive
  constructor
  case unlaunched =>
    intro j
    rw [goto_workers, hsame.workers]
    change Function.update s.workers i pc' j = .unlaunched ↔ s₁.launched ≤ j
    rw [hsame.launched]
    by_cases hji : j = i
    · subst hji
      rw [Function.update_self]
      exact iff_of_false hstays fun hle => hlaunched ((h.unlaunched j).mpr hle)
    · rw [Function.update_of_ne hji, h.unlaunched]
  case ready =>
    have hcensus := census_update ProducerPc.arrived s.workers i pc'
    have hready := hmove.ready
    have hbefore := h.ready
    rw [goto_workers, hsame.workers]
    change s₁.readyWorkers = _
    omega
  case completed =>
    have hcensus := census_update ProducerPc.done s.workers i pc'
    have hcompleted := hmove.completed
    have hbefore := h.completed
    rw [goto_workers, hsame.workers]
    change s₁.completedWorkers = _
    omega
  case joined =>
    intro j hj
    have hbefore := h.joined j ((congrFun hsame.joined j).symm.trans hj)
    have hji : j ≠ i := by
      rintro rfl
      exact hexited hbefore
    rw [goto_workers, hsame.workers, Function.update_of_ne hji, hbefore]
  case workers =>
    intro j
    rw [goto_workers, hsame.workers]
    by_cases hji : j = i
    · subst hji
      rw [Function.update_self]
      exact hsame.workerOk (hmove.workerOk (h.workers j))
    · rw [Function.update_of_ne hji]
      exact hsame.workerOk (h.workers j)
  case caller =>
    exact (hmove.callerOk h.caller).moves hsame hmove.done hmove.asleepReady
      (hmove.asleepCompletion rfl h.caller)

end Worker

/-! ## The caller moves -/

section Caller

@[simp] theorem notifyStart_arrived (pc : ProducerPc E) : pc.notifyStart.arrived = pc.arrived := by
  cases pc <;> rfl

@[simp] theorem notifyStart_done (pc : ProducerPc E) : pc.notifyStart.done = pc.done := by
  cases pc <;> rfl

@[simp] theorem notifyRelease_arrived (pc : ProducerPc E) :
    pc.notifyRelease.arrived = pc.arrived := by
  cases pc <;> rfl

@[simp] theorem notifyRelease_done (pc : ProducerPc E) : pc.notifyRelease.done = pc.done := by
  cases pc <;> rfl

theorem notifyStart_eq {pc : ProducerPc E} (x : ProducerPc E)
    (hx : ∀ canSubmit, x ≠ .asleepStart canSubmit)
    (hx' : ∀ canSubmit, x ≠ .awakeStart canSubmit) : pc.notifyStart = x ↔ pc = x := by
  cases pc with
  | asleepStart canSubmit =>
    exact iff_of_false (fun h => hx' canSubmit h.symm) fun h => hx canSubmit h.symm
  | _ => exact Iff.rfl

theorem notifyRelease_eq {pc : ProducerPc E} (x : ProducerPc E) (hx : x ≠ .asleepRelease)
    (hx' : x ≠ .awaitRelease) : pc.notifyRelease = x ↔ pc = x := by
  cases pc with
  | asleepRelease => exact iff_of_false (fun h => hx' h.symm) fun h => hx h.symm
  | _ => exact Iff.rfl

variable {pc : StartPc E}

theorem CallerMove.unlaunched (h : CallerMove s pc t es)
    (hs : ∀ i, s.workers i = .unlaunched ↔ s.launched ≤ i) :
    ∀ i, t.workers i = .unlaunched ↔ t.launched ≤ i := by
  intro i
  cases h with
  | launch hless =>
    by_cases hi : i = ⟨s.launched, hless⟩
    · subst hi
      rw [emplaceBack_self]
      exact iff_of_false nofun (Nat.not_le.mpr (Nat.lt_succ_self s.launched))
    · have hne : (i : ℕ) ≠ s.launched := fun heq => hi (Fin.ext heq)
      rw [s.emplaceBack_of_ne hless hi, hs]
      change s.launched ≤ i ↔ s.launched + 1 ≤ i
      omega
  | abortNotify | notifyStart => exact (notifyStart_eq .unlaunched nofun nofun).trans (hs i)
  | notifyRelease => exact (notifyRelease_eq .unlaunched nofun nofun).trans (hs i)
  | _ => exact hs i

/-- The caller moves no worker past a count. -/
theorem CallerMove.census_eq (h : CallerMove s pc t es)
    (hs : ∀ i, s.workers i = .unlaunched ↔ s.launched ≤ i) :
    census ProducerPc.arrived t.workers = census ProducerPc.arrived s.workers ∧
      census ProducerPc.done t.workers = census ProducerPc.done s.workers := by
  cases h with
  | launch hless =>
    have hnew : s.workers ⟨s.launched, hless⟩ = .unlaunched := (hs _).mpr le_rfl
    have harrived := census_update ProducerPc.arrived s.workers ⟨s.launched, hless⟩ .prepare
    have hdone := census_update ProducerPc.done s.workers ⟨s.launched, hless⟩ .prepare
    rw [hnew] at harrived hdone
    exact ⟨Nat.add_right_cancel harrived, Nat.add_right_cancel hdone⟩
  | abortNotify | notifyStart =>
    exact ⟨census_congr fun i => notifyStart_arrived _, census_congr fun i => notifyStart_done _⟩
  | notifyRelease =>
    exact ⟨census_congr fun i => notifyRelease_arrived _,
      census_congr fun i => notifyRelease_done _⟩
  | _ => exact ⟨rfl, rfl⟩

theorem CallerMove.counters (h : CallerMove s pc t es) :
    t.readyWorkers = s.readyWorkers ∧ t.completedWorkers = s.completedWorkers := by
  cases h <;> exact ⟨rfl, rfl⟩

theorem CallerMove.joined (h : CallerMove s pc t es)
    (hs : ∀ i, s.joined i = true → s.workers i = .exited)
    (hnew : ∀ i, s.workers i = .unlaunched ↔ s.launched ≤ i) :
    ∀ i, t.joined i = true → t.workers i = .exited := by
  intro i hi
  cases h with
  | launch hless =>
    have hne : i ≠ ⟨s.launched, hless⟩ := by
      rintro rfl
      have hunlaunched := (hnew ⟨s.launched, hless⟩).mpr le_rfl
      rw [hs _ hi] at hunlaunched
      cases hunlaunched
    rw [s.emplaceBack_of_ne hless hne]
    exact hs i hi
  | abortNotify | notifyStart => exact (notifyStart_eq .exited nofun nofun).mpr (hs i hi)
  | notifyRelease => exact ReleaseMove.notifyRelease.exited hs hi
  | join failure destructor next hless hjoined hexited =>
    exact (ReleaseMove.join next hless hjoined hexited).exited hs hi
  | _ => exact hs i hi

theorem WorkerOk.notifyStart {x : ProducerPc E} (h : s.WorkerOk x) : s.WorkerOk x.notifyStart := by
  cases x with
  | asleepStart canSubmit => trivial
  | _ => exact h

theorem WorkerOk.notifyRelease {x : ProducerPc E} (h : s.WorkerOk x) :
    s.WorkerOk x.notifyRelease := by
  cases x with
  | asleepRelease => exact h.1
  | _ => exact h

theorem notifyStart_ne {x : ProducerPc E} (canSubmit : Bool) :
    x.notifyStart ≠ .asleepStart canSubmit := by
  cases x <;> exact nofun

theorem notifyRelease_ne {x : ProducerPc E} : x.notifyRelease ≠ .asleepRelease := by
  cases x <;> exact nofun

theorem WorkerOk.quiet {x : ProducerPc E} (h : s.WorkerOk x)
    (hstart : t.startWorkers = s.startWorkers) (hrelease : t.releaseWorkers = s.releaseWorkers)
    (hs : s.caller.starting = false) (hr : s.caller.releasing = false) : t.WorkerOk x := by
  refine h.mono hstart.trans hrelease.trans (fun _ _ hasleep => ?_) fun _ hasleep => ?_
  · exact .inl (hstart.trans (hasleep.resolve_right (by simp [hs])))
  · exact .inl (hrelease.trans (hasleep.resolve_right (by simp [hr])))

/-- Whoever sleeps is told at the caller's next step when a flag is set. -/
theorem CallerMove.workerOk (h : CallerMove s pc t es) (hpc : s.caller = pc)
    (hs : ∀ i, s.WorkerOk (s.workers i)) : ∀ i, t.WorkerOk (t.workers i) := by
  intro i
  have hi := hs i
  cases h with
  | launch hless =>
    by_cases hnew : i = ⟨s.launched, hless⟩
    · subst hnew
      rw [emplaceBack_self]
      trivial
    · rw [s.emplaceBack_of_ne hless hnew]
      exact hi.quiet rfl rfl (by rw [hpc]; rfl) (by rw [hpc]; rfl)
  | abortStart | ready =>
    refine hi.mono (fun _ => rfl) id (fun _ _ _ => .inr rfl) fun _ hasleep => .inl ?_
    exact hasleep.resolve_right (by simp [hpc, StartPc.releasing])
  | abortNotify | notifyStart =>
    refine hi.notifyStart.mono id id (fun canSubmit heq => absurd heq (notifyStart_ne canSubmit))
      fun _ hasleep => .inl ?_
    exact hasleep.resolve_right (by simp [hpc, StartPc.releasing])
  | release =>
    refine hi.mono id (fun _ => rfl) (fun _ _ hasleep => .inl ?_) fun _ _ => .inr rfl
    exact hasleep.resolve_right (by simp [hpc, StartPc.starting])
  | notifyRelease =>
    refine hi.notifyRelease.mono id id (fun _ _ hasleep => .inl ?_)
      fun heq => absurd heq notifyRelease_ne
    exact hasleep.resolve_right (by simp [hpc, StartPc.starting])
  | _ => exact hi.quiet rfl rfl (by rw [hpc]; rfl) (by rw [hpc]; rfl)

/-- The caller's own step leads to what it relies on next. -/
theorem CallerMove.callerOk (h : CallerMove s pc t es) (hpc : s.caller = pc)
    (hok : s.CallerOk pc) (hcompleted : s.completedWorkers = N → s.AllDone) :
    t.CallerOk t.caller := by
  cases h with
  | construct => exact hok.2
  | constructFailed failure => exact fun i hi => absurd hi (by simp [hok.1])
  | launch hless =>
    change (s.emplaceBack hless).CallerOk s.caller
    rw [hpc]
    exact hok
  | launchFailed failure hless => exact ⟨hless, hok⟩
  | launchDone hall => exact ⟨hall, hok⟩
  | abortStart failure => exact ⟨hok.1, rfl, hok.2.2⟩
  | abortNotify failure => exact ⟨hok.2.1, hok.2.2, nofun⟩
  | ready hready => exact ⟨hok.1, rfl, hok.2.2⟩
  | readySleep hready => exact ⟨hok.1, hok.2.1, hok.2.2, hready⟩
  | notifyStart => exact hok
  | completed hall => exact ⟨hok.1, hok.2.1, hok.2.2, hcompleted hall⟩
  | completedSleep hmore => exact ⟨hok.1, hok.2.1, hok.2.2, fun hall => absurd hall hmore⟩
  | noFailure hnone => exact ⟨hok.1, hok.2.1, hok.2.2.1, hok.2.2.2, hnone⟩
  | rethrow hsome => exact ⟨hok.2.1, hok.2.2.1, nofun⟩
  | release failure destructor => exact ⟨hok.1, rfl, hok.2.2⟩
  | notifyRelease failure destructor => exact ⟨hok.1, hok.2.1, hok.2.2, fun i hi => by omega⟩
  | skip failure destructor next hless hjoined =>
    have hmove := ReleaseMove.skip next hless hjoined
    exact ⟨hok.1, hok.2.1, hok.2.2.1, fun i hi hlaunched => hmove.before hok.2.2.2 hi hlaunched⟩
  | join failure destructor next hless hjoined hexited =>
    have hmove := ReleaseMove.join next hless hjoined hexited
    exact ⟨hok.1, hok.2.1, fun h i hi => hmove.keeps (hok.2.2.1 h i hi),
      fun i hi hlaunched => hmove.before hok.2.2.2 hi hlaunched⟩
  | destroy failure hlast =>
    exact ⟨hok.1, hok.2.1, fun _ i hi => hok.2.2.2 i (hi.trans_le hlast) hi⟩
  | throw failure hlast => exact hok.2.2.1 rfl
  | wakeReady | wakeCompletion => exact ⟨hok.1, hok.2.1, hok.2.2.1⟩

theorem Barrier.allDone (h : Barrier s) (hcompleted : s.completedWorkers = N) : s.AllDone := by
  rw [h.completed] at hcompleted
  exact census_eq_card.mp (hcompleted.trans (Fintype.card_fin N).symm)

theorem Barrier.step_caller (h : Barrier s) (hmove : CallerMove s s.caller t es) : Barrier t where
  unlaunched := hmove.unlaunched h.unlaunched
  ready := by rw [hmove.counters.1, (hmove.census_eq h.unlaunched).1, h.ready]
  completed := by rw [hmove.counters.2, (hmove.census_eq h.unlaunched).2, h.completed]
  joined := hmove.joined h.joined h.unlaunched
  workers := hmove.workerOk rfl h.workers
  caller := hmove.callerOk rfl h.caller h.allDone

end Caller

/-! ## Every reachable state -/

theorem Barrier.step (h : Barrier s) {a : GroupAction N E}
    (hstep : (groupSystem N M E).step s a = some (t, es)) : Barrier t := by
  rcases step_cases hstep with ⟨i, pc, s₁, hmove, rfl⟩ | hmove | ⟨elapsed, rfl, -⟩
  · exact h.step_worker hmove
  · exact h.step_caller hmove
  · exact ⟨h.unlaunched, h.ready, h.completed, h.joined, h.workers, h.caller⟩

theorem reaches_barrier (h : (groupSystem N M E).Reaches .initial es s) : Barrier s :=
  h.stable barrier_initial fun _ _ _ _ hi _ hs => hi.step hs

/-! ## Nobody is left behind -/

/-- Some thread can take a step of its own. -/
def Progresses (M : ℕ) (s : ProducerGroup N E) : Prop :=
  ∃ a : GroupAction N E, a.ofThread = true ∧ ((groupSystem N M E).step s a).isSome = true

theorem progresses_of_runnable (h : (s.workers i).runnable = true) : s.Progresses M := by
  refine ⟨.worker i none, rfl, ?_⟩
  change (s.workerLoop M i none).isSome = true
  unfold workerLoop
  cases hpc : s.workers i with
  | unlaunched | asleepStart | asleepRelease | exited =>
    rw [hpc] at h
    cases h
  | submitNext k =>
    dsimp only
    split_ifs <;> rfl
  | _ => rfl

theorem progresses_of_caller (h : (s.startStep none).isSome = true) : s.Progresses M :=
  ⟨.caller none, rfl, h⟩

/-- With all threads launched, a worker that has not arrived is not blocked. -/
theorem Barrier.exists_arriving (h : Barrier s) (hlaunched : s.launched = N)
    (hready : s.readyWorkers ≠ N) : ∃ i, (s.workers i).runnable = true := by
  have hmissing : ¬∀ i, (s.workers i).arrived = true := by
    intro hall
    rw [h.ready] at hready
    exact hready ((census_eq_card.mpr hall).trans (Fintype.card_fin N))
  push Not at hmissing
  obtain ⟨i, hi⟩ := hmissing
  have hnew : s.workers i ≠ .unlaunched := fun heq => by
    have hle := (h.unlaunched i).mp heq
    omega
  refine ⟨i, ?_⟩
  cases hpc : s.workers i with
  | unlaunched => exact absurd hpc hnew
  | prepare | recordPrepare | arrive => rfl
  | _ =>
    rw [hpc] at hi
    exact absurd rfl hi

/-- After the start a worker that has not completed is not blocked. -/
theorem Barrier.runnable_of_not_done (h : Barrier s) (hi : i < s.launched)
    (hstart : s.startWorkers = true) (htold : s.caller.starting = false)
    (hdone : (s.workers i).done = false) : (s.workers i).runnable = true := by
  have hok := h.workers i
  cases hpc : s.workers i with
  | unlaunched =>
    have hle := (h.unlaunched i).mp hpc
    omega
  | asleepStart canSubmit =>
    rw [hpc] at hok
    rcases hok with hfalse | htrue
    · rw [hstart] at hfalse
      cases hfalse
    · rw [htold] at htrue
      cases htrue
  | asleepRelease | exited =>
    rw [hpc] at hdone
    cases hdone
  | _ => rfl

/-- After the release a worker that has not exited is not blocked. -/
theorem Barrier.runnable_of_not_exited (h : Barrier s) (hi : i < s.launched)
    (hstart : s.startWorkers = true) (hrelease : s.releaseWorkers = true)
    (htold : s.caller.starting = false) (htold' : s.caller.releasing = false)
    (hexited : s.workers i ≠ .exited) : (s.workers i).runnable = true := by
  cases hdone : (s.workers i).done with
  | false => exact h.runnable_of_not_done hi hstart htold hdone
  | true =>
    have hok := h.workers i
    cases hpc : s.workers i with
    | asleepRelease =>
      rw [hpc] at hok
      rcases hok.2 with hfalse | htrue
      · rw [hrelease] at hfalse
        cases hfalse
      · rw [htold'] at htrue
        cases htrue
    | exited => exact absurd hpc hexited
    | notifyCompletion | awaitRelease => rfl
    | _ =>
      rw [hpc] at hdone
      cases hdone

/-- As long as `start` has neither returned nor thrown, some thread can go on. -/
theorem Barrier.progresses (h : Barrier s) (hfinished : ¬s.Finished) : s.Progresses M := by
  have hok := h.caller
  cases hpc : s.caller with
  | asleepReady =>
    rw [hpc] at hok
    obtain ⟨i, hi⟩ := h.exists_arriving hok.1 hok.2.2.2
    exact progresses_of_runnable hi
  | asleepCompletion =>
    rw [hpc] at hok
    by_cases hcompleted : s.completedWorkers = N
    · obtain ⟨i, hi⟩ := hok.2.2.2 hcompleted
      exact progresses_of_runnable (by rw [hi]; rfl)
    · have hmissing : ¬s.AllDone := by
        intro hall
        rw [h.completed] at hcompleted
        exact hcompleted ((census_eq_card.mpr hall).trans (Fintype.card_fin N))
      unfold AllDone at hmissing
      push Not at hmissing
      obtain ⟨i, hi⟩ := hmissing
      have hless : (i : ℕ) < s.launched := by
        rw [hok.1]
        exact i.isLt
      exact progresses_of_runnable (h.runnable_of_not_done hless hok.2.1 (by rw [hpc]; rfl)
        (Bool.eq_false_iff.mpr hi))
  | releaseAndJoin failure destructor pc =>
    rcases s.releaseAndJoin_blocked pc with hsome | ⟨i, hnext, hless, hexited⟩
    · apply progresses_of_caller
      unfold startStep
      rw [hpc]
      exact Option.isSome_map.trans hsome
    · subst hnext
      rw [hpc] at hok
      exact progresses_of_runnable (h.runnable_of_not_exited hless hok.1 hok.2.1
        (by rw [hpc]; rfl) (by rw [hpc]; rfl) hexited)
  | returned | threw => exact absurd (by unfold Finished; rw [hpc]; trivial) hfinished
  | launch | awaitReady | awaitCompletion =>
    refine progresses_of_caller ?_
    unfold startStep
    simp only [hpc]
    split_ifs <;> rfl
  | rethrow =>
    refine progresses_of_caller ?_
    unfold startStep
    cases s.workerFailure <;> simp only [hpc] <;> rfl
  | _ =>
    refine progresses_of_caller ?_
    unfold startStep
    simp only [hpc]
    rfl

end ProducerGroup

end CppLogger
