import CppLogger.Benchmark.ProducerRuns

/-!
# The protocol of `start`

Every step of a thread uses up some of what is left to do, and only a wait that ends without
a notification adds to it. As there is always a thread that can go on, `start` comes to its
end, and the events tell how.
-/

namespace CppLogger

variable {N M : ℕ} {E : Type*}

/-! ## What is left to do -/

/-- The steps that a worker has left at most, with one more for each thread it may wake. -/
def ProducerPc.remaining (M : ℕ) : ProducerPc E → ℕ
  | .unlaunched | .exited => 0
  | .prepare => 2 * M + 12
  | .recordPrepare _ => 2 * M + 11
  | .arrive _ => 2 * M + 10
  | .awakeStart _ => 2 * M + 9
  | .asleepStart _ => 2 * M + 8
  | .submitNext k => 2 * (M - k) + 7
  | .submitting k => 2 * (M - k) + 6
  | .recordSubmit _ => 6
  | .complete => 5
  | .notifyCompletion => 4
  | .awaitRelease => 2
  | .asleepRelease => 1

/-- The steps that `releaseAndJoin` has left at most, with one more for each worker it may wake. -/
def ReleasePc.remaining (N : ℕ) : ReleasePc → ℕ
  | .release => 2 * N + 3
  | .notifyRelease => 2 * N + 2
  | .join next => N - next + 1

/-- The steps that the caller has left at most, with those of the threads it may create. -/
def StartPc.remaining (N M launched : ℕ) : StartPc E → ℕ
  | .construct => 5 * N + 14 + (N - launched) * (2 * M + 13)
  | .launch => 5 * N + 13 + (N - launched) * (2 * M + 13)
  | .awaitReady => 5 * N + 12
  | .asleepReady => 5 * N + 11
  | .notifyStart => 5 * N + 10
  | .awaitCompletion => 4 * N + 9
  | .asleepCompletion => 4 * N + 8
  | .rethrow => 4 * N + 7
  | .abortStart _ => 5 * N + 8
  | .abortNotify _ => 5 * N + 7
  | .releaseAndJoin _ false pc => 2 * N + 3 + pc.remaining N
  | .releaseAndJoin _ true pc => pc.remaining N
  | .returned | .threw _ => 0

/-- The caller waits for a notification. -/
def StartPc.asleep : StartPc E → Bool
  | .asleepReady | .asleepCompletion => true
  | _ => false

/-- A spurious wakeup. -/
def GroupAction.wakeup : GroupAction N E → Bool
  | .wakeCaller | .wakeWorker _ => true
  | _ => false

namespace ProducerGroup

def remaining (M : ℕ) (s : ProducerGroup N E) : ℕ :=
  s.caller.remaining N M s.launched + ∑ i, (s.workers i).remaining M

variable {s t s₁ : ProducerGroup N E} {i : Fin N} {pc pc' : ProducerPc E} {caller : StartPc E}
variable {es fs : List (GroupEvent N E)}

theorem notifyReady_remaining (caller : StartPc E) (launched : ℕ) :
    caller.notifyReady.remaining N M launched ≤ caller.remaining N M launched + 1 := by
  cases caller with
  | asleepReady => exact le_rfl
  | _ => exact Nat.le_succ _

theorem notifyCompletion_remaining (caller : StartPc E) (launched : ℕ) :
    caller.notifyCompletion.remaining N M launched ≤ caller.remaining N M launched + 1 := by
  cases caller with
  | asleepCompletion => exact le_rfl
  | _ => exact Nat.le_succ _

theorem afterStart_remaining (canSubmit : Bool) :
    (s.afterStart canSubmit).remaining M ≤ 2 * M + 8 := by
  unfold afterStart
  split_ifs <;> simp only [ProducerPc.remaining] <;> omega

theorem afterRelease_remaining : s.afterRelease.remaining M ≤ 1 := by
  unfold afterRelease
  split_ifs <;> simp only [ProducerPc.remaining] <;> omega

/-- A step of a worker uses up some of what is left; waking up without a notification adds to it. -/
theorem WorkerMove.remaining (h : WorkerMove M s i pc pc' s₁ fs)
    (hok : ∀ k, pc = .submitting k → k < M) :
    s₁.caller.remaining N M s₁.launched + pc'.remaining M + pc.runnable.toNat ≤
      s.caller.remaining N M s.launched + pc.remaining M + (!pc.runnable).toNat := by
  -- Where the target depends on the state its cost is bounded first; the rest is arithmetic.
  cases h
  case' recordPrepare | recordSubmit => rw [recordWorkerFailure_eq]
  case' arrive canSubmit =>
    have hcaller := notifyReady_remaining (N := N) (M := M) s.caller s.launched
    have hstart := s.afterStart_remaining (M := M) canSubmit
    generalize (s.afterStart canSubmit).remaining M = left at hstart ⊢
  case' awake canSubmit =>
    have hstart := s.afterStart_remaining (M := M) canSubmit
    generalize (s.afterStart canSubmit).remaining M = left at hstart ⊢
  case' notifyCompletion =>
    have hcaller := notifyCompletion_remaining (N := N) (M := M) s.caller s.launched
  case' awaitRelease =>
    have hrelease := s.afterRelease_remaining (M := M)
    generalize s.afterRelease.remaining M = left at hrelease ⊢
  case' submitted k | submitFailed k _ => have hk := hok k rfl
  all_goals
    simp only [ProducerPc.remaining, ProducerPc.runnable, Bool.not_true, Bool.not_false,
      Bool.toNat_true, Bool.toNat_false]
    omega

theorem remaining_goto (h : WorkerMove M s i (s.workers i) pc' s₁ fs)
    (hok : ∀ k, s.workers i = .submitting k → k < M) :
    (s₁.goto i pc').remaining M + (s.workers i).runnable.toNat ≤
      s.remaining M + (!(s.workers i).runnable).toNat := by
  have hmove := h.remaining (N := N) hok
  have hsum := sum_update (ProducerPc.remaining M) s.workers i pc'
  unfold remaining
  rw [goto_workers, h.same.workers]
  change s₁.caller.remaining N M s₁.launched + _ + _ ≤ _
  omega

theorem notifyStart_remaining (pc : ProducerPc E) :
    pc.notifyStart.remaining M ≤ pc.remaining M + 1 := by
  cases pc with
  | asleepStart => exact le_rfl
  | _ => exact Nat.le_succ _

theorem notifyRelease_remaining (pc : ProducerPc E) :
    pc.notifyRelease.remaining M ≤ pc.remaining M + 1 := by
  cases pc with
  | asleepRelease => exact le_rfl
  | _ => exact Nat.le_succ _

/-- A notification to all wakes each worker at most once. -/
theorem sum_notified {notified : ProducerPc E → ProducerPc E}
    (hone : ∀ pc, (notified pc).remaining M ≤ pc.remaining M + 1) :
    ∑ i, (notified (s.workers i)).remaining M ≤ ∑ i, (s.workers i).remaining M + N :=
  calc ∑ i, (notified (s.workers i)).remaining M
      ≤ ∑ i, ((s.workers i).remaining M + 1) := Finset.sum_le_sum fun i _ => hone _
    _ = ∑ i, (s.workers i).remaining M + N := by simp [Finset.sum_add_distrib]

/-- A thread that is created brings what it has left to do; the caller has accounted for it. -/
theorem remaining_emplaceBack (h : s.launched < N) (hpc : s.caller = .launch) :
    (s.emplaceBack h).remaining M + 1 ≤ s.remaining M := by
  have hsum := sum_update (ProducerPc.remaining M) s.workers ⟨s.launched, h⟩ .prepare
  have hless : N - s.launched = N - (s.launched + 1) + 1 := by omega
  have hcaller : (N - s.launched) * (2 * M + 13) =
      (N - (s.launched + 1)) * (2 * M + 13) + (2 * M + 13) := by rw [hless, Nat.succ_mul]
  unfold remaining
  change s.caller.remaining N M (s.launched + 1) +
    ∑ i, (Function.update s.workers ⟨s.launched, h⟩ .prepare i).remaining M + 1 ≤ _
  rw [hpc]
  simp only [StartPc.remaining, ProducerPc.remaining] at hsum ⊢
  omega

/-- A step of `releaseAndJoin` uses up one of its own; what it wakes is accounted for. -/
theorem ReleaseMove.remaining {rpc : ReleasePc} {next : Option ReleasePc}
    (h : ReleaseMove s rpc t next fs) :
    1 + (next.elim 0 (ReleasePc.remaining N) + ∑ i, (t.workers i).remaining M) ≤
      rpc.remaining N + ∑ i, (s.workers i).remaining M := by
  cases h
  case' notifyRelease => have hsum := sum_notified (s := s) (notifyRelease_remaining (M := M))
  case' skip next _ _ | join next _ _ _ => have hnext := next.isLt
  all_goals
    simp only [Option.elim, ReleasePc.remaining]
    omega

/-- The same of a step of the caller. -/
theorem CallerMove.remaining (h : CallerMove s caller t fs) (hpc : s.caller = caller) :
    t.remaining M + (!caller.asleep).toNat ≤ s.remaining M + caller.asleep.toNat := by
  have hbefore : s.remaining M =
      caller.remaining N M s.launched + ∑ i, (s.workers i).remaining M := by
    rw [← hpc]
    rfl
  cases h
  case launch hless => exact remaining_emplaceBack hless hpc
  all_goals rw [hbefore]
  case' abortNotify | notifyStart =>
    have hsum := sum_notified (s := s) (notifyStart_remaining (M := M))
  case' notifyRelease _ destructor =>
    have hsum := sum_notified (s := s) (notifyRelease_remaining (M := M))
    cases destructor
  case' release _ destructor => cases destructor
  case' skip _ destructor next _ _ | join _ destructor next _ _ _ =>
    have hnext := next.isLt
    cases destructor
  all_goals
    simp only [ProducerGroup.remaining, StartPc.remaining, ReleasePc.remaining, StartPc.asleep,
      Bool.not_true, Bool.not_false, Bool.toNat_true, Bool.toNat_false]
    omega

/-! ## Every step -/

theorem runnable_of_workerLoop {outcome : Option E} {r : ProducerGroup N E × List (GroupEvent N E)}
    (h : s.workerLoop M i outcome = some r) : (s.workers i).runnable = true := by
  unfold workerLoop at h
  cases hpc : s.workers i with
  | unlaunched | asleepStart | asleepRelease | exited =>
    rw [hpc] at h
    cases h
  | _ => rfl

theorem awake_of_startStep {outcome : Option E} {r : ProducerGroup N E × List (GroupEvent N E)}
    (h : s.startStep outcome = some r) : s.caller.asleep = false := by
  unfold startStep at h
  cases hpc : s.caller with
  | asleepReady | asleepCompletion =>
    rw [hpc] at h
    cases h
  | _ => rfl

theorem Chronicle.submitting (h : Chronicle M s es) {k : ℕ} (hpc : s.workers i = .submitting k) :
    k < M := by
  have hsubmitted := h.submitted i
  rw [hpc] at hsubmitted
  exact hsubmitted.1

theorem remaining_step (hok : ∀ i k, s.workers i = .submitting k → k < M)
    {a : GroupAction N E} (hstep : (groupSystem N M E).step s a = some (t, fs)) :
    t.remaining M + a.ofThread.toNat ≤ s.remaining M + a.wakeup.toNat := by
  cases a with
  | caller outcome =>
    have hmove := (startStep_move hstep).remaining (M := M) rfl
    rwa [awake_of_startStep hstep] at hmove
  | worker i outcome =>
    obtain ⟨pc, s₁, hmove, rfl⟩ := workerLoop_move hstep
    have hremaining := remaining_goto hmove (hok i)
    rwa [runnable_of_workerLoop hstep] at hremaining
  | wakeCaller =>
    obtain ⟨s', hwake, heq⟩ := Option.map_eq_some_iff.mp hstep
    cases heq
    have hremaining := (wakeCaller_move hwake).remaining (M := M) rfl
    have hone := s.caller.asleep.toNat_le
    simp only [GroupAction.ofThread, GroupAction.wakeup, Bool.toNat_true, Bool.toNat_false]
    omega
  | wakeWorker i =>
    obtain ⟨s', hwake, heq⟩ := Option.map_eq_some_iff.mp hstep
    cases heq
    obtain ⟨pc, hmove, rfl⟩ := wakeWorker_move (M := M) hwake
    have hremaining := remaining_goto hmove (hok i)
    have hone := (!(s.workers i).runnable).toNat_le
    simp only [GroupAction.ofThread, GroupAction.wakeup, Bool.toNat_true, Bool.toNat_false]
    omega
  | tick elapsed =>
    cases hstep
    exact le_rfl

/-! ## Every run -/

open TransitionSystem

/-- From a reachable state the threads take a bounded number of steps, apart from those that
spurious wakeups add. -/
theorem remaining_run (h : (groupSystem N M E).Reaches .initial es s)
    {taken : List (Taken (ProducerGroup N E) (GroupAction N E) (GroupEvent N E))}
    (hrun : (groupSystem N M E).stepwise.Reaches s taken t) :
    taken.countP (·.action.ofThread) + t.remaining M ≤
      s.remaining M + taken.countP (·.action.wakeup) := by
  refine (hrun.attach (J := fun u => ∃ gs, (groupSystem N M E).Reaches .initial gs u)
    fun _ _ hrun' => ⟨_, h.trans hrun'.forgets⟩).invariant
    (I := fun taken t => taken.countP (·.action.ofThread) + t.remaining M ≤
      s.remaining M + taken.countP (·.action.wakeup)) (by simp) ?_
  rintro taken u a u' xs hbound ⟨-, gs, hreaches⟩ hstep
  obtain ⟨fs, hstep', rfl⟩ := stepwise_step hstep
  have hone := remaining_step (fun i k => (reaches_chronicle hreaches).submitting) hstep'
  have hcount : ∀ b : Bool, (if b = true then 1 else 0) = b.toNat := by decide
  simp only [List.countP_append, List.countP_singleton, hcount]
  omega

/-! ## The end -/

theorem Chronicle.submittedBy_returned (h : Chronicle M s es) (hbarrier : Barrier s)
    (hreturned : s.caller = .returned) (i : Fin N) : submittedBy i es = List.range M := by
  have hok := hbarrier.caller
  rw [hreturned] at hok
  obtain ⟨-, -, -, hdone, hnone⟩ := hok
  exact (h.submitted i).of_done (hdone i) hnone

theorem Chronicle.timely_returned (h : Chronicle M s es) (hbarrier : Barrier s)
    (hreturned : s.caller = .returned) {x : GroupEvent N E} (hx : x ∈ es) {time : ℤ}
    (htime : x.submitTime = some time) :
    s.timing.started ≤ time ∧ time ≤ s.timing.producersDone := by
  have hok := hbarrier.caller
  rw [hreturned] at hok
  obtain ⟨hall, hstart, -⟩ := hok
  exact ⟨h.since hstart hall x hx time htime, h.done (.inr hreturned) x hx time htime⟩

/-- When everybody has completed, an exception is in the slot or with the caller. -/
theorem Chronicle.not_returned (h : Chronicle M s es) (hbarrier : Barrier s) {failure : E}
    (hfailed : .failed failure ∈ es) : s.caller ≠ .returned := by
  intro hreturned
  have hok := hbarrier.caller
  rw [hreturned] at hok
  obtain ⟨-, -, -, hdone, hnone⟩ := hok
  obtain ⟨failure', ⟨i, hi | hi⟩ | hslot | hcaller⟩ := h.failed failure hfailed
  · have hi' := hdone i
    rw [hi] at hi'
    cases hi'
  · have hi' := hdone i
    rw [hi] at hi'
    cases hi'
  · rw [hnone] at hslot
    cases hslot
  · rw [hreturned] at hcaller
    cases hcaller

theorem Chronicle.joined_threw (h : Chronicle M s es) (hbarrier : Barrier s) {failure : E}
    (hthrew : s.caller = .threw failure) :
    .failed failure ∈ es ∧ ∀ i, .launched i ∈ es → .joined i ∈ es := by
  have hok := hbarrier.caller
  rw [hthrew] at hok
  refine ⟨h.thrown failure (.inr (.inr (by rw [hthrew]; rfl))), fun i hi => ?_⟩
  exact h.joined i (hok i (h.launched i hi))

theorem finished_iff :
    s.Finished ↔ s.caller = .returned ∨ ∃ failure, s.caller = .threw failure := by
  unfold Finished
  cases hpc : s.caller <;> simp

/-- `start` is never stuck and comes to its end. No worker submits before all have prepared, it
returns after all submissions, and it throws whatever was thrown, with all threads joined. -/
theorem start_protocol (h : (groupSystem N M E).Reaches .initial es s) :
    (¬s.Finished → s.Progresses M) ∧
      (∃ bound, ∀ taken t, (groupSystem N M E).stepwise.Reaches s taken t →
        taken.countP (·.action.ofThread) ≤ bound + taken.countP (·.action.wakeup)) ∧
      (s.launched = N → PreparedFirst es) ∧
      (s.caller = .returned →
        es.countP GroupEvent.ended = N * M ∧
          (∀ i, submittedBy i es = List.range M) ∧
          ∀ x ∈ es, ∀ time, x.submitTime = some time →
            s.timing.started ≤ time ∧ time ≤ s.timing.producersDone) ∧
      ((∃ failure, .failed failure ∈ es) → s.Finished → ∃ failure, s.caller = .threw failure) ∧
      ∀ failure, s.caller = .threw failure →
        .failed failure ∈ es ∧ ∀ i, .launched i ∈ es → .joined i ∈ es := by
  have hbarrier := reaches_barrier h
  have hchronicle := reaches_chronicle h
  refine ⟨hbarrier.progresses, ⟨s.remaining M, fun taken t hrun => ?_⟩, hchronicle.first,
    fun hreturned => ⟨?_, ?_, ?_⟩, ?_, fun _ hthrew => hchronicle.joined_threw hbarrier hthrew⟩
  · have hbound := remaining_run h hrun
    omega
  · simp [countP_ended, hchronicle.submittedBy_returned hbarrier hreturned]
  · exact hchronicle.submittedBy_returned hbarrier hreturned
  · exact fun x hx time htime => hchronicle.timely_returned hbarrier hreturned hx htime
  · rintro ⟨failure, hfailed⟩ hfinished
    exact (finished_iff.mp hfinished).resolve_left (hchronicle.not_returned hbarrier hfailed)

/-- Two producers submit one message each. The second one wakes up at the start before it is
notified, and the caller wakes up once more than it is. -/
def submittingSchedule : List (GroupAction 2 Unit) :=
  [.caller none, .caller none, .caller none, .caller none, .caller none,
    .worker 0 none, .worker 0 none, .caller none, .worker 1 none, .worker 1 none, .tick 5,
    .caller none, .wakeWorker 1, .worker 1 none, .caller none, .caller none, .worker 0 none,
    .worker 0 none, .tick 2, .worker 0 none, .worker 0 none, .worker 0 none, .worker 0 none,
    .caller none, .wakeCaller, .caller none, .worker 1 none, .worker 1 none, .worker 1 none,
    .worker 1 none, .worker 1 none, .caller none, .caller none]

/-- The second thread cannot be created while the first one is on its way to the start. -/
def failingSchedule : List (GroupAction 2 Unit) :=
  [.caller none, .caller none, .worker 0 none, .caller (some ()), .worker 0 none, .caller none,
    .caller none, .worker 0 none, .worker 0 none, .worker 0 none, .worker 0 none, .caller none,
    .worker 0 none, .worker 0 none, .worker 0 none, .caller none, .caller none, .caller none,
    .caller none, .caller none, .caller none, .caller none]

theorem start_protocol_two :
    (∃ es s, (groupSystem 2 1 Unit).Reaches .initial es s ∧ s.caller = .returned ∧
      s.timing = ⟨5, 7⟩ ∧ es.countP GroupEvent.ended = 2) ∧
    ∃ es s, (groupSystem 2 1 Unit).Reaches .initial es s ∧ s.caller = .threw () ∧
      .launched 0 ∈ es ∧ .joined 0 ∈ es := by
  have hreturns : (groupSystem 2 1 Unit).Reaches .initial _ _ :=
    .of_schedule submittingSchedule (by decide)
  have hthrows : (groupSystem 2 1 Unit).Reaches .initial _ _ :=
    .of_schedule failingSchedule (by decide)
  refine ⟨⟨_, _, hreturns, by decide, by decide, ?_⟩, ⟨_, _, hthrows, by decide, by decide, ?_⟩⟩
  · exact ((start_protocol hreturns).2.2.2.1 (by decide)).1
  · exact ((start_protocol hthrows).2.2.2.2.2 () (by decide)).2 0 (by decide)

end ProducerGroup

end CppLogger
