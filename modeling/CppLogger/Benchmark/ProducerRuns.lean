import CppLogger.Benchmark.StartBarrier

/-!
# What an observer of the producers sees

The state of the group determines what has been observed: who has prepared, what has been
submitted, which exceptions are under way, and when the calls of `submit_` took place.
-/

namespace CppLogger

variable {N M : ℕ} {E : Type*}

/-! ## Events -/

/-- The time of one end of a call of `submit_`. -/
def GroupEvent.submitTime : GroupEvent N E → Option ℤ
  | .submitBegan _ _ time | .submitEnded _ _ time => some time
  | _ => none

/-- The message whose submission by the worker has returned. -/
def GroupEvent.endedBy (i : Fin N) : GroupEvent N E → Option ℕ
  | .submitEnded j messageIndex _ => if j = i then some messageIndex else none
  | _ => none

/-- A submission has returned. -/
def GroupEvent.ended : GroupEvent N E → Bool
  | .submitEnded _ _ _ => true
  | _ => false

variable {es fs : List (GroupEvent N E)}

/-- All workers have prepared before any of them submits. -/
def PreparedFirst (es : List (GroupEvent N E)) : Prop :=
  ∀ es₁ i k time es₂, es = es₁ ++ .submitBegan i k time :: es₂ → ∀ j, .prepared j ∈ es₁

theorem PreparedFirst.append (h : PreparedFirst es)
    (hnew : ∀ i k time, .submitBegan i k time ∈ fs → ∀ j, .prepared j ∈ es) :
    PreparedFirst (es ++ fs) := by
  intro es₁ i k time es₂ heq j
  rcases List.append_eq_append_iff.mp heq with ⟨between, rfl, hfs⟩ | ⟨between, hes, hrest⟩
  · exact List.mem_append_left _ (hnew i k time (by simp [hfs]) j)
  · cases between with
    | nil =>
      rw [List.append_nil] at hes
      rw [← hes]
      exact hnew i k time (by rw [← List.nil_append fs, ← hrest]; exact List.mem_cons_self) j
    | cons x between =>
      obtain ⟨rfl, -⟩ := List.cons.inj hrest
      exact h es₁ i k time between hes j

theorem preparedFirst_of_no_submit (h : ∀ x ∈ es, x.submitTime = none) : PreparedFirst es := by
  intro es₁ i k time es₂ heq
  have hsubmit := h (.submitBegan i k time) (by simp [heq])
  cases hsubmit

/-- The messages whose submission by the worker has returned, in their order. -/
def submittedBy (i : Fin N) (es : List (GroupEvent N E)) : List ℕ :=
  es.filterMap (GroupEvent.endedBy i)

@[simp] theorem submittedBy_append (i : Fin N) (es fs : List (GroupEvent N E)) :
    submittedBy i (es ++ fs) = submittedBy i es ++ submittedBy i fs := List.filterMap_append

theorem countP_ended (es : List (GroupEvent N E)) :
    es.countP GroupEvent.ended = ∑ i, (submittedBy i es).length := by
  induction es with
  | nil => simp [submittedBy]
  | cons x es ih =>
    cases x with
    | submitEnded j k time =>
      have hcons : ∀ i, (submittedBy i (.submitEnded j k time :: es)).length =
          (submittedBy i es).length + if j = i then 1 else 0 := by
        intro i
        by_cases hj : j = i <;> simp [submittedBy, GroupEvent.endedBy, hj]
      rw [List.countP_cons_of_pos rfl, ih]
      simp only [hcons, Finset.sum_add_distrib, Finset.sum_ite_eq, Finset.mem_univ, if_true]
    | _ =>
      rw [List.countP_cons_of_neg (by exact Bool.false_ne_true), ih]
      rfl

/-! ## The state and the events -/

/-- The worker's call of `prepare_` has ended. -/
def ProducerPc.hasPrepared : ProducerPc E → Bool
  | .unlaunched | .prepare => false
  | _ => true

/-- The exception the caller is about to throw. -/
def StartPc.failure : StartPc E → Option E
  | .abortStart failure | .abortNotify failure | .releaseAndJoin failure _ _
  | .threw failure => some failure
  | _ => none

/-- What a worker has submitted when it is at a program point. -/
def SubmittedOk (M : ℕ) (failure : Option E) (submitted : List ℕ) : ProducerPc E → Prop
  | .submitNext k => k ≤ M ∧ submitted = List.range k
  | .submitting k => k < M ∧ submitted = List.range k
  | .recordSubmit _ => True
  | .arrive canSubmit | .asleepStart canSubmit | .awakeStart canSubmit =>
    if canSubmit then submitted = [] else failure.isSome = true
  | .complete | .notifyCompletion | .awaitRelease | .asleepRelease | .exited =>
    submitted = List.range M ∨ failure.isSome = true
  | _ => submitted = []

theorem SubmittedOk.mono {failure failure' : Option E} {submitted : List ℕ} {pc : ProducerPc E}
    (h : SubmittedOk M failure submitted pc)
    (hsome : failure.isSome = true → failure'.isSome = true) :
    SubmittedOk M failure' submitted pc := by
  cases pc with
  | arrive canSubmit | asleepStart canSubmit | awakeStart canSubmit =>
    cases canSubmit with
    | false => exact hsome h
    | true => exact h
  | complete | notifyCompletion | awaitRelease | asleepRelease | exited => exact h.imp_right hsome
  | _ => exact h

theorem SubmittedOk.of_done {failure : Option E} {ks : List ℕ} {pc : ProducerPc E}
    (h : SubmittedOk M failure ks pc) (hdone : pc.done = true) (hnone : failure = none) :
    ks = List.range M := by
  cases pc with
  | notifyCompletion | awaitRelease | asleepRelease | exited =>
    refine h.resolve_right fun hsome => ?_
    rw [hnone] at hsome
    cases hsome
  | _ => cases hdone

namespace ProducerGroup

/-- The exception is with a worker on the way to the slot, in the slot, or with the caller. -/
def Holds (s : ProducerGroup N E) (failure : E) : Prop :=
  (∃ i, s.workers i = .recordPrepare failure ∨ s.workers i = .recordSubmit failure) ∨
    s.workerFailure = some failure ∨ s.caller.failure = some failure

/-- What the state tells of the events so far. -/
structure Chronicle (M : ℕ) (s : ProducerGroup N E) (es : List (GroupEvent N E)) : Prop where
  prepared : ∀ i, (s.workers i).hasPrepared = true → .prepared i ∈ es
  launched : ∀ i : Fin N, .launched i ∈ es → (i : ℕ) < s.launched
  joined : ∀ i, s.joined i = true → .joined i ∈ es
  quiet : s.startWorkers = false → ∀ x ∈ es, x.submitTime = none
  clock : s.startWorkers = true → s.launched = N → s.started ≤ s.now
  together : s.startWorkers = true → s.launched = N → ∀ i, .prepared i ∈ es
  first : s.launched = N → PreparedFirst es
  since : s.startWorkers = true → s.launched = N →
    ∀ x ∈ es, ∀ time, x.submitTime = some time → s.started ≤ time
  past : ∀ x ∈ es, ∀ time, x.submitTime = some time → time ≤ s.now
  done : s.caller = .rethrow ∨ s.caller = .returned →
    ∀ x ∈ es, ∀ time, x.submitTime = some time → time ≤ s.producersDone
  submitted : ∀ i, SubmittedOk M s.workerFailure (submittedBy i es) (s.workers i)
  failed : ∀ failure, .failed failure ∈ es → ∃ failure', s.Holds failure'
  thrown : ∀ failure, s.Holds failure → .failed failure ∈ es

theorem chronicle_initial : Chronicle M (initial : ProducerGroup N E) [] where
  prepared i h := by cases h
  launched i h := by cases h
  joined i h := by cases h
  quiet _ x h := by cases h
  clock h := by cases h
  together h := by cases h
  first _ := preparedFirst_of_no_submit nofun
  since _ _ x h := by cases h
  past x h := by cases h
  done _ x h := by cases h
  submitted i := rfl
  failed failure h := by cases h
  thrown failure h := by
    rcases h with ⟨i, h | h⟩ | h | h <;> cases h

variable {s t s₁ : ProducerGroup N E} {i : Fin N} {pc pc' : ProducerPc E}

/-! ## What the workers add -/

section Worker

theorem WorkerMove.hasPrepared (h : WorkerMove M s i pc pc' s₁ fs) :
    pc.hasPrepared = true ∨ .prepared i ∈ fs := by
  cases h with
  | prepare | prepareFailed => exact .inr List.mem_cons_self
  | _ => exact .inl rfl

/-- Workers submit after the start, and now. -/
theorem WorkerMove.submits (h : WorkerMove M s i pc pc' s₁ fs) (hok : s.WorkerOk pc)
    {x : GroupEvent N E} (hx : x ∈ fs) {time : ℤ} (htime : x.submitTime = some time) :
    s.startWorkers = true ∧ time = s.now ∧ pc.done = false := by
  cases h with
  | submit | submitted =>
    cases List.mem_singleton.mp hx
    cases htime
    exact ⟨hok, rfl, rfl⟩
  | prepareFailed =>
    rcases List.mem_cons.mp hx with rfl | hx
    · cases htime
    · cases List.mem_singleton.mp hx
      cases htime
  | prepare | submitFailed =>
    cases List.mem_singleton.mp hx
    cases htime
  | _ => cases hx

/-- A worker sees no thread launched or joined. -/
theorem WorkerMove.noThread (h : WorkerMove M s i pc pc' s₁ fs) (j : Fin N) :
    .launched j ∉ fs := by
  cases h <;> simp

theorem WorkerMove.keepsFailure (h : WorkerMove M s i pc pc' s₁ fs) {failure : E}
    (hfailure : s.workerFailure = some failure) : s₁.workerFailure = some failure := by
  cases h with
  | recordPrepare | recordSubmit =>
    rw [recordWorkerFailure_eq, hfailure]
    rfl
  | _ => exact hfailure

theorem WorkerMove.isSome (h : WorkerMove M s i pc pc' s₁ fs)
    (hsome : s.workerFailure.isSome = true) : s₁.workerFailure.isSome = true := by
  obtain ⟨failure, hfailure⟩ := Option.isSome_iff_exists.mp hsome
  rw [h.keepsFailure hfailure]
  rfl

theorem submittedOk_afterStart {failure : Option E} {ks : List ℕ} {canSubmit : Bool}
    (h : SubmittedOk M failure ks (.awakeStart canSubmit)) :
    SubmittedOk M failure ks (s.afterStart canSubmit) := by
  unfold afterStart
  cases s.startWorkers with
  | false => exact h
  | true =>
    cases canSubmit with
    | false => exact .inr h
    | true => exact ⟨Nat.zero_le M, h⟩

theorem submittedOk_afterRelease {failure : Option E} {ks : List ℕ}
    (h : SubmittedOk M failure ks .awaitRelease) : SubmittedOk M failure ks s.afterRelease := by
  unfold afterRelease
  cases s.releaseWorkers <;> exact h

/-- A worker submits its messages one after the other, unless something has thrown. -/
theorem WorkerMove.submittedOk (h : WorkerMove M s i pc pc' s₁ fs) {ks : List ℕ}
    (hok : SubmittedOk M s.workerFailure ks pc) :
    SubmittedOk M s₁.workerFailure (ks ++ submittedBy i fs) pc' := by
  cases h with
  | recordPrepare =>
    rw [recordWorkerFailure_eq]
    exact rfl
  | recordSubmit =>
    rw [recordWorkerFailure_eq]
    exact .inr rfl
  | arrive canSubmit | awake canSubmit =>
    rw [show submittedBy i [] = [] from rfl, List.append_nil]
    exact submittedOk_afterStart hok
  | submit hk =>
    rw [show submittedBy i [.submitBegan i _ s.now] = [] from rfl, List.append_nil]
    exact ⟨hk, hok.2⟩
  | submitDone hk =>
    rw [show submittedBy i [] = [] from rfl, List.append_nil, hok.2, le_antisymm hok.1 hk]
    exact .inl rfl
  | submitted k =>
    rw [show submittedBy i [.submitEnded i k s.now] = [k] by simp [submittedBy, GroupEvent.endedBy],
      hok.2, ← List.range_succ]
    exact ⟨hok.1, rfl⟩
  | submitFailed => trivial
  | awaitRelease =>
    rw [show submittedBy i [] = [] from rfl, List.append_nil]
    exact submittedOk_afterRelease hok
  | prepare =>
    rw [show submittedBy i [.prepared i] = [] from rfl, List.append_nil]
    exact hok
  | prepareFailed failure =>
    rw [show submittedBy i [.prepared i, .failed failure] = [] from rfl, List.append_nil]
    exact hok
  | _ =>
    rw [show submittedBy i [] = [] from rfl, List.append_nil]
    exact hok

theorem submittedBy_other (h : WorkerMove M s i pc pc' s₁ fs) {j : Fin N} (hj : j ≠ i) :
    submittedBy j fs = [] := by
  cases h with
  | submitted k => simp [submittedBy, GroupEvent.endedBy, hj.symm]
  | _ => rfl

/-- The exception of a call is noted when it is thrown. -/
theorem WorkerMove.throws (h : WorkerMove M s i pc pc' s₁ fs) {failure : E}
    (hpc : pc' = .recordPrepare failure ∨ pc' = .recordSubmit failure) : .failed failure ∈ fs := by
  cases h with
  | prepareFailed failure' =>
    rcases hpc with hpc | hpc <;> cases hpc
    exact List.mem_cons_of_mem _ List.mem_cons_self
  | submitFailed k failure' =>
    rcases hpc with hpc | hpc <;> cases hpc
    exact List.mem_cons_self
  | arrive canSubmit | awake canSubmit =>
    unfold afterStart at hpc
    rcases hpc with hpc | hpc <;> split_ifs at hpc
  | awaitRelease =>
    unfold afterRelease at hpc
    rcases hpc with hpc | hpc <;> split_ifs at hpc
  | _ => rcases hpc with hpc | hpc <;> cases hpc

/-- The slot gets its exception from a worker that has thrown. -/
theorem WorkerMove.slot (h : WorkerMove M s i pc pc' s₁ fs) {failure : E}
    (hslot : s₁.workerFailure = some failure) :
    s.workerFailure = some failure ∨ pc = .recordPrepare failure ∨ pc = .recordSubmit failure := by
  cases h with
  | recordPrepare failure' | recordSubmit failure' =>
    rw [recordWorkerFailure_eq] at hslot
    cases hfailure : s.workerFailure with
    | none =>
      rw [hfailure] at hslot
      cases hslot
      exact .inr (by simp)
    | some first =>
      rw [hfailure] at hslot
      exact .inl hslot
  | _ => exact .inl hslot

/-- A worker that records its exception leaves one in the slot. -/
theorem WorkerMove.records (h : WorkerMove M s i pc pc' s₁ fs) {failure : E}
    (hpc : pc = .recordPrepare failure ∨ pc = .recordSubmit failure) :
    ∃ failure', s₁.workerFailure = some failure' := by
  cases h with
  | recordPrepare | recordSubmit =>
    rw [recordWorkerFailure_eq]
    exact ⟨_, rfl⟩
  | _ => rcases hpc with hpc | hpc <;> cases hpc

theorem WorkerMove.callerFailure (h : WorkerMove M s i pc pc' s₁ fs) :
    s₁.caller.failure = s.caller.failure := by
  cases h with
  | recordPrepare | recordSubmit => rw [recordWorkerFailure_eq]
  | arrive | notifyCompletion => cases hcaller : s.caller <;> rfl
  | _ => rfl

/-- Only a worker that throws notes an exception. -/
theorem WorkerMove.failed (h : WorkerMove M s i pc pc' s₁ fs) {failure : E}
    (hfailed : .failed failure ∈ fs) :
    pc' = .recordPrepare failure ∨ pc' = .recordSubmit failure := by
  cases h with
  | prepareFailed failure' => exact .inl (by simpa [eq_comm] using hfailed)
  | submitFailed k failure' => exact .inr (by simpa [eq_comm] using hfailed)
  | _ => simp at hfailed

theorem WorkerMove.ends (h : WorkerMove M s i pc pc' s₁ fs)
    (hends : s₁.caller = .rethrow ∨ s₁.caller = .returned) :
    s.caller = .rethrow ∨ s.caller = .returned := by
  cases h with
  | recordPrepare | recordSubmit =>
    rw [recordWorkerFailure_eq] at hends
    exact hends
  | arrive | notifyCompletion =>
    cases hcaller : s.caller <;> rw [hcaller] at hends <;>
      first | exact hends | (rcases hends with hends | hends <;> cases hends)
  | _ => exact hends

theorem Barrier.allDone_of_ends (h : Barrier s)
    (hends : s.caller = .rethrow ∨ s.caller = .returned) : s.AllDone := by
  have hok := h.caller
  rcases hends with hcaller | hcaller <;> rw [hcaller] at hok
  · exact hok.2.2.2
  · exact hok.2.2.2.1

theorem Holds.step_worker (h : WorkerMove M s i (s.workers i) pc' s₁ fs) {failure : E}
    (hholds : s.Holds failure) : ∃ failure', (s₁.goto i pc').Holds failure' := by
  rcases hholds with ⟨j, hj⟩ | hslot | hcaller
  · by_cases hji : j = i
    · subst hji
      obtain ⟨failure', hslot⟩ := h.records hj
      exact ⟨failure', .inr (.inl hslot)⟩
    · refine ⟨failure, .inl ⟨j, ?_⟩⟩
      rw [goto_workers, Function.update_of_ne hji, h.same.workers]
      exact hj
  · exact ⟨failure, .inr (.inl (h.keepsFailure hslot))⟩
  · exact ⟨failure, .inr (.inr (h.callerFailure.trans hcaller))⟩

theorem Chronicle.thrown_worker (h : Chronicle M s es)
    (hmove : WorkerMove M s i (s.workers i) pc' s₁ fs) {failure : E}
    (hholds : (s₁.goto i pc').Holds failure) : .failed failure ∈ es ++ fs := by
  rcases hholds with ⟨j, hj⟩ | hslot | hcaller
  · rw [goto_workers] at hj
    by_cases hji : j = i
    · subst hji
      rw [Function.update_self] at hj
      exact List.mem_append_right _ (hmove.throws hj)
    · rw [Function.update_of_ne hji, hmove.same.workers] at hj
      exact List.mem_append_left _ (h.thrown failure (.inl ⟨j, hj⟩))
  · rcases hmove.slot hslot with hslot | hpc
    · exact List.mem_append_left _ (h.thrown failure (.inr (.inl hslot)))
    · exact List.mem_append_left _ (h.thrown failure (.inl ⟨i, hpc⟩))
  · exact List.mem_append_left _
      (h.thrown failure (.inr (.inr (hmove.callerFailure.symm.trans hcaller))))

/-- A call of `submit_` lies in the past, or it begins or ends now. -/
theorem WorkerMove.submit_cases (h : WorkerMove M s i pc pc' s₁ fs) (hok : s.WorkerOk pc)
    {x : GroupEvent N E} (hx : x ∈ es ++ fs) {time : ℤ} (htime : x.submitTime = some time) :
    x ∈ es ∨ s.startWorkers = true ∧ time = s.now ∧ pc.done = false :=
  (List.mem_append.mp hx).imp_right fun hx => h.submits hok hx htime

theorem Chronicle.prepared_worker (h : Chronicle M s es)
    (hmove : WorkerMove M s i (s.workers i) pc' s₁ fs) {j : Fin N}
    (hj : ((s₁.goto i pc').workers j).hasPrepared = true) : .prepared j ∈ es ++ fs := by
  by_cases hji : j = i
  · subst hji
    rcases hmove.hasPrepared with hbefore | hnew
    · exact List.mem_append_left _ (h.prepared j hbefore)
    · exact List.mem_append_right _ hnew
  · rw [goto_workers, Function.update_of_ne hji, hmove.same.workers] at hj
    exact List.mem_append_left _ (h.prepared j hj)

theorem Chronicle.submitted_worker (h : Chronicle M s es)
    (hmove : WorkerMove M s i (s.workers i) pc' s₁ fs) (j : Fin N) :
    SubmittedOk M s₁.workerFailure (submittedBy j (es ++ fs)) ((s₁.goto i pc').workers j) := by
  rw [goto_workers, submittedBy_append]
  by_cases hji : j = i
  · subst hji
    rw [Function.update_self]
    exact hmove.submittedOk (h.submitted j)
  · rw [Function.update_of_ne hji, hmove.same.workers, submittedBy_other hmove hji,
      List.append_nil]
    exact (h.submitted j).mono hmove.isSome

theorem Chronicle.failed_worker (h : Chronicle M s es)
    (hmove : WorkerMove M s i (s.workers i) pc' s₁ fs) {failure : E}
    (hfailed : .failed failure ∈ es ++ fs) : ∃ failure', (s₁.goto i pc').Holds failure' := by
  rcases List.mem_append.mp hfailed with hbefore | hnew
  · obtain ⟨failure', hholds⟩ := h.failed failure hbefore
    exact hholds.step_worker hmove
  · refine ⟨failure, .inl ⟨i, ?_⟩⟩
    rw [goto_workers, Function.update_self]
    exact hmove.failed hnew

theorem Chronicle.step_worker (h : Chronicle M s es) (hbarrier : Barrier s)
    (hmove : WorkerMove M s i (s.workers i) pc' s₁ fs) :
    Chronicle M (s₁.goto i pc') (es ++ fs) := by
  have hsame := hmove.same
  have hstart : (s₁.goto i pc').startWorkers = s.startWorkers := hsame.startWorkers
  have hlaunched : (s₁.goto i pc').launched = s.launched := hsame.launched
  have hstarted : (s₁.goto i pc').started = s.started :=
    congrArg ProducerTiming.started hsame.timing
  have hproduced : (s₁.goto i pc').producersDone = s.producersDone :=
    congrArg ProducerTiming.producersDone hsame.timing
  have hnow : (s₁.goto i pc').now = s.now := hsame.now
  have hsubmits : ∀ x ∈ es ++ fs, ∀ time, x.submitTime = some time →
      x ∈ es ∨ s.startWorkers = true ∧ time = s.now ∧ (s.workers i).done = false :=
    fun x hx time => hmove.submit_cases (hbarrier.workers i) hx
  constructor
  case prepared => exact fun j => h.prepared_worker hmove
  case launched =>
    intro j hj
    rw [hlaunched]
    exact h.launched j ((List.mem_append.mp hj).resolve_right (hmove.noThread j))
  case joined =>
    exact fun j hj => List.mem_append_left _ (h.joined j ((congrFun hsame.joined j).symm.trans hj))
  case quiet =>
    rw [hstart]
    intro hfalse x hx
    cases htime : x.submitTime with
    | none => rfl
    | some time =>
      rcases hsubmits x hx time htime with hbefore | ⟨htrue, -⟩
      · rw [h.quiet hfalse x hbefore] at htime
        cases htime
      · exact absurd (hfalse.symm.trans htrue) Bool.false_ne_true
  case clock =>
    rw [hstart, hlaunched, hstarted, hnow]
    exact h.clock
  case together =>
    rw [hstart, hlaunched]
    exact fun htrue hall j => List.mem_append_left _ (h.together htrue hall j)
  case first =>
    rw [hlaunched]
    intro hall
    refine (h.first hall).append fun j k time hbegan => ?_
    exact h.together (hmove.submits (hbarrier.workers i) hbegan rfl).1 hall
  case since =>
    rw [hstart, hlaunched, hstarted]
    intro htrue hall x hx time htime
    rcases hsubmits x hx time htime with hbefore | ⟨-, rfl, -⟩
    · exact h.since htrue hall x hbefore time htime
    · exact h.clock htrue hall
  case past =>
    rw [hnow]
    intro x hx time htime
    rcases hsubmits x hx time htime with hbefore | ⟨-, rfl, -⟩
    · exact h.past x hbefore time htime
    · exact le_rfl
  case done =>
    rw [hproduced]
    intro hends x hx time htime
    have hends' := hmove.ends hends
    rcases hsubmits x hx time htime with hbefore | ⟨-, -, hdone⟩
    · exact h.done hends' x hbefore time htime
    · exact absurd (hdone.symm.trans (hbarrier.allDone_of_ends hends' i)) Bool.false_ne_true
  case submitted => exact h.submitted_worker hmove
  case failed => exact fun failure => h.failed_worker hmove
  case thrown => exact fun failure => h.thrown_worker hmove

end Worker

/-! ## What the caller adds -/

section Caller

variable {caller : StartPc E}

theorem CallerMove.silent (h : CallerMove s caller t fs) {x : GroupEvent N E} (hx : x ∈ fs) :
    x.submitTime = none := by
  cases h with
  | constructFailed | launch | launchFailed | join =>
    cases List.mem_singleton.mp hx
    rfl
  | _ => cases hx

theorem CallerMove.submittedBy_nil (h : CallerMove s caller t fs) (j : Fin N) :
    submittedBy j fs = [] := by
  cases h <;> rfl

/-- The caller keeps the program points of the workers, except for those it creates or wakes. -/
theorem CallerMove.workers (h : CallerMove s caller t fs)
    (hnew : ∀ i, s.workers i = .unlaunched ↔ s.launched ≤ i) (j : Fin N) :
    t.workers j = s.workers j ∨ (s.workers j = .unlaunched ∧ t.workers j = .prepare) ∨
      t.workers j = (s.workers j).notifyStart ∨ t.workers j = (s.workers j).notifyRelease := by
  cases h with
  | launch hless =>
    by_cases hj : j = ⟨s.launched, hless⟩
    · subst hj
      exact .inr (.inl ⟨(hnew _).mpr le_rfl, s.emplaceBack_self hless⟩)
    · exact .inl (s.emplaceBack_of_ne hless hj)
  | abortNotify | notifyStart => exact .inr (.inr (.inl rfl))
  | notifyRelease => exact .inr (.inr (.inr rfl))
  | _ => exact .inl rfl

theorem CallerMove.hasPrepared (h : CallerMove s caller t fs)
    (hnew : ∀ i, s.workers i = .unlaunched ↔ s.launched ≤ i) {j : Fin N}
    (hj : (t.workers j).hasPrepared = true) : (s.workers j).hasPrepared = true := by
  rcases h.workers hnew j with heq | ⟨-, heq⟩ | heq | heq <;> rw [heq] at hj
  · exact hj
  · cases hj
  · cases hpc : s.workers j <;> rw [hpc] at hj <;> exact hj
  · cases hpc : s.workers j <;> rw [hpc] at hj <;> exact hj

theorem CallerMove.submittedOk (h : CallerMove s caller t fs)
    (hnew : ∀ i, s.workers i = .unlaunched ↔ s.launched ≤ i) {j : Fin N} {failure : Option E}
    {ks : List ℕ} (hok : SubmittedOk M failure ks (s.workers j)) :
    SubmittedOk M failure ks (t.workers j) := by
  rcases h.workers hnew j with heq | ⟨hpc, heq⟩ | heq | heq <;> rw [heq]
  · exact hok
  · rw [hpc] at hok
    exact hok
  · cases hpc : s.workers j <;> rw [hpc] at hok <;> exact hok
  · cases hpc : s.workers j <;> rw [hpc] at hok <;> exact hok

theorem CallerMove.recording (h : CallerMove s caller t fs)
    (hnew : ∀ i, s.workers i = .unlaunched ↔ s.launched ≤ i) (j : Fin N) (failure : E) :
    (t.workers j = .recordPrepare failure ∨ t.workers j = .recordSubmit failure) ↔
      (s.workers j = .recordPrepare failure ∨ s.workers j = .recordSubmit failure) := by
  rcases h.workers hnew j with heq | ⟨hpc, heq⟩ | heq | heq <;> rw [heq]
  · rw [hpc]
    simp
  · rw [notifyStart_eq (.recordPrepare failure) nofun nofun,
      notifyStart_eq (.recordSubmit failure) nofun nofun]
  · rw [notifyRelease_eq (.recordPrepare failure) nofun nofun,
      notifyRelease_eq (.recordSubmit failure) nofun nofun]

theorem CallerMove.kept (h : CallerMove s caller t fs) :
    t.workerFailure = s.workerFailure ∧ t.now = s.now ∧ s.launched ≤ t.launched := by
  cases h with
  | launch => exact ⟨rfl, rfl, Nat.le_succ _⟩
  | _ => exact ⟨rfl, rfl, le_rfl⟩

theorem CallerMove.threads (h : CallerMove s caller t fs) (j : Fin N) :
    (.launched j ∈ fs → (j : ℕ) < t.launched) ∧
      (t.joined j = true → s.joined j = true ∨ .joined j ∈ fs) := by
  cases h with
  | launch hless =>
    refine ⟨fun hj => ?_, .inl⟩
    cases List.mem_singleton.mp hj
    exact Nat.lt_succ_self _
  | join failure destructor next hless hexited =>
    refine ⟨fun hj => absurd (List.mem_singleton.mp hj) nofun, fun hj => ?_⟩
    by_cases hnext : j = next
    · rw [hnext]
      exact .inr List.mem_cons_self
    · exact .inl ((Function.update_of_ne hnext _ _).symm.trans hj)
  | constructFailed | launchFailed =>
    exact ⟨fun hj => absurd (List.mem_singleton.mp hj) nofun, .inl⟩
  | _ => exact ⟨nofun, .inl⟩

/-- The start has been before, or it is now that all workers are ready. -/
theorem CallerMove.starts (h : CallerMove s caller t fs) (hok : s.CallerOk caller)
    (hstart : t.startWorkers = true) (hall : t.launched = N) :
    s.startWorkers = true ∧ s.launched = N ∧ t.started = s.started ∨
      s.startWorkers = false ∧ s.readyWorkers = N ∧ t.started = s.now := by
  cases h with
  | launch hless =>
    have hfalse : s.startWorkers = false := hok.1
    exact absurd (hfalse.symm.trans hstart) Bool.false_ne_true
  | abortStart => exact absurd hall hok.1.ne
  | ready hready => exact .inr ⟨hok.2.1, hready, rfl⟩
  | _ => exact .inl ⟨hstart, hall, rfl⟩

theorem CallerMove.unstarted (h : CallerMove s caller t fs) (hok : s.CallerOk caller) :
    (t.startWorkers = false → s.startWorkers = false) ∧
      (s.startWorkers = true → t.launched = s.launched) := by
  cases h with
  | launch =>
    have hfalse : s.startWorkers = false := hok.1
    exact ⟨id, fun htrue => absurd (hfalse.symm.trans htrue) Bool.false_ne_true⟩
  | abortStart | ready => exact ⟨nofun, fun _ => rfl⟩
  | _ => exact ⟨id, fun _ => rfl⟩

theorem CallerMove.ends (h : CallerMove s caller t fs) (hpc : s.caller = caller)
    (hends : t.caller = .rethrow ∨ t.caller = .returned) :
    t.producersDone = s.now ∨ caller = .rethrow ∧ t.producersDone = s.producersDone := by
  cases h with
  | completed => exact .inl rfl
  | noFailure => exact .inr ⟨rfl, rfl⟩
  | launch =>
    change s.caller = .rethrow ∨ s.caller = .returned at hends
    rw [hpc] at hends
    rcases hends with hends | hends <;> cases hends
  | _ => rcases hends with hends | hends <;> cases hends

theorem CallerMove.failure (h : CallerMove s caller t fs) (hpc : s.caller = caller) (failure : E) :
    (caller.failure = some failure → t.caller.failure = some failure) ∧
      (.failed failure ∈ fs → t.caller.failure = some failure) ∧
      (t.caller.failure = some failure →
        caller.failure = some failure ∨ .failed failure ∈ fs ∨ s.workerFailure = some failure) := by
  cases h with
  | launch =>
    refine ⟨nofun, fun hf => absurd (List.mem_singleton.mp hf) nofun, fun ht => ?_⟩
    change s.caller.failure = some failure at ht
    rw [hpc] at ht
    exact .inl ht
  | constructFailed failure' | launchFailed failure' =>
    refine ⟨nofun, fun hf => ?_, fun ht => ?_⟩
    · cases List.mem_singleton.mp hf
      rfl
    · cases ht
      exact .inr (.inl List.mem_cons_self)
  | rethrow hslot => exact ⟨nofun, nofun, fun ht => .inr (.inr (hslot.trans ht))⟩
  | join => exact ⟨id, fun hf => absurd (List.mem_singleton.mp hf) nofun, .inl⟩
  | _ => exact ⟨id, nofun, .inl⟩

theorem Holds.step_caller (h : CallerMove s s.caller t fs)
    (hnew : ∀ i, s.workers i = .unlaunched ↔ s.launched ≤ i) {failure : E}
    (hholds : s.Holds failure) : t.Holds failure := by
  rcases hholds with ⟨j, hj⟩ | hslot | hcaller
  · exact .inl ⟨j, (h.recording hnew j failure).mpr hj⟩
  · exact .inr (.inl (h.kept.1.trans hslot))
  · exact .inr (.inr ((h.failure rfl failure).1 hcaller))

theorem Chronicle.thrown_caller (h : Chronicle M s es) (hmove : CallerMove s s.caller t fs)
    (hnew : ∀ i, s.workers i = .unlaunched ↔ s.launched ≤ i) {failure : E}
    (hholds : t.Holds failure) : .failed failure ∈ es ++ fs := by
  rcases hholds with ⟨j, hj⟩ | hslot | hcaller
  · exact List.mem_append_left _
      (h.thrown failure (.inl ⟨j, (hmove.recording hnew j failure).mp hj⟩))
  · exact List.mem_append_left _ (h.thrown failure (.inr (.inl (hmove.kept.1.symm.trans hslot))))
  · rcases (hmove.failure rfl failure).2.2 hcaller with hbefore | hthrown | hslot
    · exact List.mem_append_left _ (h.thrown failure (.inr (.inr hbefore)))
    · exact List.mem_append_right _ hthrown
    · exact List.mem_append_left _ (h.thrown failure (.inr (.inl hslot)))

/-- With the caller's start, or before it, all workers have prepared. -/
theorem Chronicle.together_caller (h : Chronicle M s es) (hbarrier : Barrier s)
    (hmove : CallerMove s s.caller t fs) (hstart : t.startWorkers = true) (hall : t.launched = N)
    (j : Fin N) : .prepared j ∈ es := by
  rcases hmove.starts hbarrier.caller hstart hall with ⟨hbefore, hall', -⟩ | ⟨-, hready, -⟩
  · exact h.together hbefore hall' j
  · refine h.prepared j ?_
    have harrived : (s.workers j).arrived = true := by
      rw [hbarrier.ready] at hready
      exact census_eq_card.mp (hready.trans (Fintype.card_fin N).symm) j
    cases hpc : s.workers j <;> rw [hpc] at harrived <;> first | rfl | cases harrived

theorem Chronicle.failed_caller (h : Chronicle M s es) (hmove : CallerMove s s.caller t fs)
    (hnew : ∀ i, s.workers i = .unlaunched ↔ s.launched ≤ i) {failure : E}
    (hfailed : .failed failure ∈ es ++ fs) : ∃ failure', t.Holds failure' := by
  rcases List.mem_append.mp hfailed with hbefore | hthrown
  · obtain ⟨failure', hholds⟩ := h.failed failure hbefore
    exact ⟨failure', hholds.step_caller hmove hnew⟩
  · exact ⟨failure, .inr (.inr ((hmove.failure rfl failure).2.1 hthrown))⟩

theorem Chronicle.step_caller (h : Chronicle M s es) (hbarrier : Barrier s)
    (hmove : CallerMove s s.caller t fs) : Chronicle M t (es ++ fs) := by
  have hnew := hbarrier.unlaunched
  obtain ⟨hslot, hnow, hgrows⟩ := hmove.kept
  obtain ⟨hunstarted, hfixed⟩ := hmove.unstarted hbarrier.caller
  have hsubmits : ∀ x ∈ es ++ fs, ∀ time, x.submitTime = some time → x ∈ es := by
    intro x hx time htime
    refine (List.mem_append.mp hx).resolve_right fun hx => ?_
    rw [hmove.silent hx] at htime
    cases htime
  have hquiet : s.startWorkers = false → ∀ x ∈ es ++ fs, x.submitTime = none := by
    intro hfalse x hx
    rcases List.mem_append.mp hx with hx | hx
    · exact h.quiet hfalse x hx
    · exact hmove.silent hx
  constructor
  case prepared =>
    exact fun j hj => List.mem_append_left _ (h.prepared j (hmove.hasPrepared hnew hj))
  case launched =>
    intro j hj
    rcases List.mem_append.mp hj with hj | hj
    · exact (h.launched j hj).trans_le hgrows
    · exact (hmove.threads j).1 hj
  case joined =>
    intro j hj
    rcases (hmove.threads j).2 hj with hbefore | hjoined
    · exact List.mem_append_left _ (h.joined j hbefore)
    · exact List.mem_append_right _ hjoined
  case quiet => exact fun hfalse => hquiet (hunstarted hfalse)
  case clock =>
    intro hstart hall
    rcases hmove.starts hbarrier.caller hstart hall with ⟨hbefore, hall', heq⟩ | ⟨-, -, heq⟩
    · rw [heq, hnow]
      exact h.clock hbefore hall'
    · rw [heq, hnow]
  case together =>
    exact fun hstart hall j =>
      List.mem_append_left _ (h.together_caller hbarrier hmove hstart hall j)
  case first =>
    intro hall
    cases hbefore : s.startWorkers with
    | false => exact preparedFirst_of_no_submit (hquiet hbefore)
    | true =>
      refine (h.first ((hfixed hbefore).symm.trans hall)).append fun j k time hbegan => ?_
      cases hmove.silent hbegan
  case since =>
    intro hstart hall x hx time htime
    have hx := hsubmits x hx time htime
    rcases hmove.starts hbarrier.caller hstart hall with ⟨hbefore, hall', heq⟩ | ⟨hbefore, -, -⟩
    · rw [heq]
      exact h.since hbefore hall' x hx time htime
    · rw [h.quiet hbefore x hx] at htime
      cases htime
  case past =>
    rw [hnow]
    exact fun x hx time htime => h.past x (hsubmits x hx time htime) time htime
  case done =>
    intro hends x hx time htime
    have hx := hsubmits x hx time htime
    rcases hmove.ends rfl hends with heq | ⟨hcaller, heq⟩
    · rw [heq]
      exact h.past x hx time htime
    · rw [heq]
      exact h.done (.inl hcaller) x hx time htime
  case submitted =>
    intro j
    rw [hslot, submittedBy_append, hmove.submittedBy_nil, List.append_nil]
    exact hmove.submittedOk hnew (h.submitted j)
  case failed => exact fun failure => h.failed_caller hmove hnew
  case thrown => exact fun failure => h.thrown_caller hmove hnew

end Caller

/-! ## Every run -/

theorem Chronicle.tick (h : Chronicle M s es) (elapsed : ℕ) :
    Chronicle M { s with now := s.now + elapsed } es where
  prepared := h.prepared
  launched := h.launched
  joined := h.joined
  quiet := h.quiet
  clock hstart hall := (h.clock hstart hall).trans (by simp)
  together := h.together
  first := h.first
  since := h.since
  past x hx time htime := (h.past x hx time htime).trans (by simp)
  done := h.done
  submitted := h.submitted
  failed := h.failed
  thrown := h.thrown

theorem Chronicle.step (h : Chronicle M s es) (hbarrier : Barrier s) {a : GroupAction N E}
    (hstep : (groupSystem N M E).step s a = some (t, fs)) : Chronicle M t (es ++ fs) := by
  rcases step_cases hstep with ⟨i, pc, s₁, hmove, rfl⟩ | hmove | ⟨elapsed, rfl, rfl⟩
  · exact h.step_worker hbarrier hmove
  · exact h.step_caller hbarrier hmove
  · rw [List.append_nil]
    exact h.tick elapsed

theorem reaches_chronicle (h : (groupSystem N M E).Reaches .initial es s) : Chronicle M s es :=
  (h.attach fun _ _ hrun => reaches_barrier hrun).invariant (I := fun es s => Chronicle M s es)
    chronicle_initial fun _ _ _ _ _ hi hp hs => hi.step hp.2 hs

end ProducerGroup

end CppLogger
