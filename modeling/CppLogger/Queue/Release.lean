import CppLogger.Queue.Accounting
import CppLogger.Queue.SingleConsumer
import CppLogger.Queue.Wakeups

/-!
# What `close` does to the threads inside the queue

Nobody falls asleep in a closed queue, and nothing comes into it. So each call that is under
way has only a few steps left, however many threads there are and whatever they do, and
none of them waits for a wakeup that never comes. The elements that are left go to the
consumers in their order.
-/

namespace CppLogger

variable {T Tid : Type*}

/-- The steps that a call has left in a closed queue. -/
def Call.remaining : Call T → ℕ
  | ⟨_, .enter⟩ => 4
  | ⟨_, .notFullWait _ asleep⟩ => 3 + asleep.toNat
  | ⟨_, .notEmptyWait asleep⟩ => 3 + asleep.toNat
  | ⟨.close, .notify _⟩ => 3
  | ⟨_, .notify _⟩ => 2
  | ⟨_, .notifyFull⟩ => 2
  | ⟨_, .ret _⟩ => 1

/-- A `reset` is under way that has not opened the queue yet. -/
def Call.resetting : Call T → Bool
  | ⟨.reset _ _, .enter⟩ => true
  | _ => false

theorem Call.remaining_le (c : Call T) : c.remaining ≤ 4 := by
  unfold Call.remaining
  split <;> first | omega | (rename_i asleep; cases asleep <;> decide)

theorem Call.remaining_woken (c : Call T) : c.woken.remaining ≤ c.remaining := by
  obtain ⟨op, st⟩ := c
  cases st <;> simp [Call.woken, Call.remaining]

theorem Call.resetting_woken (c : Call T) : c.woken.resetting = c.resetting := by
  obtain ⟨op, st⟩ := c
  cases st <;> cases op <;> rfl

theorem Call.remaining_signal {c : Call T} {sig : Signal} {stage : Stage T}
    (h : c.signal = some (sig, stage)) :
    (⟨c.op, stage⟩ : Call T).remaining < c.remaining ∧
      (⟨c.op, stage⟩ : Call T).resetting = false := by
  unfold Call.signal at h
  split at h <;> cases h <;> exact ⟨by simp [Call.remaining], rfl⟩

theorem Call.remaining_wakes {c : Call T} {cv : CondVar} (h : c.sleepsOn cv = true) :
    c.woken.remaining < c.remaining := by
  unfold Call.sleepsOn at h
  split at h
  · simp [Call.woken, Call.remaining]
  · simp [Call.woken, Call.remaining]
  · cases h

/-- What a section leaves of a closed queue: nothing comes in, and the thread does not wait. -/
structure Section.Leaving (q : BlockingQueue T) (c : Call T) (sec : Section T) : Prop where
  closed : sec.queue.closed = true
  conserves : removed sec.events ++ sec.queue.queue = q.queue
  refuses : ∀ v r, .pushed v r ∈ sec.events → r = .Closed
  nearer : (⟨c.op, sec.stage⟩ : Call T).remaining < c.remaining

theorem Outcome.leaving {q : BlockingQueue T} {alloc : Bool} {c : Call T} {sec : Section T}
    (h : Outcome q alloc c.op c.stage sec) (hclosed : q.closed = true)
    (hreset : c.resetting = false) : sec.Leaving q c := by
  obtain ⟨op, st⟩ := c
  have hstage : ∀ {x : Stage T}, x = .enter ∨ x = .notEmptyWait false →
      2 < (⟨op, x⟩ : Call T).remaining := by
    rintro x (rfl | rfl) <;> simp [Call.remaining]
  cases h with
  | rejected expected _ hst =>
    refine ⟨hclosed, rfl, by simp, ?_⟩
    rcases hst with ⟨rfl, -⟩ | rfl <;> simp [Call.remaining]
  | zeroBatch => exact ⟨hclosed, rfl, by simp, by simp [Call.remaining]⟩
  | ended _ hst =>
    refine ⟨hclosed, rfl, by simp, ?_⟩
    exact lt_trans (by simp [Call.remaining]) (hstage (hst.imp And.left id))
  | @took _ _ n hop hst =>
    refine ⟨hclosed, by simp [removed, QueueEvent.removed, BlockingQueue.takeFront], by simp, ?_⟩
    refine lt_of_le_of_lt ?_ (hstage (hst.imp And.left id))
    cases op <;> cases hop <;> exact le_rfl
  | popThrew _ hst =>
    refine ⟨hclosed, rfl, by simp, ?_⟩
    exact lt_trans (by simp [Call.remaining]) (hstage (hst.imp And.left id))
  | closes => exact ⟨rfl, rfl, by simp, by simp [Call.remaining]⟩
  | resets => cases hreset
  | _ => simp_all

section Steps

variable [Fintype Tid] [DecidableEq Tid] {s s' : QueueState T Tid}
variable {a : QueueAction T Tid} {es : List (QueueEvent T)}

/-- The steps that all calls under way have left in a closed queue. -/
def QueueState.remaining (s : QueueState T Tid) : ℕ :=
  ∑ t, (s.calls t).elim 0 Call.remaining

/-- The queue is closed, and no `reset` under way is to open it again. -/
structure QueueState.Shut (s : QueueState T Tid) : Prop where
  closed : s.queue.closed = true
  settled : ∀ t, (s.calls t).any Call.resetting = false

/-- The step is not the beginning of a new call, and its allocations succeed. -/
def QueueAction.continues : QueueAction T Tid → Bool
  | .call _ _ => false
  | .run _ alloc _ => alloc
  | _ => true

/-- The steps that a thread takes of its own accord, up to the return of the call. -/
def QueueAction.own : QueueAction T Tid → Bool
  | .run _ _ _ | .notify _ _ | .ret _ => true
  | _ => false

omit [Fintype Tid] [DecidableEq Tid] in
/-- A wakeup takes nobody further away from the end. -/
theorem Stirred.nearer {c c' : Option (Call T)} (h : Stirred c c') :
    c'.elim 0 Call.remaining ≤ c.elim 0 Call.remaining ∧
      c'.any Call.resetting = c.any Call.resetting := by
  rcases h with rfl | ⟨d, rfl, -, rfl⟩
  · exact ⟨le_rfl, rfl⟩
  · exact ⟨d.remaining_woken, d.resetting_woken⟩

/-- What a step does to the call of its own thread. -/
theorem QueueState.Shut.actor (h : s.Shut) (ha : a.continues = true)
    (hstep : s.step a = some (s', es)) :
    1 + (s'.calls a.actor).elim 0 Call.remaining ≤ (s.calls a.actor).elim 0 Call.remaining ∧
      (s'.calls a.actor).any Call.resetting = false := by
  have hsettled := h.settled a.actor
  cases step_move hstep with
  | call => cases ha
  | @run t alloc expired c sec hc hsec =>
    have hquiet : c.resetting = false := by simpa [QueueAction.actor, hc] using hsettled
    have hnearer := (hsec.leaving h.closed hquiet).nearer
    have hstage : (⟨c.op, sec.stage⟩ : Call T).resetting = false := by
      have hentered := hsec.entered
      unfold Call.resetting
      split
      · simp_all [Call.entered]
      · rfl
    simp only [QueueAction.actor, Function.update_self, hc, Option.elim_some, Option.any_some]
    exact ⟨by omega, hstage⟩
  | notify hc hsig =>
    obtain ⟨hnearer, hquiet⟩ := Call.remaining_signal hsig
    simp only [QueueAction.actor, Function.update_self, hc, Option.elim_some, Option.any_some]
    exact ⟨by omega, hquiet⟩
  | @wake t c hc hs =>
    have hnearer : c.woken.remaining < c.remaining :=
      hs.elim Call.remaining_wakes Call.remaining_wakes
    have hquiet : c.resetting = false := by simpa [QueueAction.actor, hc] using hsettled
    simp only [QueueAction.actor, Function.update_self, hc, Option.elim_some, Option.any_some,
      c.resetting_woken]
    exact ⟨by omega, hquiet⟩
  | @timeout t c hc hs =>
    have hnearer := Call.remaining_wakes (Call.sleepsOn_of_isTimed hs)
    have hquiet : c.resetting = false := by simpa [QueueAction.actor, hc] using hsettled
    simp only [QueueAction.actor, Function.update_self, hc, Option.elim_some, Option.any_some,
      c.resetting_woken]
    exact ⟨by omega, hquiet⟩
  | ret hc =>
    simp [QueueAction.actor, hc, Call.remaining]

/-- A closed queue stays closed, every step is one of the few that are left, and the elements
that leave it are its first ones. -/
theorem QueueState.Shut.step (h : s.Shut) (ha : a.continues = true)
    (hstep : s.step a = some (s', es)) :
    s'.Shut ∧ 1 + s'.remaining ≤ s.remaining ∧
      removed es ++ s'.queue.queue = s.queue.queue ∧
      ∀ v r, .pushed v r ∈ es → r = .Closed := by
  obtain ⟨hnearer, hactor⟩ := h.actor ha hstep
  have hothers : ∀ u, u ≠ a.actor → (s'.calls u).elim 0 Call.remaining ≤
      (s.calls u).elim 0 Call.remaining ∧ (s'.calls u).any Call.resetting = false := by
    intro u hu
    obtain ⟨hle, hany⟩ := (step_stirred hstep hu).nearer
    exact ⟨hle, hany.trans (h.settled u)⟩
  have hsettled : ∀ u, (s'.calls u).any Call.resetting = false := by
    intro u
    by_cases hu : u = a.actor
    · rw [hu]
      exact hactor
    · exact (hothers u hu).2
  have hpays : 1 + s'.remaining ≤ s.remaining + 0 :=
    sum_pays a.actor (fun u hu => (hothers u hu).1) hnearer
  have hqueue : s'.queue.closed = true ∧ removed es ++ s'.queue.queue = s.queue.queue ∧
      ∀ v r, .pushed v r ∈ es → r = .Closed := by
    cases step_move hstep with
    | @run t _ _ c sec hc hsec =>
      have hquiet : c.resetting = false := by simpa [hc] using h.settled t
      have hleaving := hsec.leaving h.closed hquiet
      exact ⟨hleaving.closed, hleaving.conserves, hleaving.refuses⟩
    | _ => exact ⟨h.closed, rfl, by simp⟩
  exact ⟨⟨hqueue.1, hsettled⟩, hpays, hqueue.2⟩

omit [Fintype Tid] [DecidableEq Tid] in
theorem Call.resting_of_asleep {c : Call T} (h : c.asleep) : c.resting = true := by
  obtain ⟨cv, hcv⟩ := h
  unfold Call.sleepsOn at hcv
  split at hcv
  · rfl
  · rfl
  · cases hcv

omit [Fintype Tid] [DecidableEq Tid] in
/-- Whether a thread has a section to run does not depend on its allocations. -/
theorem criticalSection_allocates {op : QueueOp T} {st : Stage T} {q : BlockingQueue T}
    {alloc expired : Bool} (h : (op.criticalSection st q alloc expired).isSome = true) :
    (op.criticalSection st q true expired).isSome = true := by
  unfold QueueOp.criticalSection at h ⊢
  split at h <;> first | rfl | cases h

/-- Where a thread is awake inside an operation, or has a notification to send, it can go on. -/
theorem Fitting.goes_on (h : Fitting s) {t : Tid} {c : Call T} (hc : s.calls t = some c)
    (hawake : c.resting = false) :
    ∃ a : QueueAction T Tid, a.own = true ∧ a.continues = true ∧ (s.step a).isSome = true := by
  rcases (h t c hc).can_proceed hc with hasleep | ⟨r, hret⟩ | ⟨a, ha, -, hstep⟩
  · rw [Call.resting_of_asleep hasleep] at hawake
    cases hawake
  · obtain ⟨op, st⟩ := c
    obtain rfl : st = .ret r := hret
    cases hawake
  · cases a with
    | run u alloc expired =>
      refine ⟨.run u true expired, rfl, rfl, ?_⟩
      cases hd : s.calls u with
      | none => simp [QueueState.step, hd] at hstep
      | some d =>
        exact can_run hd (criticalSection_allocates (by simpa [QueueState.step, hd] using hstep))
    | notify u target => exact ⟨.notify u target, rfl, rfl, hstep⟩
    | _ => cases ha

/-- In a closed queue the calls never all wait. -/
theorem NoLostWakeup.own_step (h : NoLostWakeup s) (hclosed : s.queue.closed = true) {t : Tid}
    {c : Call T} (hc : s.calls t = some c) :
    ∃ a : QueueAction T Tid, a.own = true ∧ a.continues = true ∧ (s.step a).isSome = true := by
  by_cases hquiet : Quiescent s
  · have hrest : c.resting = true := by simpa [hc] using hquiet t
    rcases Call.resting_cases hrest with ⟨cv, hcv⟩ | ⟨r, hret⟩
    · exfalso
      have hsleeps : sleeps cv (s.calls t) = true := by simpa [hc, sleeps] using hcv
      have hopen : s.queue.closed = false := by
        cases cv with
        | notFull => exact (hquiet.served h.producers (counts_producers h.current) hsleeps).1
        | notEmpty => exact (hquiet.served h.consumers (counts_consumers s.calls) hsleeps).1
      simp [hclosed] at hopen
    · obtain ⟨op, st⟩ := c
      obtain rfl : st = .ret r := hret
      exact ⟨.ret t, rfl, rfl, by simp [QueueState.step, hc]⟩
  · unfold Quiescent at hquiet
    push Not at hquiet
    obtain ⟨u, hu⟩ := hquiet
    cases hd : s.calls u with
    | none => simp [hd] at hu
    | some d => exact h.fitting.goes_on hd (by simpa [hd] using hu)

omit [DecidableEq Tid] in
theorem QueueState.remaining_le (s : QueueState T Tid) :
    s.remaining ≤ 4 * census Option.isSome s.calls := by
  have hone : ∀ t, (s.calls t).elim 0 Call.remaining ≤ 4 * (s.calls t).isSome.toNat := by
    intro t
    cases s.calls t with
    | none => exact le_rfl
    | some c => exact c.remaining_le
  have hcensus : ∑ t, (s.calls t).isSome.toNat = census Option.isSome s.calls := by
    rw [census, Finset.card_filter]
    refine Finset.sum_congr rfl fun t _ => ?_
    cases (s.calls t).isSome <;> rfl
  calc s.remaining ≤ ∑ t, 4 * (s.calls t).isSome.toNat := Finset.sum_le_sum fun t _ => hone t
    _ = 4 * census Option.isSome s.calls := by rw [← Finset.mul_sum, hcensus]

variable {u : QueueState T Tid}
variable {taken : List (TransitionSystem.Taken (QueueState T Tid) (QueueAction T Tid) (QueueEvent T))}

/-- What is left of a closed queue leaves it in order, and nothing comes in. -/
theorem QueueState.Shut.run (h : s.Shut)
    (hlater : (queueSystem T Tid).stepwise.Run (fun _ a => a.continues = true) s taken u) :
    removed (taken.flatMap (·.events)) ++ u.queue.queue = s.queue.queue ∧
      ∀ v r, .pushed v r ∈ taken.flatMap (·.events) → r = .Closed := by
  refine (hlater.forgets.invariant (I := fun fs u => u.Shut ∧
    removed fs ++ u.queue.queue = s.queue.queue ∧ ∀ v r, .pushed v r ∈ fs → r = .Closed)
    ⟨h, rfl, by simp⟩ ?_).2
  rintro fs u a u' gs ⟨hshut, hconserves, hrefuses⟩ ha hstep
  obtain ⟨hshut', -, hconserves', hrefuses'⟩ := hshut.step ha hstep
  refine ⟨hshut', ?_, ?_⟩
  · rw [removed, List.flatMap_append, ← removed, ← removed, List.append_assoc, hconserves',
      hconserves]
  · intro v r hmem
    rcases List.mem_append.mp hmem with hold | hnew
    · exact hrefuses v r hold
    · exact hrefuses' v r hnew

/-- `close` releases everybody. From a state of a closed queue that no `reset` is about to open
again, whatever the threads that are inside the queue do, in any order and with any spurious
wakeups: they take at most four steps for each call under way, as long as a call has not
returned some thread can go on of its own accord, every push that is answered is refused, and
the elements that are left leave in order. -/
theorem close_releases
    (h : (queueSystem T Tid).Run (fun _ a => a.allocates = true) .initial es s) (hshut : s.Shut)
    (hlater : (queueSystem T Tid).stepwise.Run (fun _ a => a.continues = true) s taken u) :
    taken.length ≤ 4 * census Option.isSome s.calls ∧
      ((∀ t, u.calls t = none) ∨
        ∃ a : QueueAction T Tid, a.own = true ∧ a.continues = true ∧ (u.step a).isSome = true) ∧
      (∀ v r, .pushed v r ∈ taken.flatMap (·.events) → r = .Closed) ∧
      removed (taken.flatMap (·.events)) ++ u.queue.queue = s.queue.queue := by
  obtain ⟨hu, hspends⟩ := hlater.spends (I := QueueState.Shut) QueueState.remaining
    (fun _ => true) (fun _ => 0) hshut fun s a t es hs ha hstep =>
      ⟨(hs.step ha hstep).1, (hs.step ha hstep).2.1⟩
  have hwhole : (queueSystem T Tid).Run (fun _ a => a.allocates = true) .initial
      (es ++ taken.flatMap (·.events)) u :=
    h.trans (hlater.forgets.mono fun _ a ha => by cases a <;> first | rfl | exact ha)
  have hinv : NoLostWakeup u :=
    hwhole.stable .initial fun _ _ _ _ hs halloc hstep => hs.step halloc hstep
  have hbound := s.remaining_le
  refine ⟨?_, ?_, (hshut.run hlater).2, (hshut.run hlater).1⟩
  · simp at hspends
    omega
  · by_cases hnone : ∀ t, u.calls t = none
    · exact .inl hnone
    · push Not at hnone
      obtain ⟨t, ht⟩ := hnone
      obtain ⟨c, hc⟩ := Option.ne_none_iff_exists'.mp ht
      exact .inr (hinv.own_step hu.closed hc)

end Steps

/-- The second thread closes the queue while the first one is asleep in a push. -/
def closingSchedule : List (QueueAction ℕ TwoThreads) :=
  sleepingSchedule ++ [.call .second .close, .run .second true false]

theorem closingSchedule_runs :
    ((queueSystem ℕ TwoThreads).exec (fun _ a => a.allocates = true) .initial
      closingSchedule).isSome = true := by
  decide

/-- Both threads go on until their calls have returned. -/
def releasingSchedule : List (QueueAction ℕ TwoThreads) :=
  [.notify .second none, .notify .second none, .run .first true false, .ret .first, .ret .second]

theorem close_releases_sleeping :
    ∃ s taken u, s.calls .first = some ⟨.push (some 1) 20, .notFullWait 1 true⟩ ∧
      (queueSystem ℕ TwoThreads).stepwise.Run (fun _ a => a.continues = true) s taken u ∧
      (∀ t, u.calls t = none) ∧ taken.length = 5 ∧
      removed (taken.flatMap (·.events)) ++ u.queue.queue = [10] := by
  have hlater : (queueSystem ℕ TwoThreads).stepwise.Run (fun _ a => a.continues = true)
      (Option.get _ closingSchedule_runs).1 _ _ := .of_schedule releasingSchedule (by decide)
  exact ⟨_, _, _, rfl, hlater, by decide, by decide,
    (close_releases (.of_schedule closingSchedule closingSchedule_runs)
      ⟨by decide, by decide⟩ hlater).2.2.2⟩

end CppLogger
