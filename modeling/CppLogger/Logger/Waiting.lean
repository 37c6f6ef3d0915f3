import CppLogger.Logger.Deadlines

/-!
# The timed waits of an idle worker

Under `Periodic` an idle worker waits until the next flush is due. The time left is cut to
whole milliseconds; when nothing is cut off, every wait that times out ends at the deadline,
and the iteration flushes.
-/

namespace CppLogger

variable {Tid : Type*}

/-- The time left is covered by a positive timeout exactly when it is a whole number of
milliseconds. -/
theorem waitTimeout_covers {now nextFlush : ℤ} (h : now < nextFlush) :
    (0 < waitTimeout now nextFlush ∧ nextFlush - now ≤ waitTimeout now nextFlush * 10 ^ 6) ↔
      10 ^ 6 ∣ nextFlush - now := by
  have hcut : waitTimeout now nextFlush = (nextFlush - now) / 10 ^ 6 := by
    rw [waitTimeout, if_neg (by omega), Int.tdiv_eq_ediv_of_nonneg (by omega)]
  rw [hcut]
  omega

theorem le_waitTimeout {now nextFlush : ℤ} (h : now < nextFlush → 10 ^ 6 ∣ nextFlush - now) :
    nextFlush ≤ now + waitTimeout now nextFlush * 10 ^ 6 := by
  by_cases hlt : now < nextFlush
  · have hcovers := ((waitTimeout_covers hlt).mpr (h hlt)).2
    omega
  · rw [waitTimeout, if_pos (by omega)]
    omega

/-! ## What is assumed of a step -/

/-- A timed wait of the worker does not time out before its end. -/
def Patient [DecidableEq Tid] (c : ClockedState Tid) (x : ClockedAction Tid) : Prop :=
  ∀ alloc, x.action = .queue (.run none alloc true) → c.waitEnd ≤ x.now

/-- What is left until the next flush when the worker begins a timed wait. -/
def ClockedState.timeLeft (c : ClockedState Tid) (x : ClockedAction Tid) : Option ℤ :=
  match x.action, c.logger.worker with
  | .work _ _, .loop nextFlush =>
    if c.logger.flushPolicy = .Periodic ∧ x.now < nextFlush then some (nextFlush - x.now) else none
  | _, _ => none

/-- When the worker begins a timed wait, the time left is a whole number of milliseconds. -/
def WholeMilliseconds (c : ClockedState Tid) (x : ClockedAction Tid) : Prop :=
  ∀ left ∈ c.timeLeft x, 10 ^ 6 ∣ left

instance [DecidableEq Tid] (c : ClockedState Tid) (x : ClockedAction Tid) :
    Decidable (Patient c x) :=
  inferInstanceAs (Decidable (∀ _ : Bool, _ → _))

instance (c : ClockedState Tid) (x : ClockedAction Tid) : Decidable (WholeMilliseconds c x) :=
  inferInstanceAs (Decidable (∀ left ∈ c.timeLeft x, _))

/-! ## Timeouts between flushes -/

/-- A removal of the worker has timed out. -/
def LoggerEvent.isTimeout : LoggerEvent Tid → Bool
  | .queue none .timedOut => true
  | _ => false

/-- The worker begins to flush the sinks. -/
def LoggerEvent.isFlushStart : LoggerEvent Tid → Bool
  | .flush 0 => true
  | _ => false

def countTimeout (n : ℕ) (e : ℤ × LoggerEvent Tid) : ℕ :=
  if e.2.isFlushStart then 0 else if e.2.isTimeout then n + 1 else n

/-- The timeouts since the sinks were last flushed. -/
def timeoutsSinceFlush (es : List (ℤ × LoggerEvent Tid)) : ℕ := es.foldl countTimeout 0

theorem foldl_countTimeout {es : List (ℤ × LoggerEvent Tid)} (n : ℕ)
    (h : ∀ e ∈ es, e.2.isFlushStart = false) :
    es.foldl countTimeout n = n + es.countP fun e => e.2.isTimeout := by
  induction es generalizing n with
  | nil => rfl
  | cons e es ih =>
    have he := h e (by simp)
    rw [List.foldl_cons, ih _ fun e he => h e (by simp [he]), List.countP_cons]
    unfold countTimeout
    split_ifs <;> first | omega | simp_all

/-- What the timeouts since the last flush say about the worker: there is at most one, and
it sends the worker into `flushSinks`. -/
def WorkerPc.Waits (c : ClockedState Tid) (n : ℕ) : WorkerPc Tid → Prop
  | .popping nextFlush timeout =>
    (timeout ≠ none → c.logger.flushPolicy = .Periodic ∧ nextFlush ≤ c.waitEnd) ∧
      (n = 0 ∨ n = 1 ∧ timeout ≠ none ∧ nextFlush ≤ c.now ∧
        ∃ op, c.logger.call none = some ⟨op, .ret .none⟩)
  | .idle nextFlush => n = 0 ∨ n = 1 ∧ c.logger.flushPolicy = .Periodic ∧ nextFlush ≤ c.now
  | .flushing .idle 0 false => n ≤ 1
  | _ => n = 0

theorem WorkerPc.Waits.le_one {c : ClockedState Tid} {n : ℕ} {pc : WorkerPc Tid}
    (h : pc.Waits c n) : n ≤ 1 := by
  unfold WorkerPc.Waits at h
  split at h <;> omega

variable {host : Host Tid} {s s' : LoggerState Tid} {c c' : ClockedState Tid}
variable {x : ClockedAction Tid} {a : LoggerAction Tid} {fs : List (LoggerEvent Tid)}
variable {es : List (ℤ × LoggerEvent Tid)} {ok : Bool} {now : ℤ} {pc pc' : WorkerPc Tid}
variable {effect : Effect Tid} {n : ℕ}

theorem WorkerMove.no_timeout (h : WorkerMove host s ok now pc pc' effect fs) :
    ∀ e ∈ fs, e.isTimeout = false := by
  cases h <;> simp [LoggerEvent.isTimeout]

/-- Without a timeout, only a flush changes the count. -/
theorem foldl_countTimeout_quiet (h : ∀ e ∈ fs, e.isTimeout = false) (now : ℤ) :
    (fs.map (Prod.mk now)).foldl countTimeout n =
      if fs.any LoggerEvent.isFlushStart then 0 else n := by
  induction fs generalizing n with
  | nil => rfl
  | cons e fs ih =>
    have he := h e (by simp)
    rw [List.map_cons, List.foldl_cons, ih fun e he => h e (by simp [he])]
    cases hstart : e.isFlushStart <;> simp [countTimeout, hstart, he]

variable [Fintype Tid] [DecidableEq Tid]

/-- A timeout is the end of a timed wait of the worker, and it has only to return. -/
theorem Coherent.timeout_step (hcoh : Coherent s) (hstep : s.step host a = some (s', fs))
    {e : LoggerEvent Tid} (he : e ∈ fs) (hout : e.isTimeout = true) :
    ∃ alloc nf timeout op, a = .queue (.run none alloc true) ∧ fs = [.queue none .timedOut] ∧
      s.worker = .popping nf (some timeout) ∧ s.call none = some ⟨op, .notEmptyWait false⟩ ∧
      s'.worker = s.worker ∧ s'.settings = s.settings ∧ s'.call none = some ⟨op, .ret .none⟩ := by
  cases loggerStep_move hstep with
  | begin request hidle =>
    split_ifs at he <;> simp at he
    subst he
    cases hout
  | app hmove heffect =>
    have hqueue := List.filterMap_eq_nil_iff.mp hmove.queueEvents.1 e he
    cases e <;> first | cases hout | cases hqueue
  | work hmove heffect => simp [hmove.no_timeout e he] at hout
  | @queue b queues qes hb hqstep =>
    obtain ⟨qe, hqe, rfl⟩ := List.mem_map.mp he
    have hactor : b.actor = none ∧ qe = .timedOut := by
      unfold LoggerEvent.isTimeout at hout
      split at hout <;> simp_all
    obtain ⟨t, alloc, m, timeout, rfl, rfl, hcall, hcall'⟩ := timedOut_step hqstep (hactor.2 ▸ hqe)
    obtain rfl : t = none := hactor.1
    have hlinked := hcoh.workerLinked
    rw [show s.call none = _ from hcall] at hlinked
    obtain ⟨nf, hpc⟩ : ∃ nf, s.worker = .popping nf (some timeout) := by
      revert hlinked
      cases s.worker with
      | popping nf timeout' => cases timeout' <;> simp +contextual [WorkerPc.queueOp]
      | _ => simp [WorkerPc.queueOp]
    exact ⟨alloc, nf, timeout, _, rfl, rfl, hpc, hcall, rfl, rfl, hcall'⟩

/-- Nobody but the worker touches a removal that has only to return. -/
theorem call_ret_stays (hstep : s.step host a = some (s', fs)) (ha : ∀ ok now, a ≠ .work ok now)
    {op : QueueOp (Entry Tid)} {r : QueueReturn (Entry Tid)}
    (hc : s.call none = some ⟨op, .ret r⟩) : s'.call none = some ⟨op, .ret r⟩ := by
  cases loggerStep_move hstep with
  | begin request hidle => exact hc
  | app hmove heffect => exact (apply_call_other heffect (by simp)).trans hc
  | work => exact absurd rfl (ha _ _)
  | queue hb hqstep => exact ret_stays hqstep hb hc

/-! ## The step lemma -/

omit [Fintype Tid] [DecidableEq Tid] in
/-- Time passes, and the others leave the worker alone. -/
theorem WorkerPc.Waits.stays (h : pc.Waits c n)
    (hpolicy : c'.logger.flushPolicy = c.logger.flushPolicy) (hnow : c.now ≤ c'.now)
    (hwaitEnd : c'.waitEnd = c.waitEnd)
    (hcall : ∀ op, c.logger.call none = some ⟨op, .ret .none⟩ →
      c'.logger.call none = some ⟨op, .ret .none⟩) : pc.Waits c' n := by
  unfold WorkerPc.Waits at h ⊢
  split at h
  · obtain ⟨htimed, hcount⟩ := h
    rw [hpolicy, hwaitEnd]
    refine ⟨htimed, hcount.imp_right ?_⟩
    rintro ⟨hn, htimeout, hdue, op, hc⟩
    exact ⟨hn, htimeout, hdue.trans hnow, op, hcall op hc⟩
  · rw [hpolicy]
    exact h.imp_right fun ⟨hn, hperiodic, hdue⟩ => ⟨hn, hperiodic, hdue.trans hnow⟩
  · exact h
  · exact h

omit [Fintype Tid] [DecidableEq Tid] in
/-- The worker's own step. -/
theorem WorkerMove.waits (h : WorkerMove host c.logger ok now pc pc' effect fs)
    (hwaits : pc.Waits c n) (hsinks : c.logger.sinks ≠ [])
    (hpolicy : c'.logger.flushPolicy = c.logger.flushPolicy) (hforward : c.now ≤ now)
    (hnow : c'.now = now)
    (hwait : ∀ nf, pc = .loop nf → c.logger.flushPolicy = .Periodic → nf ≤ c'.waitEnd) :
    pc'.Waits c' (if fs.any LoggerEvent.isFlushStart then 0 else n) := by
  have hlength : 0 < c.logger.sinks.length := List.length_pos_of_ne_nil hsinks
  cases h with
  | @popBatchFor nf hp => exact ⟨fun _ => ⟨hpolicy.trans hp, hwait nf rfl hp⟩, .inl hwaits⟩
  | popBatch => exact ⟨by simp, .inl hwaits⟩
  | @took nf timeout op batch hc =>
    rcases hwaits.2 with rfl | ⟨-, -, -, op', hc'⟩
    · rfl
    · simp [hc] at hc'
  | @popThrew nf timeout op hc =>
    rcases hwaits.2 with rfl | ⟨-, -, -, op', hc'⟩
    · rfl
    · simp [hc] at hc'
  | tookNothing =>
    rcases hwaits.2 with rfl | ⟨rfl, htimeout, hdue, -⟩
    · exact .inl rfl
    · exact .inr ⟨rfl, hpolicy.trans (hwaits.1 htimeout).1, by omega⟩
  | @idleFlush nf =>
    have hidle : (WorkerPc.idle nf : WorkerPc Tid).Waits c n := hwaits
    exact hidle.le_one
  | idle hp =>
    rcases hwaits with rfl | ⟨-, hperiodic, hdue⟩
    · rfl
    · exact absurd ⟨hperiodic, by omega⟩ hp
  | @flush site k hk =>
    cases k with
    | zero => cases site <;> rfl
    | succ k => cases site <;> exact hwaits
  | @idleFlushed k hk =>
    cases k with
    | zero => omega
    | succ k => exact hwaits
  | @flushed site k | @flushThrew site k => cases site <;> cases k <;> exact hwaits
  | _ => exact hwaits

/-- The count after a step, and what it means for the worker. -/
theorem WorkerPc.Waits.step (h : c.logger.worker.Waits c n) (heq : Equipped c.logger)
    (hforward : Forward c x) (hpatient : Patient c x) (hwhole : WholeMilliseconds c x)
    (hstep : c.step host x = some (c', es)) :
    c'.logger.worker.Waits c' (es.foldl countTimeout n) := by
  obtain ⟨fs, hstep⟩ := clocked_step hstep
  obtain ⟨hlogger, rfl, hnow, -, hwaitEnd⟩ := hstep
  by_cases hout : ∃ e ∈ fs, e.isTimeout = true
  · obtain ⟨e, he, hout⟩ := hout
    obtain ⟨alloc, nf, timeout, op, ha, rfl, hpc, hcall, hpc', hsettings, hcall'⟩ :=
      heq.coherent.timeout_step hlogger he hout
    have hx := LoggerAction.at_eq_queue ha
    have hdue : c.waitEnd ≤ x.now := hpatient alloc hx
    rw [hx] at hwaitEnd
    rw [hpc] at h
    rw [hpc', hpc]
    obtain ⟨htimed, rfl | ⟨-, -, -, op', hret⟩⟩ := h
    · obtain ⟨hperiodic, hend⟩ := htimed (by simp)
      refine ⟨fun _ => ⟨(congrArg Settings.flushPolicy hsettings).trans hperiodic, ?_⟩,
        .inr ⟨rfl, by simp, by omega, op, hcall'⟩⟩
      rw [hwaitEnd]
      exact hend
    · simp [hcall] at hret
  · have hquiet : ∀ e ∈ fs, e.isTimeout = false := by simpa using hout
    rw [foldl_countTimeout_quiet hquiet]
    have hunstarted : Unworked fs → fs.any LoggerEvent.isFlushStart = false := by
      intro hes
      refine List.any_eq_false.mpr fun e he => ?_
      have := hes e he
      cases e <;> simp_all [LoggerEvent.byWorker, LoggerEvent.isFlushStart]
    cases heq.coherent.worker_view hlogger with
    | @moved ok now effect ha hmove hsettings =>
      obtain ⟨rfl, reported, hx⟩ := LoggerAction.at_eq_work ha
      have hlive : c.logger.worker.isAbsent = false := hmove.live
      refine hmove.waits h (heq.sinks hlive) (congrArg Settings.flushPolicy hsettings) hforward
        hnow fun nf hpc hperiodic => ?_
      have hleft : x.now < nf → 10 ^ 6 ∣ nf - x.now := by
        intro hlt
        exact hwhole _ (by simp [ClockedState.timeLeft, hx, hpc, hperiodic, hlt])
      rw [hwaitEnd]
      simpa [LoggerState.waitsUntil, hx, hpc] using le_waitTimeout hleft
    | launched _ hs hs' _ hes | joined hs hs' _ hes | absent hs hs' hes =>
      rw [hs] at h
      rw [hs', hunstarted hes]
      exact h
    | stayed ha hworker hsettings hes =>
      rw [hworker, hunstarted hes]
      rw [LoggerState.waitsUntil_other ha] at hwaitEnd
      exact h.stays (congrArg Settings.flushPolicy hsettings) (hnow ▸ hforward) hwaitEnd
        fun op => call_ret_stays hlogger ha

/-- The count of a run. -/
theorem reaches_waits {start : ℤ}
    (h : (clockedSystem host).Run
      (fun c x => Forward c x ∧ Patient c x ∧ WholeMilliseconds c x) (.initial start) es c) :
    c.logger.worker.Waits c (timeoutsSinceFlush es) := by
  refine (h.attach fun _ _ => clocked_equipped).monitored countTimeout
    (I := fun n c => c.logger.worker.Waits c n) rfl ?_
  rintro n c x c' fs hwaits ⟨⟨hforward, hpatient, hwhole⟩, heq⟩ hstep
  exact hwaits.step heq hforward hpatient hwhole hstep

/-- The timeout covers the time left exactly when that is a whole number of milliseconds.
In a run where it always is, an iteration that has timed out has flushed before it looks at
the queue again, and between two flushes there is at most one timeout. -/
theorem timed_waits {start : ℤ}
    (h : (clockedSystem host).Run
      (fun c x => Forward c x ∧ Patient c x ∧ WholeMilliseconds c x) (.initial start) es c) :
    (∀ now nextFlush, now < nextFlush →
        ((0 < waitTimeout now nextFlush ∧
            nextFlush - now ≤ waitTimeout now nextFlush * 10 ^ 6) ↔ 10 ^ 6 ∣ nextFlush - now)) ∧
      (∀ nextFlush, c.logger.worker = .checkClosed nextFlush → timeoutsSinceFlush es = 0) ∧
      ∀ fs c', (clockedSystem host).Run
          (fun c x => Forward c x ∧ Patient c x ∧ WholeMilliseconds c x) c fs c' →
        (∀ e ∈ fs, e.2.isFlushStart = false) → (fs.countP fun e => e.2.isTimeout) ≤ 1 := by
  refine ⟨fun now nf => waitTimeout_covers, fun nf hpc => ?_, fun fs c' hlater hquiet => ?_⟩
  · have hwaits := reaches_waits h
    rwa [hpc] at hwaits
  · have hwaits := (reaches_waits (h.trans hlater)).le_one
    rw [timeoutsSinceFlush, List.foldl_append, foldl_countTimeout _ hquiet] at hwaits
    omega

/-- A schedule at one moment. -/
def atTime (now : ℤ) (as : List (LoggerAction TwoThreads)) : List (ClockedAction TwoThreads) :=
  as.map (ClockedAction.mk now)

/-- The worker begins a wait at `now`, and the wait times out at `later`. -/
def idleSchedule (now later : ℤ) : List (ClockedAction TwoThreads) :=
  atTime now [.work true 0, .queue (.run none true false)] ++
    atTime later [.queue (.timeout none), .queue (.run none true true), .work true 0, .work true 0]

theorem timed_waits_one :
    ∃ es c fs c', (clockedSystem epochHost).Reaches (.initial 0) es c ∧
      (clockedSystem epochHost).Reaches c fs c' ∧ (∃ e ∈ fs, e.2.isTimeout = true) ∧
      c'.logger.worker = .flushing .idle 0 false ∧ (fs.countP fun e => e.2.isTimeout) ≤ 1 := by
  obtain ⟨es, c, fs, c', hrun, hlater, hout, hpc, hquiet⟩ :
      ∃ es c fs c',
        (clockedSystem epochHost).Run
          (fun c x => Forward c x ∧ Patient c x ∧ WholeMilliseconds c x) (.initial 0) es c ∧
        (clockedSystem epochHost).Run
          (fun c x => Forward c x ∧ Patient c x ∧ WholeMilliseconds c x) c fs c' ∧
        (∃ e ∈ fs, e.2.isTimeout = true) ∧ c'.logger.worker = .flushing .idle 0 false ∧
        ∀ e ∈ fs, e.2.isFlushStart = false :=
    ⟨_, _, _, _, .of_schedule (atTime 0 (initSchedule .first oneSink ++ [.work true 0])) (by decide),
      .of_schedule (idleSchedule 0 (10 ^ 9)) (by decide), by decide, by decide, by decide⟩
  exact ⟨es, c, fs, c', hrun.reaches, hlater.reaches, hout, hpc,
    (timed_waits hrun).2.2 fs c' hlater hquiet⟩

/-- The worker begins to wait one nanosecond after it has armed the deadline. The wait lasts
999 milliseconds, and the worker then waits for no time at all, again and again. -/
theorem idle_worker_polls :
    waitTimeout 999000001 (10 ^ 9) = 0 ∧
      ∃ es c fs c',
        (clockedSystem epochHost).Run (fun c x => Forward c x ∧ Patient c x) (.initial 0) es c ∧
        (clockedSystem epochHost).Run (fun c x => Forward c x ∧ Patient c x) c fs c' ∧
        (∀ e ∈ fs, e.2.isFlushStart = false) ∧ (fs.countP fun e => e.2.isTimeout) = 2 :=
  ⟨by decide, _, _, _, _,
    .of_schedule (atTime 0 (initSchedule .first oneSink ++ [.work true 0])) (by decide),
    .of_schedule (idleSchedule 1 999000001 ++ atTime 999000001 [.work true 0] ++
      idleSchedule 999000001 999000001) (by decide), by decide, by decide⟩

end CppLogger
