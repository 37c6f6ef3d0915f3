import CppLogger.Logger.FanOut

/-!
# What closing the queue leaves behind

Once a call of `close` has sent its two notifications nobody sleeps in the queue, and nobody
goes to sleep there until `init` resets it. A `stop` that waits for the worker relies on this,
and so does whoever is left when the worker has died.
-/

namespace CppLogger

variable {Tid : Type*}

/-- `stop` has closed the queue and waits for the worker, or closes the sinks. -/
def Frame.stopped : Frame Tid → Bool
  | .stopJoin | .stopSinks _ => true
  | _ => false

/-- The worker has closed the queue because of a failure. -/
def WorkerPc.failed : WorkerPc Tid → Bool
  | .flushing (.last true) _ _ | .finished true => true
  | _ => false

/-- The queue is closed and nobody sleeps in it. -/
def LoggerState.Silent (s : LoggerState Tid) : Prop := ∀ cv, s.queues.Quiet cv

/-- Whoever has closed the queue may rely on nobody sleeping in it. -/
structure Hushed (s : LoggerState Tid) : Prop where
  closers : ∀ who st, s.call who = some ⟨.close, st⟩ →
    (st = .notifyFull → s.queues.Quiet .notEmpty) ∧ ∀ r, st = .ret r → s.Silent
  stopped : ∀ t, (s.frames t).stopped = true → s.Silent
  failed : s.worker.failed = true → s.Silent

theorem Hushed.initial : Hushed (LoggerState.initial : LoggerState Tid) where
  closers := by rintro who st ⟨⟩
  stopped := by rintro t ⟨⟩
  failed := by rintro ⟨⟩

variable {host : Host Tid} {s s' : LoggerState Tid} {t : Tid} {ok : Bool} {now : ℤ}
variable {f f' : Frame Tid} {pc pc' : WorkerPc Tid} {effect : Effect Tid}
variable {es fs : List (LoggerEvent Tid)} {who : Option Tid}

/-- A call of `close` that has run its section finds the queue closed. -/
theorem Coherent.closed_by (hcoh : Coherent s) {st : Stage (Entry Tid)}
    (hc : s.call who = some ⟨.close, st⟩) (hst : Call.entered (⟨.close, st⟩ : Call (Entry Tid)) = true) :
    s.queue.closed = true := by
  have hpast : s.past who = true := by simp [LoggerState.past, hc, hst]
  cases who with
  | none =>
    have hw := hcoh.worker
    rcases WorkerPc.queueOp_cases (hcoh.op_worker hc) with ⟨-, -, -, hn⟩ | ⟨final, hpc, -⟩
    · cases hn
    · rw [hpc] at hw
      exact hw.2 hpast
  | some t =>
    have hf := hcoh.frames t
    rcases Frame.queueOp_cases (hcoh.op_frame hc) with ⟨g, entry, -, hn⟩ | ⟨config, -, hn⟩ |
      ⟨heq | heq, -⟩
    · cases hn
    · cases hn
    · rw [heq] at hf
      exact hf.2.2 hpast
    · rw [heq] at hf
      exact hf.2 hpast

theorem Frame.stopped_exclusive (h : f.stopped = true) : f.exclusive = true := by
  cases f <;> first | rfl | cases h

variable [Fintype Tid] [DecidableEq Tid]

section QueueSteps

variable {a : QueueAction (Entry Tid) (Option Tid)}
variable {queues : QueueState (Entry Tid) (Option Tid)} {qes : List (QueueEvent (Entry Tid))}

theorem Hushed.closers_step (h : Hushed s) (hcoh : Coherent s)
    (hstep : s.queues.step a = some (queues, qes)) (hreset : .reset ∉ qes)
    {st : Stage (Entry Tid)} (hc : queues.calls who = some ⟨.close, st⟩) :
    (st = .notifyFull → queues.Quiet .notEmpty) ∧ ∀ r, st = .ret r → ∀ cv, queues.Quiet cv := by
  rcases close_step hcoh.fitting hstep hc with hold | rfl | ⟨r, rfl⟩ |
    ⟨rfl, ⟨r, hold⟩, hawake⟩ | ⟨hold, hawake⟩
  · obtain ⟨hfirst, hboth⟩ := h.closers who st hold
    exact ⟨fun hst => quiet_step hstep (hfirst hst) hreset,
      fun r hst cv => quiet_step hstep (hboth r hst cv) hreset⟩
  · simp
  · simp
  · have hclosed := closed_step hstep (hcoh.closed_by hold rfl) hreset
    exact ⟨fun _ => ⟨hclosed, hawake⟩, by simp⟩
  · have hfirst := quiet_step hstep ((h.closers who _ hold).1 rfl) hreset
    refine ⟨fun _ => hfirst, fun _ _ cv => ?_⟩
    cases cv with
    | notEmpty => exact hfirst
    | notFull => exact ⟨hfirst.1, hawake⟩

theorem silent_step (h : s.Silent) (hstep : s.queues.step a = some (queues, qes))
    (hreset : .reset ∉ qes) (cv : CondVar) : queues.Quiet cv :=
  quiet_step hstep (h cv) hreset

theorem Hushed.queue_step (h : Hushed s) (hcoh : Coherent s) (ha : a.internal = true)
    (hstep : s.queues.step a = some (queues, qes)) : Hushed { s with queues := queues } := by
  rcases hcoh.queue_cases ha hstep with ⟨-, habsent, t, config, -, ht⟩ | hcases
  · -- `reset` runs under the lock and without a worker: there is nobody else to rely on it
    have hcoh' := hcoh.queue_step ha hstep
    have hex : (s.frames t).exclusive = true := by rw [ht]; rfl
    refine ⟨fun who st hc => ?_, fun u hu => ?_, fun hw => ?_⟩
    · rcases (hcoh'.closing hc rfl).2 with ⟨-, hlive⟩ | ⟨u, rfl, hu⟩
      · simp [habsent, WorkerPc.isAbsent] at hlive
      · by_cases hut : t = u
        · subst hut
          have hop := hcoh'.op_frame hc
          dsimp only at hop
          rw [ht] at hop
          cases hop
        · exact absurd hu (by simp [(hcoh.exclusion t u hut hex).1])
    · dsimp only at hu
      by_cases hut : t = u
      · subst hut
        rw [ht] at hu
        cases hu
      · exact absurd (Frame.stopped_exclusive hu) (by simp [(hcoh.exclusion t u hut hex).1])
    · simp [habsent, WorkerPc.failed] at hw
  · have hreset : .reset ∉ qes := by
      rcases hcases with ⟨hreset, -⟩ | ⟨vs, -, rfl, -⟩
      · exact hreset
      · simp
    exact ⟨fun who st hc => h.closers_step hcoh hstep hreset hc,
      fun u hu cv => silent_step (h.stopped u hu) hstep hreset cv,
      fun hw cv => silent_step (h.failed hw) hstep hreset cv⟩

end QueueSteps

/-- The beginning and the end of an operation wake nobody and put nobody to sleep. -/
theorem Hushed.apply (h : Hushed s) (hcoh : Coherent s) (heffect : s.apply who effect = some s') :
    (s.Silent → s'.Silent) ∧ ∀ other st, s'.call other = some ⟨.close, st⟩ →
      (st = .notifyFull → s'.queues.Quiet .notEmpty) ∧ ∀ r, st = .ret r → s'.Silent := by
  rcases apply_step heffect with hq | ⟨op, -, hq⟩ | ⟨-, hq⟩
  · unfold LoggerState.Silent LoggerState.call
    rw [hq]
    exact ⟨id, h.closers⟩
  all_goals
    exact ⟨fun hs cv => silent_step hs hq (by simp) cv,
      fun other st hc => h.closers_step hcoh hq (by simp) hc⟩

omit [DecidableEq Tid] in
theorem AppMove.stopped (h : AppMove s t ok now f f' effect es) (hf : f'.stopped = true) :
    f.stopped = true ∨ f = .stopClosing ∧ ∃ op r, s.call (some t) = some ⟨op, .ret r⟩ := by
  cases h with
  | stopClosing hc => exact .inr ⟨rfl, _, _, hc⟩
  | stopAbsent | stopJoin | stopSinks => exact .inl rfl
  | _ => cases hf

theorem Hushed.app (h : Hushed s) (hcoh : Coherent s)
    (hmove : AppMove s t ok now (s.frames t) f' effect es)
    (heffect : s.apply (some t) effect = some s') :
    Hushed { s' with frames := Function.update s'.frames t f' } := by
  obtain ⟨hsilent, hclosers⟩ := h.apply hcoh heffect
  refine ⟨hclosers, fun u hu => ?_, fun hw => ?_⟩
  · refine hsilent ?_
    dsimp only at hu
    by_cases hut : u = t
    · subst hut
      rw [Function.update_self] at hu
      rcases hmove.stopped hu with hold | ⟨hf, op, r, hc⟩
      · exact h.stopped u hold
      · have hop := hcoh.op_frame hc
        rw [hf] at hop
        obtain rfl := Option.some.inj hop
        exact (h.closers _ _ hc).2 r rfl
    · rw [Function.update_of_ne hut, apply_frames heffect] at hu
      exact h.stopped u hu
  · refine hsilent (h.failed ?_)
    have hworker := apply_worker heffect
    dsimp only at hw
    rw [hworker] at hw
    cases effect <;> first | exact hw | cases hw

omit [Fintype Tid] [DecidableEq Tid] in
theorem WorkerMove.failed (h : WorkerMove host s ok now pc pc' effect es) (hpc : pc'.failed = true) :
    pc.failed = true ∨ ∃ final op r, pc = .closing final ∧ s.call none = some ⟨op, .ret r⟩ := by
  cases h with
  | closing hc | closingFinal hc => exact .inr ⟨_, _, _, rfl, hc⟩
  | @flush site | @flushed site =>
    cases site with
    | last failed => cases failed <;> first | exact .inl rfl | cases hpc
    | _ => cases hpc
  | @lastFlushed failed => exact .inl (by cases failed <;> first | rfl | cases hpc)
  | _ => cases hpc

theorem Hushed.work (h : Hushed s) (hcoh : Coherent s)
    (hmove : WorkerMove host s ok now s.worker pc' effect es)
    (heffect : s.apply none effect = some s') : Hushed { s' with worker := pc' } := by
  obtain ⟨hsilent, hclosers⟩ := h.apply hcoh heffect
  have hframes : s'.frames = s.frames := apply_frames heffect
  refine ⟨hclosers, fun u hu => hsilent (h.stopped u (hframes ▸ hu)), fun hw => hsilent ?_⟩
  rcases hmove.failed hw with hold | ⟨final, op, r, hpc, hc⟩
  · exact h.failed hold
  · have hop := hcoh.op_worker hc
    rw [hpc] at hop
    obtain rfl := Option.some.inj hop
    exact (h.closers _ _ hc).2 r rfl

theorem Hushed.step (h : Hushed s) (hcoh : Coherent s) {a : LoggerAction Tid}
    (hstep : s.step host a = some (s', es)) : Hushed s' := by
  cases loggerStep_move hstep with
  | @begin t request hidle =>
    refine ⟨h.closers, fun u hu => ?_, h.failed⟩
    dsimp only at hu
    by_cases hut : u = t
    · subst hut
      rw [Function.update_self] at hu
      cases request <;> cases hu
    · rw [Function.update_of_ne hut] at hu
      exact h.stopped u hu
  | app hmove heffect => exact h.app hcoh hmove heffect
  | work hmove heffect => exact h.work hcoh hmove heffect
  | queue ha hqstep => exact h.queue_step hcoh ha hqstep

/-! ## After a failure -/

omit [Fintype Tid] [DecidableEq Tid] in
/-- A push that looks at a closed queue returns `Closed` and leaves the queue alone. -/
theorem Outcome.closed_push {T : Type*} {q : BlockingQueue T} {alloc : Bool} {e : Option ℕ} {v : T}
    {st : Stage T} {sec : Section T} (h : Outcome q alloc (.push e v) st sec)
    (hclosed : q.closed = true) : sec = ⟨q, .ret (.pushed .Closed), [.pushed v .Closed]⟩ := by
  cases h with
  | rejected => rfl
  | sleepsFull hopen | enqueued hopen | pushThrew hopen | droppedNewest hopen
  | droppedOldest hopen | abandoned hopen => simp [hclosed] at hopen
  | zeroBatch hop => simp at hop
  | ended hop | took hop | popThrew hop | sleepsEmpty hop => cases hop

/-- The worker of the current lifecycle has died of a failure. -/
def Died (history : List (LoggerEvent Tid)) : Prop := .workerFinished true ∈ history

/-- What the failure of the worker leaves behind. -/
def LoggerState.Dead (s : LoggerState Tid) : Prop := s.running = false ∧ s.Silent

omit [Fintype Tid] [DecidableEq Tid] in
theorem Died.append (h : Died (es ++ fs)) (hfs : .workerFinished true ∉ fs) : Died es :=
  (List.mem_append.mp h).resolve_right hfs

omit [DecidableEq Tid] in
theorem AppMove.not_died (h : AppMove s t ok now f f' effect es) : .workerFinished true ∉ es := by
  cases h <;> simp

theorem LoggerState.Dead.app (h : s.Dead) (hush : Hushed s) (hcoh : Coherent s)
    (hmove : AppMove s t ok now (s.frames t) f' effect es)
    (heffect : s.apply (some t) effect = some s') :
    LoggerState.Dead { s' with frames := Function.update s'.frames t f' } := by
  refine ⟨?_, (hush.apply hcoh heffect).1 h.2⟩
  have hrunning : s'.running = (effect.onView s.view).running :=
    congrArg View.running (apply_view heffect)
  change s'.running = false
  rw [hrunning]
  have hsound := hcoh.frames t
  generalize s.frames t = f at hmove hsound
  cases hmove with
  | initRunning =>
    -- `init` has just reset the queue
    have hopen : s.queue.closed = false := hsound.2.2
    have hclosed : s.queue.closed = true := (h.2 .notFull).1
    simp [hclosed] at hopen
  | initUnspawn | stopRunning => rfl
  | _ => exact h.1

theorem LoggerState.Dead.work (h : s.Dead) (hush : Hushed s) (hcoh : Coherent s)
    (hmove : WorkerMove host s ok now s.worker pc' effect es)
    (heffect : s.apply none effect = some s') :
    LoggerState.Dead { s' with worker := pc' } := by
  refine ⟨?_, (hush.apply hcoh heffect).1 h.2⟩
  have hrunning : s'.running = (effect.onView s.view).running :=
    congrArg View.running (apply_view heffect)
  change s'.running = false
  rw [hrunning]
  rcases (hmove.onView s.view).2.2.1 with heq | heq <;> rw [heq]
  exact h.1

omit [Fintype Tid] [DecidableEq Tid] in
/-- When the worker reports its failure, the queue is closed and nobody sleeps. -/
theorem Hushed.dies (h : Hushed s) (hcoh : Coherent s)
    (hmove : WorkerMove host s ok now s.worker pc' effect es) (hdied : Died es) : s.Dead := by
  have hsound := hcoh.worker
  have hclosing : ∀ final op r, s.worker = .closing final → s.call none = some ⟨op, .ret r⟩ →
      s.Silent := by
    intro final op r hpc hc
    have hop := hcoh.op_worker hc
    rw [hpc] at hop
    obtain rfl := Option.some.inj hop
    exact (h.closers _ _ hc).2 r rfl
  have hfailed := h.failed
  unfold Died at hdied
  generalize s.worker = pc at hmove hsound hclosing hfailed
  cases hmove with
  | lastFlushed =>
    obtain rfl : true = _ := by simpa using hdied
    exact ⟨hsound.2 rfl, hfailed rfl⟩
  | closingFinal hc => exact ⟨hsound.1, hclosing _ _ _ rfl hc⟩
  | _ => simp at hdied

theorem Hushed.died_step (h : Hushed s) (hcoh : Coherent s) (hdead : Died (lifecycle es) → s.Dead)
    {a : LoggerAction Tid} (hstep : s.step host a = some (s', fs))
    (hdied : Died (lifecycle (es ++ fs))) : s'.Dead := by
  rw [lifecycle_append] at hdied
  cases loggerStep_move hstep with
  | begin request =>
    rw [foldl_afterLoggerEvent (by split_ifs <;> simp [LoggerEvent.isReset])] at hdied
    exact hdead (hdied.append (by split_ifs <;> simp))
  | app hmove heffect =>
    rw [foldl_afterLoggerEvent hmove.queueEvents.2.2.2] at hdied
    exact (hdead (hdied.append hmove.not_died)).app h hcoh hmove heffect
  | work hmove heffect =>
    rw [foldl_afterLoggerEvent hmove.queueEvents.2.2.2] at hdied
    rcases List.mem_append.mp hdied with hold | hnew
    · exact (hdead hold).work h hcoh hmove heffect
    · exact (h.dies hcoh hmove hnew).work h hcoh hmove heffect
  | @queue a queues qes ha hqstep =>
    by_cases hreset : .reset ∈ qes
    · rcases hcoh.queue_cases ha hqstep with ⟨rfl, -⟩ | ⟨hnot, -⟩ | ⟨vs, -, rfl, -⟩
      · cases hdied
      · exact absurd hreset hnot
      · simp at hreset
    · rw [foldl_afterLoggerEvent (queue_events_isReset hreset)] at hdied
      obtain ⟨hr, hsilent⟩ := hdead (hdied.append (by simp))
      exact ⟨hr, fun cv => silent_step hsilent hqstep hreset cv⟩

end CppLogger
