import CppLogger.Logger.Delivery

/-!
# A logger that has been stopped

Between the return of `stop` and the moment at which an `init` that may succeed takes the lock,
the queue keeps its contents, its counters and its generation, every push is refused, and no
sink is called, whatever the application asks for. The threads that are still inside `log`, a
second `stop` or an `init` that is rejected have nothing left that they could change.
-/

namespace CppLogger

variable {Tid : Type*}

/-- No `init` takes the lock whose configuration may be accepted. -/
def Unrevived (s : LoggerState Tid) : LoggerAction Tid → Prop
  | .app t _ _ =>
    match s.frames t with
    | .initEnter config => config.rejected = true
    | _ => True
  | _ => True

instance (s : LoggerState Tid) (a : LoggerAction Tid) : Decidable (Unrevived s a) := by
  unfold Unrevived
  split
  · split <;> infer_instance
  · infer_instance

/-- A frame that a thread may be in while the logger is stopped. -/
def Frame.inert : Frame Tid → Bool
  | .idle | .logEnter _ | .logRunning _ | .logCapture _ _ | .logPush _ _ | .setLevel _ => true
  | .initEnter _ | .stopEnter | .stopRunning | .stopCloseQueue | .stopClosing | .stopJoin => true
  | .stopSinks _ => true
  | .initCheck config => config.rejected
  | .initReturn result => !result
  | _ => false

/-- An event that a stopped logger may report: a refusal, or the end of a call. -/
def LoggerEvent.inert : LoggerEvent Tid → Bool
  | .logReturned _ | .stopCalled _ | .stopReturned _ => true
  | .queue (some _) (.pushed _ .Closed) => true
  | .queue (some _) .closed => true
  | .initReturned _ result => !result
  | _ => false

/-- The logger is stopped, with this queue. -/
structure Inert (q : BlockingQueue (Entry Tid)) (s : LoggerState Tid) : Prop where
  queue : s.queue = q
  closed : q.closed = true
  running : s.running = false
  absent : s.worker = .absent
  sinks : s.sinks = []
  frames : ∀ t, (s.frames t).inert = true

variable {s s' u : LoggerState Tid} {t : Tid} {ok : Bool} {now : ℤ} {f f' : Frame Tid}
variable {effect : Effect Tid} {es fs gs : List (LoggerEvent Tid)} {who : Option Tid}
variable {host : Host Tid} {a : LoggerAction Tid} {q : BlockingQueue (Entry Tid)}

/-- The effects that leave a stopped logger stopped. -/
def Effect.inert : Effect Tid → Bool
  | .skip | .setRunning false | .setMinLevel _ | .dropSinks | .call _ | .ret => true
  | _ => false

variable [Fintype Tid] [DecidableEq Tid]

/-! ## The steps -/

omit [DecidableEq Tid] in
theorem AppMove.inert (h : AppMove s t ok now f f' effect es) (hs : Inert q s)
    (hf : f.inert = true) (hinit : ∀ config, f = .initEnter config → config.rejected = true) :
    f'.inert = true ∧ effect.inert = true ∧ ∀ e ∈ es, e.inert = true := by
  have hrunning := hs.running
  have hsinks := hs.sinks
  have habsent := hs.absent
  cases h <;> simp_all [Frame.inert, Effect.inert, LoggerEvent.inert]

/-- Carried out on a stopped logger, such an effect changes nothing but the calls and the
level. -/
theorem apply_inert (h : s.apply who effect = some s') (hs : Inert q s)
    (heffect : effect.inert = true) : Inert q s' := by
  have hqueue : s'.queue = q := (apply_queues h).1.trans hs.queue
  have hframes : ∀ t, (s'.frames t).inert = true := by
    rw [apply_frames h]
    exact hs.frames
  have hworker := apply_worker h
  cases effect <;> simp only [LoggerState.apply, Option.some.injEq, Option.map_eq_some_iff] at h
  case skip | setMinLevel =>
    subst h
    exact ⟨hqueue, hs.closed, hs.running, hs.absent, hs.sinks, hframes⟩
  case setRunning running =>
    subst h
    cases running with
    | false => exact ⟨hqueue, hs.closed, rfl, hs.absent, hs.sinks, hframes⟩
    | true => cases heffect
  case dropSinks =>
    subst h
    exact ⟨hqueue, hs.closed, hs.running, hs.absent, rfl, hframes⟩
  case call | ret =>
    obtain ⟨r, -, rfl⟩ := h
    exact ⟨hqueue, hs.closed, hs.running, hs.absent, hs.sinks, hframes⟩
  all_goals cases heffect

/-- What a section does to a closed queue that nobody takes from. -/
theorem Outcome.inert {T : Type*} {q : BlockingQueue T} {alloc : Bool} {op : QueueOp T}
    {st : Stage T} {sec : Section T} (h : Outcome q alloc op st sec) (hclosed : q.closed = true)
    (hop : op = .close ∨ ∃ e v, op = .push e v) :
    sec.queue = q ∧ ∀ e ∈ sec.events, e = .closed ∨ ∃ v, e = .pushed v .Closed := by
  have hput : op.maxTaken = none := by rcases hop with rfl | ⟨e, v, rfl⟩ <;> rfl
  cases h with
  | rejected => exact ⟨rfl, by simp⟩
  | closes =>
    refine ⟨?_, by simp [BlockingQueue.close]⟩
    obtain ⟨queue, capacity, peak, generation, dropped, policy, closed, hpos⟩ := q
    subst hclosed
    rfl
  | sleepsFull hopen | enqueued hopen | pushThrew hopen | droppedNewest hopen
  | droppedOldest hopen | abandoned hopen | timedOut hopen => simp [hclosed] at hopen
  | zeroBatch => exact ⟨rfl, by simp⟩
  | ended htaken | took htaken | popThrew htaken | sleepsEmpty htaken => simp [hput] at htaken
  | resets => simp at hop

variable {b : QueueAction (Entry Tid) (Option Tid)}
variable {queues : QueueState (Entry Tid) (Option Tid)} {qes : List (QueueEvent (Entry Tid))}

/-- Inside the queue there are only pushes, which are refused, and calls of `close`. -/
theorem Inert.queue_step (h : Inert q s) (hcoh : Coherent s)
    (hstep : s.queues.step b = some (queues, qes)) :
    queues.queue = q ∧ ∀ e ∈ qes.map (LoggerEvent.queue b.actor), e.inert = true := by
  cases step_move hstep with
  | @run who alloc expired c sec hc hsec =>
    obtain ⟨t, rfl⟩ : ∃ t, who = some t := by
      cases who with
      | none =>
        have hop := hcoh.op_worker hc
        rw [h.absent] at hop
        cases hop
      | some t => exact ⟨t, rfl⟩
    have hframe := h.frames t
    have hop : c.op = .close ∨ ∃ e v, c.op = .push e v := by
      rcases Frame.queueOp_cases (hcoh.op_frame hc) with ⟨g, entry, -, hop⟩ | ⟨config, heq, -⟩ |
        ⟨-, hop⟩
      · exact .inr ⟨_, _, hop⟩
      · rw [heq] at hframe
        cases hframe
      · exact .inl hop
    have hclosed : s.queue.closed = true := by rw [h.queue, h.closed]
    obtain ⟨hqueue, hevents⟩ := hsec.inert hclosed hop
    refine ⟨hqueue.trans h.queue, fun e he => ?_⟩
    obtain ⟨x, hx, rfl⟩ := List.mem_map.mp he
    rcases hevents x hx with rfl | ⟨v, rfl⟩ <;> rfl
  | _ => exact ⟨h.queue, by simp⟩

/-- A step of the system that does not revive a stopped logger leaves it as it is. -/
theorem Inert.step (h : Inert q s) (hcoh : Coherent s) (hp : Unrevived s a)
    (hstep : s.step host a = some (s', es)) : Inert q s' ∧ ∀ e ∈ es, e.inert = true := by
  have hupdate : ∀ {frames : Tid → Frame Tid} {t : Tid} {f : Frame Tid},
      (∀ u, (frames u).inert = true) → f.inert = true →
        ∀ u, (Function.update frames t f u).inert = true := by
    intro frames t f hframes hf u
    by_cases hu : u = t
    · rw [hu, Function.update_self]
      exact hf
    · rw [Function.update_of_ne hu]
      exact hframes u
  cases loggerStep_move hstep with
  | begin request hidle =>
    refine ⟨⟨h.queue, h.closed, h.running, h.absent, h.sinks, hupdate h.frames ?_⟩, ?_⟩
    · cases request <;> rfl
    · split_ifs <;> simp [LoggerEvent.inert]
  | @app t ok now next effect es s₁ hmove heffect =>
    have hinit : ∀ config, s.frames t = .initEnter config → config.rejected = true := by
      intro config hframe
      simp only [Unrevived, hframe] at hp
      exact hp
    obtain ⟨hnext, hinert, hevents⟩ := hmove.inert h (h.frames t) hinit
    have happlied := apply_inert heffect h hinert
    exact ⟨⟨happlied.queue, h.closed, happlied.running, happlied.absent, happlied.sinks,
      hupdate happlied.frames hnext⟩, hevents⟩
  | work hmove =>
    rw [h.absent] at hmove
    cases hmove
  | queue hb hqstep =>
    obtain ⟨hqueue, hevents⟩ := h.queue_step hcoh hqstep
    exact ⟨⟨hqueue, h.closed, h.running, h.absent, h.sinks, h.frames⟩, hevents⟩

omit [Fintype Tid] [DecidableEq Tid] in
/-- A thread that does not hold the lock is no obstacle. -/
theorem Frame.inert_of_outside {f : Frame Tid} (h : f.exclusive = false ∧ f.shared = false) :
    f.inert = true := by
  cases f <;> simp_all [Frame.exclusive, Frame.shared, Frame.inert]

omit [DecidableEq Tid] in
theorem AppMove.stopReturned {v : Tid} (h : AppMove s t ok now f f' effect es)
    (hstop : .stopReturned v ∈ es) :
    (∃ k, f = .stopSinks k) ∧ f' = .idle ∧ effect = .dropSinks := by
  cases h <;> simp_all

omit [Fintype Tid] [DecidableEq Tid] in
theorem WorkerMove.not_stopReturned {pc pc' : WorkerPc Tid} {v : Tid}
    (h : WorkerMove host s ok now pc pc' effect es) : .stopReturned v ∉ es := by
  cases h <;> simp

/-- When `stop` returns, the logger is stopped. -/
theorem stopReturned_inert {v : Tid} (hcoh : Coherent s) (hstep : s.step host a = some (s', es))
    (hstop : .stopReturned v ∈ es) : Inert s'.queue s' := by
  cases loggerStep_move hstep with
  | begin request =>
    split_ifs at hstop
    · cases List.mem_singleton.mp hstop
    · cases hstop
  | @app t ok now next effect es s₁ hmove heffect =>
    obtain ⟨⟨k, hframe⟩, rfl, rfl⟩ := hmove.stopReturned hstop
    have hsound := hcoh.frames t
    rw [hframe] at hsound
    obtain ⟨hrunning, habsent, hclosed⟩ := hsound
    have hothers : ∀ u, u ≠ t → (s.frames u).inert = true := fun u hu =>
      Frame.inert_of_outside (hcoh.exclusion t u hu.symm (by rw [hframe]; rfl))
    cases heffect
    refine ⟨rfl, hclosed, hrunning, WorkerPc.eq_absent habsent, rfl, fun u => ?_⟩
    change (Function.update s.frames t .idle u).inert = true
    by_cases hu : u = t
    · rw [hu, Function.update_self]
      rfl
    · rw [Function.update_of_ne hu]
      exact hothers u hu
  | work hmove => exact absurd hstop hmove.not_stopReturned
  | queue => simp at hstop

/-! ## A stopped logger stays stopped -/

/-- From the return of `stop` on, and until an `init` that may be accepted takes the lock, the
queue stays as it is, closed and with its contents, its drop counter, its peak and its
generation; there is no worker and no sink; and all that happens is that calls end, that
pushes are refused and that `stop` closes the queue once more. -/
theorem stopped_logger_inert {v : Tid} (h : (loggerSystem host).Reaches .initial es s)
    (hstep : s.step host a = some (s', fs)) (hstop : .stopReturned v ∈ fs)
    (hrun : (loggerSystem host).Run Unrevived s' gs u) :
    u.queue = s'.queue ∧ u.queue.closed = true ∧ u.running = false ∧ u.worker = .absent ∧
      u.sinks = [] ∧ ∀ e ∈ gs, e.inert = true := by
  have hcoh := reaches_coherent h
  have hstopped := stopReturned_inert hcoh hstep hstop
  have hinert : (Inert s'.queue u ∧ Coherent u) ∧ ∀ e ∈ gs, e.inert = true := by
    refine hrun.invariant (I := fun gs u => (Inert s'.queue u ∧ Coherent u) ∧
      ∀ e ∈ gs, e.inert = true) ⟨⟨hstopped, hcoh.step hstep⟩, by simp⟩ ?_
    rintro gs u a u' fs ⟨⟨hinert, hcoh⟩, hgs⟩ hp hstep
    obtain ⟨hinert', hfs⟩ := hinert.step hcoh hp hstep
    refine ⟨⟨hinert', hcoh.step hstep⟩, fun e he => ?_⟩
    rcases List.mem_append.mp he with he | he
    · exact hgs e he
    · exact hfs e he
  obtain ⟨⟨hu, -⟩, hgs⟩ := hinert
  exact ⟨hu.queue, hu.queue ▸ hu.closed, hu.running, hu.absent, hu.sinks, hgs⟩

/-- Held up before its push, a thread finds the queue closed; its `init` asks for no capacity,
and its next record is not captured. -/
def afterStopSchedule : List (LoggerAction TwoThreads) :=
  [.queue (.run (some .second) true false), .app .second true 0] ++
    .begin .second (.init { oneSink with queueCapacity := 0 }) ::
      List.replicate 3 (.app .second true 0) ++
    .begin .second (.log .FATAL none 2 []) :: List.replicate 2 (.app .second true 0)

theorem stopped_logger_inert_refused :
    ∃ es s s' fs gs u, (loggerSystem epochHost).Reaches .initial es s ∧
      s.step epochHost (.app .first true 0) = some (s', fs) ∧
      (loggerSystem epochHost).Run Unrevived s' gs u ∧
      (∃ entry, .queue (some .second) (.pushed entry .Closed) ∈ gs) ∧
      .initReturned .second false ∈ gs ∧ u.queue = s'.queue ∧ ∀ e ∈ gs, e.inert = true := by
  obtain ⟨es, s, s', fs, gs, u, h, hstep, hstop, hrun, hpushed, hinit⟩ :
      ∃ es s s' fs gs u, (loggerSystem epochHost).Reaches .initial es s ∧
        s.step epochHost (.app .first true 0) = some (s', fs) ∧ .stopReturned .first ∈ fs ∧
        (loggerSystem epochHost).Run Unrevived s' gs u ∧
        (∃ entry, .queue (some .second) (.pushed entry .Closed) ∈ gs) ∧
        .initReturned .second false ∈ gs :=
    ⟨_, _, _, _, _, _, .of_schedule (initSchedule .first oneSink ++ logSchedule .second ++
        (stopSchedule .first).dropLast) (by decide), rfl, by decide,
      .of_schedule afterStopSchedule (by decide), ⟨_, List.mem_cons_self⟩, by decide⟩
  obtain ⟨hqueue, -, -, -, -, hinert⟩ := stopped_logger_inert h hstep hstop hrun
  exact ⟨es, s, s', fs, gs, u, h, hstep, hrun, hpushed, hinit, hqueue, hinert⟩

end CppLogger
