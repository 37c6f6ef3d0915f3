import CppLogger.Logger.FanOut

/-!
# What the worker sees of a step

The settings of a lifecycle come from one accepted configuration and do not change while
there is a worker. Whatever the other threads do, the worker is started, joined or left
alone, and only its own steps call the sinks.
-/

namespace CppLogger

variable {Tid : Type*}

/-- The members that `workerLoop` reads. -/
structure Settings where
  sinks : List Sink
  writeBatchSize : ℕ
  flushPolicy : FlushPolicy
  flushInterval : ℤ
  flushAtOrAbove : Option LogLevel
  deriving DecidableEq, Repr

def LoggerState.settings (s : LoggerState Tid) : Settings :=
  ⟨s.sinks, s.writeBatchSize, s.flushPolicy, s.flushInterval, s.flushAtOrAbove⟩

def LoggerConfig.settings (config : LoggerConfig) : Settings :=
  ⟨config.newSinks, config.writeBatchSize, config.flushPolicy, config.flushInterval,
    config.flushAtOrAbove⟩

/-- The event is the beginning or the end of a call of a sink by the worker, or its end. -/
def LoggerEvent.byWorker : LoggerEvent Tid → Bool
  | .write _ _ _ | .wrote _ _ | .flush _ | .flushed _ _ | .workerFinished _ => true
  | _ => false

/-- Nothing in the events is the worker's. -/
def Unworked (es : List (LoggerEvent Tid)) : Prop := ∀ e ∈ es, e.byWorker = false

/-- A step of the system from the worker's point of view. -/
inductive WorkerView (host : Host Tid) (s : LoggerState Tid) (a : LoggerAction Tid)
    (s' : LoggerState Tid) (es : List (LoggerEvent Tid)) : Prop
  | moved {ok : Bool} {now : ℤ} {effect : Effect Tid} (ha : a = .work ok now)
      (hmove : WorkerMove host s ok now s.worker s'.worker effect es)
      (hsettings : s'.settings = s.settings)
  | launched {t : Tid} (hspawn : s.frames t = .initSpawn) (hs : s.worker = .absent)
      (hs' : s'.worker = .reserve) (hsettings : s'.settings = s.settings) (hes : Unworked es)
  | joined {failed : Bool} (hs : s.worker = .finished failed) (hs' : s'.worker = .absent)
      (hsettings : s'.settings = s.settings) (hes : Unworked es)
  | absent (hs : s.worker = .absent) (hs' : s'.worker = .absent) (hes : Unworked es)
  | stayed (ha : ∀ ok now, a ≠ .work ok now) (hworker : s'.worker = s.worker)
      (hsettings : s'.settings = s.settings) (hes : Unworked es)

variable {s s' : LoggerState Tid} {t : Tid} {ok : Bool} {now : ℤ} {f f' : Frame Tid}
variable {effect : Effect Tid} {es : List (LoggerEvent Tid)} {who : Option Tid}
variable {host : Host Tid} {pc pc' : WorkerPc Tid} {a : LoggerAction Tid}

theorem AppMove.unworked [Fintype Tid] (h : AppMove s t ok now f f' effect es) : Unworked es := by
  cases h <;> simp [Unworked, LoggerEvent.byWorker]

theorem WorkerMove.live (h : WorkerMove host s ok now pc pc' effect es) : pc.isAbsent = false := by
  cases h <;> rfl

variable [Fintype Tid] [DecidableEq Tid]

theorem apply_sameAll (h : s.apply who effect = some s') (hkeeps : effect.keepsSettings = true) :
    s'.settings = s.settings := by
  cases effect <;> simp only [LoggerState.apply, Option.some.injEq, Option.map_eq_some_iff] at h
  case configure | dropSinks => cases hkeeps
  case call | ret =>
    obtain ⟨r, -, rfl⟩ := h
    rfl
  all_goals subst h; rfl

omit [DecidableEq Tid] in
theorem AppMove.joins (h : AppMove s t ok now f f' .join es) :
    ∃ failed, s.worker = .finished failed := by
  cases h with
  | initJoin hw | stopJoin hw => exact ⟨_, hw⟩

/-- Every step starts the worker, joins it, is its own, or leaves it alone. -/
theorem Coherent.worker_view (hcoh : Coherent s) (hstep : s.step host a = some (s', es)) :
    WorkerView host s a s' es := by
  cases loggerStep_move hstep with
  | begin request hidle =>
    refine .stayed (by simp) rfl rfl ?_
    split_ifs <;> simp [Unworked, LoggerEvent.byWorker]
  | @app t ok now next effect es s₁ hmove heffect =>
    have hworker := apply_worker heffect
    have hes := hmove.unworked
    rcases hmove.fanOut_cases (hcoh.frames t) with ⟨config, -, -, rfl, -, habsent⟩ |
      ⟨-, ⟨hframe, rfl⟩ | rfl | ⟨rfl, habsent, -⟩ | ⟨hkeeps, hkeepsWorker⟩⟩
    · exact .absent habsent (hworker.trans habsent) hes
    · have hsound := hcoh.frames t
      rw [hframe] at hsound
      have hsettings : s₁.settings = s.settings := apply_sameAll heffect rfl
      exact .launched hframe (WorkerPc.eq_absent hsound.2.1) hworker hsettings hes
    · obtain ⟨failed, hw⟩ := hmove.joins
      have hsettings : s₁.settings = s.settings := apply_sameAll heffect rfl
      exact .joined hw hworker hsettings hes
    · exact .absent habsent (hworker.trans habsent) hes
    · have hsettings : s₁.settings = s.settings := apply_sameAll heffect hkeeps
      exact .stayed (by simp) (hworker.trans (hkeepsWorker _)) hsettings hes
  | @work ok now next effect es s₁ hmove heffect =>
    have hsettings : s₁.settings = s.settings := apply_sameAll heffect hmove.keepsSettings
    exact .moved rfl hmove hsettings
  | queue ha hqstep =>
    refine .stayed (by simp) rfl rfl ?_
    intro e he
    obtain ⟨qe, -, rfl⟩ := List.mem_map.mp he
    rfl

/-! ## The configuration in force -/

/-- The interval and the level of the flushes are those of the configuration. -/
def Timed (history : List (LoggerEvent Tid)) (s : LoggerState Tid) : Prop :=
  ∀ config, configurations history = [config] →
    s.flushInterval = config.flushInterval ∧ s.flushAtOrAbove = config.flushAtOrAbove

theorem apply_timers (h : s.apply who effect = some s')
    (hkeeps : ∀ config, effect ≠ .configure config) :
    s'.flushInterval = s.flushInterval ∧ s'.flushAtOrAbove = s.flushAtOrAbove := by
  cases effect <;> simp only [LoggerState.apply, Option.some.injEq, Option.map_eq_some_iff] at h
  case configure config => exact absurd rfl (hkeeps config)
  case call | ret =>
    obtain ⟨r, -, rfl⟩ := h
    exact ⟨rfl, rfl⟩
  all_goals subst h; exact ⟨rfl, rfl⟩

omit [DecidableEq Tid] in
theorem AppMove.configures (h : AppMove s t ok now f f' effect es) :
    (∃ config, effect = .configure config ∧ es = [.configured config]) ∨
      (∀ config, effect ≠ .configure config) ∧ configurations es = [] := by
  cases h with
  | initConfigure => exact .inl ⟨_, rfl, rfl⟩
  | _ => exact .inr ⟨by simp, rfl⟩

/-- A reset is reported alone. -/
theorem reset_alone {queues queues' : QueueState (Entry Tid) (Option Tid)}
    {b : QueueAction (Entry Tid) (Option Tid)} {qes : List (QueueEvent (Entry Tid))}
    (hstep : queues.step b = some (queues', qes)) (hreset : .reset ∈ qes) : qes = [.reset] := by
  rcases step_queue hstep with ⟨-, rfl⟩ | ⟨alloc, op, st, sec, hsec, -, rfl⟩
  · cases hreset
  · rcases hsec.reset_events with ⟨capacity, policy, -, hevents⟩ | hnone
    · exact hevents
    · exact absurd hreset hnone

/-- A step continues the lifecycle or begins the next one. -/
theorem reset_cases (hstep : s.step host a = some (s', es)) :
    (∀ e ∈ es, e.isReset = false) ∨ ∃ who, es = [.queue who .reset] := by
  cases loggerStep_move hstep with
  | begin request hidle =>
    left
    split_ifs <;> simp [LoggerEvent.isReset]
  | app hmove heffect => exact .inl hmove.queueEvents.2.2.2
  | work hmove heffect => exact .inl hmove.queueEvents.2.2.2
  | @queue b queues qes hb hqstep =>
    by_cases hreset : .reset ∈ qes
    · obtain rfl := reset_alone hqstep hreset
      exact .inr ⟨b.actor, rfl⟩
    · exact .inl (queue_events_isReset hreset)

theorem Timed.step {history : List (LoggerEvent Tid)} (h : Timed history s)
    (hstep : s.step host a = some (s', es)) : Timed (es.foldl afterLoggerEvent history) s' := by
  have hkeep : configurations es = [] → s'.flushInterval = s.flushInterval ∧
      s'.flushAtOrAbove = s.flushAtOrAbove → Timed (history ++ es) s' := by
    intro hes hsame config hconfig
    rw [configurations_append, hes, List.append_nil] at hconfig
    rw [hsame.1, hsame.2]
    exact h config hconfig
  rcases reset_cases hstep with hnone | ⟨who, rfl⟩
  · rw [foldl_afterLoggerEvent hnone]
    cases loggerStep_move hstep with
    | begin request hidle =>
      refine hkeep ?_ ⟨rfl, rfl⟩
      split_ifs <;> rfl
    | @app t ok now next effect es s₁ hmove heffect =>
      rcases hmove.configures with ⟨config, rfl, rfl⟩ | ⟨hkeeps, hes⟩
      · intro config' hconfig
        rw [configurations_append] at hconfig
        have hsame : config = config' := by
          have hlast := congrArg List.getLast? hconfig
          simpa [configurations] using hlast
        simp only [LoggerState.apply, Option.some.injEq] at heffect
        subst heffect hsame
        exact ⟨rfl, rfl⟩
      · obtain ⟨hinterval, hlevel⟩ := apply_timers heffect hkeeps
        exact hkeep hes ⟨hinterval, hlevel⟩
    | @work ok now next effect es s₁ hmove heffect =>
      have hkeeps : ∀ config, effect ≠ .configure config := by
        rintro config rfl
        cases hmove.keepsSettings
      obtain ⟨hinterval, hlevel⟩ := apply_timers heffect hkeeps
      exact hkeep hmove.queueEvents.2.2.1 ⟨hinterval, hlevel⟩
    | queue hb hqstep => exact hkeep (by simp [configurations, List.filterMap_map]) ⟨rfl, rfl⟩
  · intro config hconfig
    cases hconfig

/-- While there is a worker, the settings are those of the one configuration of the
lifecycle, which `init` has accepted. -/
theorem reaches_configured {P : LoggerState Tid → LoggerAction Tid → Prop}
    (h : (loggerSystem host).Run P .initial es s) (hlive : s.worker.isAbsent = false) :
    ∃ config, configurations (lifecycle es) = [config] ∧ config.rejected = false ∧
      s.settings = config.settings := by
  have htimed : Timed (lifecycle es) s :=
    h.monitored afterLoggerEvent (fun config hconfig => by cases hconfig)
      fun _ _ _ _ _ hi _ hstep => hi.step hstep
  obtain ⟨config, hconfig, haccepted, hsinks, hsize, hpolicy⟩ := (reaches_fanOut h).1.inForce hlive
  obtain ⟨hinterval, hlevel⟩ := htimed config hconfig
  refine ⟨config, hconfig, haccepted, ?_⟩
  rw [LoggerState.settings, LoggerConfig.settings, hsinks, hsize, hpolicy, hinterval, hlevel]

/-- While there is a worker, a lifecycle runs with the settings of its configuration. -/
theorem reaches_settings {P : LoggerState Tid → LoggerAction Tid → Prop} {config : LoggerConfig}
    (h : (loggerSystem host).Run P .initial es s)
    (hconfig : configurations (lifecycle es) = [config]) (hlive : s.worker.isAbsent = false) :
    s.settings = config.settings := by
  obtain ⟨config', hconfig', -, hsettings⟩ := reaches_configured h hlive
  obtain rfl : config = config' := by
    rw [hconfig] at hconfig'
    exact List.singleton_injective hconfig'
  exact hsettings

/-! ## Before the worker is made -/

/-- A thread has begun a lifecycle and not made its worker yet. -/
def Frame.fresh (past : Bool) : Frame Tid → Bool
  | .initResetting _ => past
  | .initConfigure _ | .initRunning | .initSpawn => true
  | _ => false

omit [Fintype Tid] [DecidableEq Tid] in
theorem Unworked.append {fs : List (LoggerEvent Tid)} (h : Unworked es) (h' : Unworked fs) :
    Unworked (es ++ fs) := fun e he => (List.mem_append.mp he).elim (h e) (h' e)

omit [Fintype Tid] [DecidableEq Tid] in
theorem Frame.fresh_exclusive {past : Bool} (h : f.fresh past = true) : f.exclusive = true := by
  cases f <;> first | rfl | cases h

omit [Fintype Tid] [DecidableEq Tid] in
theorem Frame.Sound.fresh_absent {v : View} {past : Bool} (h : f.Sound v past)
    (hf : f.fresh past = true) : v.absent = true := by
  cases f <;> first | exact h.2.1 | cases hf

omit [DecidableEq Tid] in
theorem AppMove.fresh (h : AppMove s t ok now f f' effect es)
    (hf : f'.fresh (effect.onPast (s.past (some t))) = true) :
    f.fresh (s.past (some t)) = true := by
  cases h with
  | initResetting hc => simp [Frame.fresh, LoggerState.past, hc, Call.entered]
  | initConfigure | initRunning => rfl
  | _ => cases hf

omit [Fintype Tid] [DecidableEq Tid] in
theorem unworked_queue (who : Option Tid) (qes : List (QueueEvent (Entry Tid))) :
    Unworked (qes.map (LoggerEvent.queue who)) := by
  intro e he
  obtain ⟨qe, -, rfl⟩ := List.mem_map.mp he
  rfl

/-- A lifecycle whose worker has not been made has none of its events. -/
theorem unworked_step {history : List (LoggerEvent Tid)}
    (h : ∀ t, (s.frames t).fresh (s.past (some t)) = true → Unworked history) (hcoh : Coherent s)
    (hstep : s.step host a = some (s', es)) (ht : (s'.frames t).fresh (s'.past (some t)) = true) :
    Unworked (es.foldl afterLoggerEvent history) := by
  rcases reset_cases hstep with hnone | ⟨who, rfl⟩
  · rw [foldl_afterLoggerEvent hnone]
    cases loggerStep_move hstep with
    | @begin u request hidle =>
      refine (h t ?_).append (by split_ifs <;> simp [Unworked, LoggerEvent.byWorker])
      change (Function.update s.frames u (request.frame s.tickets) t).fresh (s.past (some t)) = true
        at ht
      by_cases htu : t = u
      · subst htu
        rw [Function.update_self] at ht
        have hout := (Request.frame_outside Tid request s.tickets).1
        rw [Frame.fresh_exclusive ht] at hout
        cases hout
      · rwa [Function.update_of_ne htu] at ht
    | @app u ok now next effect es s₁ hmove heffect =>
      refine (h t ?_).append hmove.unworked
      change (Function.update s₁.frames u next t).fresh (s₁.past (some t)) = true at ht
      rw [apply_frames heffect] at ht
      by_cases htu : t = u
      · subst htu
        rw [Function.update_self, (apply_queues heffect).2.2.2] at ht
        exact hmove.fresh ht
      · rw [Function.update_of_ne htu] at ht
        rwa [LoggerState.past, apply_call_other heffect (by simpa using htu)] at ht
    | @work ok now next effect es s₁ hmove heffect =>
      have hframe : (s.frames t).fresh (s.past (some t)) = true := by
        change (s₁.frames t).fresh (s₁.past (some t)) = true at ht
        rwa [apply_frames heffect, LoggerState.past, apply_call_other heffect (by simp)] at ht
      have habsent := WorkerPc.eq_absent ((hcoh.frames t).fresh_absent hframe)
      rw [habsent] at hmove
      cases hmove
    | @queue b queues qes hb hqstep =>
      refine (h t ?_).append (unworked_queue _ _)
      change (s.frames t).fresh ((queues.calls (some t)).any Call.entered) = true at ht
      rcases (internal_step hqstep hb (some t)).2 with hsame | ⟨⟨alloc, expired, rfl⟩, -⟩
      · rwa [hsame] at ht
      · cases step_move hqstep with
        | @run _ _ _ c sec hc hsec =>
          cases hf : s.frames t with
          | initResetting config =>
            have hop := hcoh.op_frame hc
            rw [hf] at hop
            obtain ⟨op, st⟩ := c
            cases hop
            have hreset := hnone (.queue (some t) .reset)
              (by simp [hsec.of_reset, QueueAction.actor])
            cases hreset
          | _ =>
            rw [hf] at ht
            exact ht
  · exact fun e he => by cases he

end CppLogger
