import CppLogger.Logger.Delivery

/-!
# The cached timestamp over many lifecycles

The cache outlives a lifecycle: it is a member of the logger, and only `init` resets it.
Here the local time of a second may change from one lifecycle to the next, as after a
change of the time zone. A lifecycle begins when `init` resets the queue, so its host is
the one of the queue's generation.
-/

namespace CppLogger

variable {Tid : Type*}

/-- The host of the current lifecycle. -/
def LoggerState.hostOf (hosts : ℕ → Host Tid) (s : LoggerState Tid) : Host Tid :=
  hosts s.queue.generation

/-- The logger on a host that may change whenever the logger is initialized. -/
def restartedSystem [Fintype Tid] [DecidableEq Tid] (hosts : ℕ → Host Tid) :
    TransitionSystem (LoggerState Tid) (LoggerAction Tid) (LoggerEvent Tid) where
  step s a := s.step (s.hostOf hosts) a

/-- A thread has reset the cache and not yet made the worker. -/
def Frame.freshlyReset : Frame Tid → Bool
  | .initRunning | .initSpawn => true
  | _ => false

/-- There is a worker, or one is about to be made. -/
def LoggerState.Launched (s : LoggerState Tid) : Prop :=
  s.worker.isAbsent = false ∨ ∃ t, (s.frames t).freshlyReset = true

variable {hosts : ℕ → Host Tid} {s s' : LoggerState Tid} {t : Tid} {ok : Bool} {now : ℤ}
variable {f f' : Frame Tid} {effect : Effect Tid} {es : List (LoggerEvent Tid)}
variable {a : LoggerAction Tid}

theorem Frame.freshlyReset_exclusive (h : f.freshlyReset = true) : f.exclusive = true := by
  cases f <;> first | rfl | cases h

theorem Request.not_freshlyReset (request : Request) (ticket : ℕ) :
    (request.frame ticket : Frame Tid).freshlyReset = false := by
  cases request <;> rfl

variable [Fintype Tid] [DecidableEq Tid]

omit [DecidableEq Tid] in
/-- The cache is reset before the worker is made. -/
theorem AppMove.freshlyReset (h : AppMove s t ok now f f' effect es)
    (hf : f'.freshlyReset = true ∨ (effect.onWorker s.worker).isAbsent = false) :
    (∃ config, effect = .configure config) ∨ f.freshlyReset = true ∨ s.worker.isAbsent = false := by
  cases h with
  | initConfigure => exact .inl ⟨_, rfl⟩
  | initRunning | initSpawn => exact .inr (.inl rfl)
  | initJoin | stopJoin => rcases hf with hf | hf <;> cases hf
  | _ => exact .inr (.inr (hf.resolve_left (by simp [Frame.freshlyReset])))

omit [Fintype Tid] [DecidableEq Tid] in
/-- The queue is reset only between two lifecycles. -/
theorem Coherent.not_launched (h : Coherent s) {who : Option Tid} {c : Call (Entry Tid)}
    (hc : s.call who = some c) {capacity : ℕ} {policy : OverflowPolicy}
    (hop : c.op = .reset capacity policy) : ¬s.Launched := by
  obtain ⟨-, habsent, t, config, -, ht, -⟩ := h.resetting hc hop
  rintro (hworker | ⟨u, hu⟩)
  · simp [habsent] at hworker
  · have hut : u ≠ t := by
      rintro rfl
      rw [ht] at hu
      cases hu
    have hexclusive := (h.exclusion u t hut (Frame.freshlyReset_exclusive hu)).1
    rw [ht] at hexclusive
    cases hexclusive

/-- A step of the queue stays in the lifecycle, unless nothing is launched. -/
theorem Coherent.same_lifecycle (h : Coherent s) {b : QueueAction (Entry Tid) (Option Tid)}
    {queues : QueueState (Entry Tid) (Option Tid)}
    {qes : List (QueueEvent (Entry Tid))} (hb : b.internal = true)
    (hstep : s.queues.step b = some (queues, qes)) (hlaunched : s.Launched) :
    queues.queue.generation = s.queue.generation := by
  rcases section_or_same hb hstep with ⟨hqueue, -⟩ | ⟨who, c, alloc, sec, hc, hsec, hqueue, -⟩
  · rw [hqueue]
  · rw [hqueue]
    rcases hsec.closed_generation with ⟨-, -, hg⟩ | ⟨capacity, policy, hop, -⟩ | ⟨-, -, -, hg⟩
    · exact hg
    · exact absurd hlaunched (h.not_launched hc hop)
    · exact hg

/-- The cached text is that of the cached second on the host of this lifecycle. -/
def CacheValid (hosts : ℕ → Host Tid) (s : LoggerState Tid) : Prop :=
  s.Launched → s.cache.Valid (s.hostOf hosts)

omit [Fintype Tid] in
/-- A call that begins launches nothing. -/
theorem launched_begin {request : Request} {tickets : ℕ}
    (h : LoggerState.Launched { s with
      frames := Function.update s.frames t (request.frame s.tickets)
      tickets := tickets }) : s.Launched := by
  rcases h with hworker | ⟨u, hu⟩
  · exact .inl hworker
  · dsimp only at hu
    by_cases hut : u = t
    · subst hut
      rw [Function.update_self, request.not_freshlyReset] at hu
      cases hu
    · rw [Function.update_of_ne hut] at hu
      exact .inr ⟨u, hu⟩

/-- A thread launches the lifecycle with the settings, or it has been launched before. -/
theorem launched_app {s₁ : LoggerState Tid} (hmove : AppMove s t ok now (s.frames t) f' effect es)
    (heffect : s.apply (some t) effect = some s₁)
    (h : LoggerState.Launched { s₁ with frames := Function.update s₁.frames t f' }) :
    (∃ config, effect = .configure config) ∨ s.Launched := by
  have hbefore : f'.freshlyReset = true ∨ (effect.onWorker s.worker).isAbsent = false →
      (∃ config, effect = .configure config) ∨ s.Launched := by
    intro hf
    rcases hmove.freshlyReset hf with hconfig | hreset | hworker
    · exact .inl hconfig
    · exact .inr (.inr ⟨t, hreset⟩)
    · exact .inr (.inl hworker)
  rcases h with hworker | ⟨u, hu⟩
  · exact hbefore (.inr ((congrArg WorkerPc.isAbsent (apply_worker heffect)).symm.trans hworker))
  · dsimp only at hu
    rw [apply_frames heffect] at hu
    by_cases hut : u = t
    · subst hut
      rw [Function.update_self] at hu
      exact hbefore (.inl hu)
    · rw [Function.update_of_ne hut] at hu
      exact .inr (.inr ⟨u, hu⟩)

/-- The effect that resets the cache leaves it valid on any host. -/
theorem cache_configured {host : Host Tid} {who : Option Tid} {config : LoggerConfig}
    (heffect : s.apply who (.configure config) = some s') : s'.cache.Valid host := by
  simp only [LoggerState.apply, Option.some.injEq] at heffect
  subst heffect
  intro hhas
  cases hhas

theorem CacheValid.work (h : CacheValid hosts s) {s₁ : LoggerState Tid} {pc' : WorkerPc Tid}
    (hmove : WorkerMove (s.hostOf hosts) s ok now s.worker pc' effect es)
    (heffect : s.apply none effect = some s₁) : s₁.cache.Valid (s.hostOf hosts) := by
  have hvalid := h (.inl (hmove.onView s.view).1)
  by_cases hset : ∃ cache, effect = .setCache cache
  · obtain ⟨cache, rfl⟩ := hset
    simp only [LoggerState.apply, Option.some.injEq] at heffect
    subst heffect
    exact hmove.setCache hvalid rfl
  · exact apply_cache heffect hvalid fun cache he => hset ⟨cache, he⟩

theorem CacheValid.step (h : CacheValid hosts s) (hcoh : Coherent s)
    (hstep : s.step (s.hostOf hosts) a = some (s', es)) : CacheValid hosts s' := by
  intro hlaunched
  cases loggerStep_move hstep with
  | begin request hidle => exact h (launched_begin hlaunched)
  | @app t ok now next effect es s₁ hmove heffect =>
    have hqueue : s₁.queue = s.queue := (apply_queues heffect).1
    change s₁.cache.Valid (hosts s₁.queue.generation)
    rw [hqueue]
    rcases launched_app hmove heffect hlaunched with ⟨config, rfl⟩ | hbefore
    · exact cache_configured heffect
    · exact apply_cache heffect (h hbefore) hmove.noCache
  | @work ok now next effect es s₁ hmove heffect =>
    have hqueue : s₁.queue = s.queue := (apply_queues heffect).1
    change s₁.cache.Valid (hosts s₁.queue.generation)
    rw [hqueue]
    exact h.work hmove heffect
  | @queue b queues qes hb hqstep =>
    change s.cache.Valid (hosts queues.queue.generation)
    rw [hcoh.same_lifecycle hb hqstep hlaunched]
    exact h hlaunched

theorem reaches_cacheValid (h : (restartedSystem hosts).Reaches .initial es s) :
    Coherent s ∧ CacheValid hosts s := by
  refine h.stable (I := fun s => Coherent s ∧ CacheValid hosts s) ⟨.initial, ?_⟩ ?_
  · rintro (hworker | ⟨u, hu⟩)
    · cases hworker
    · cases hu
  · rintro s a s' es ⟨hcoh, hvalid⟩ - hstep
    exact ⟨hcoh.step hstep, hvalid.step hcoh hstep⟩

/-- Whenever there is a worker, in whichever lifecycle and whatever it has formatted so far,
a timestamp formatted with the cache is the one formatted without. -/
theorem timestamp_transparent (h : (restartedSystem hosts).Reaches .initial es s)
    (hworker : s.worker.isAbsent = false) (timestamp : ℤ) :
    (formatTime (s.hostOf hosts) s.cache timestamp).1 =
      renderTime (s.hostOf hosts) timestamp :=
  (formatTime_valid ((reaches_cacheValid h).2 (.inl hworker)) timestamp).1

/-- The clock of each lifecycle is a year ahead of that of the one before. -/
def movingHosts (generation : ℕ) : Host TwoThreads :=
  ⟨fun time => ⟨70 + generation, 0, 1, 0, 0, time⟩, fun _ => 7⟩

/-- A thread logs, and the worker formats the record. -/
def formatSchedule : List (LoggerAction TwoThreads) :=
  logSchedule .second ++ pushSchedule .second ++
    [.work true 0, .work true 0, .queue (.run none true false), .queue (.notify none none),
      .work true 0, .work true 0]

/-- The second lifecycle has cached the epoch second, and is asked for the second before. -/
theorem timestamp_transparent_restarted :
    ∃ es s, (restartedSystem movingHosts).Reaches .initial es s ∧ s.queue.generation = 2 ∧
      s.cache.hasCachedTimestampPrefix = true ∧ s.cache.cachedTimestampSecond = 0 ∧
      (formatTime (movingHosts 2) s.cache (-10 ^ 9)).1 = renderTime (movingHosts 2) (-10 ^ 9) := by
  have hrun : (restartedSystem movingHosts).Reaches .initial _ _ :=
    .of_schedule (initSchedule .first oneSink ++ stopSchedule .first ++
      initSchedule .first oneSink ++ formatSchedule) (by decide)
  exact ⟨_, _, hrun, by decide, by decide, by decide,
    timestamp_transparent hrun (by decide) (-10 ^ 9)⟩

end CppLogger
