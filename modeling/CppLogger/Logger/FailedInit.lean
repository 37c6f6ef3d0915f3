import CppLogger.Logger.Delivery

/-!
# What a failed `init` leaves behind

An `init` that returns false because of its arguments, because the logger is running or
because a sink could not be made has touched neither the queue nor the level. One that
could not start its thread has already reset the queue and set the level.
-/

namespace CppLogger

variable {Tid : Type*}

/-- What a user can read off: the queue's contents, counters and generation, and the
minimum level. -/
structure Observables (Tid : Type*) where
  queue : List (Entry Tid)
  droppedCount : ℕ
  highWaterMark : ℕ
  generation : ℕ
  minLevel : ℤ
  deriving DecidableEq, Repr

def LoggerState.observables (s : LoggerState Tid) : Observables Tid :=
  ⟨s.queue.queue, s.queue.droppedCount, s.queue.highWaterMark, s.queue.generation, s.minLevel⟩

/-- The thread that takes a step; `none` is the worker. -/
def LoggerAction.actor : LoggerAction Tid → Option Tid
  | .begin t _ | .app t _ _ => some t
  | .work _ _ => none
  | .queue a => a.actor

abbrev LoggerTaken (Tid : Type*) :=
  TransitionSystem.Taken (LoggerState Tid) (LoggerAction Tid) (LoggerEvent Tid)

/-- If the step is one of `t`, it leaves what a user can observe as it was, and a running
logger running with its sinks. -/
def Intact (t : Tid) (x : LoggerTaken Tid) : Prop :=
  x.action.actor = some t → x.after.observables = x.before.observables ∧
    (x.before.running = true → x.after.running = true ∧ x.after.sinks = x.before.sinks)

/-- If the step is the one in which `t` makes the worker's thread, the thread is made. -/
def Spawns (t : Tid) (x : LoggerTaken Tid) : Prop :=
  ∀ now, x.action = .app t false now → x.before.frames t ≠ .initSpawn

/-- How far `init` has come, told by whether its steps have been `intact` and whether the
thread could be made (`spawned`). -/
def Frame.Marks (past : Bool) (intact spawned : Prop) : Frame Tid → Prop
  | .initEnter _ | .initCheck _ | .initJoin _ | .initClose _ _ | .initBuild _ | .initReset _ =>
    intact ∧ spawned
  | .initResetting _ => (if past then ¬intact else intact) ∧ spawned
  | .initConfigure _ | .initRunning | .initSpawn | .initReturn true => ¬intact ∧ spawned
  | .initUnspawn | .initCloseQueue | .initClosing | .initAbandon _ => ¬intact ∧ ¬spawned
  | .initReturn false => intact ↔ spawned
  | _ => False

variable {s s' s₀ : LoggerState Tid} {t : Tid} {ok : Bool} {now : ℤ} {f f' : Frame Tid}
variable {effect : Effect Tid} {es es₀ fs : List (LoggerEvent Tid)} {who : Option Tid}
variable {host : Host Tid} {a : LoggerAction Tid} {intact spawned : Prop}

/-- The effects that a user does not notice, in a logger that is running or not. -/
def Effect.Spares (running : Bool) : Effect Tid → Prop
  | .skip | .join | .call _ => True
  | .dropSinks => running = false
  | _ => False

variable [Fintype Tid] [DecidableEq Tid]

theorem apply_spares (h : s.apply who effect = some s') (hspares : effect.Spares s.running) :
    s'.observables = s.observables ∧
      (s.running = true → s'.running = true ∧ s'.sinks = s.sinks) := by
  have hqueue : s'.queue = s.queue := (apply_queues h).1
  cases effect <;> simp only [LoggerState.apply, Option.some.injEq, Option.map_eq_some_iff] at h
  case skip | join =>
    subst h
    exact ⟨rfl, fun hr => ⟨hr, rfl⟩⟩
  case dropSinks =>
    subst h
    exact ⟨rfl, fun hr => absurd (hr.symm.trans hspares) (by simp)⟩
  case call op =>
    obtain ⟨r, -, rfl⟩ := h
    refine ⟨?_, fun hr => ⟨hr, rfl⟩⟩
    simp only [LoggerState.observables, hqueue]
  all_goals cases hspares

omit [DecidableEq Tid] in
/-- A step of `init`, when `i` tells that it is intact and `p` that it makes the thread if
it is to make it. -/
theorem AppMove.marks (h : AppMove s t ok now f f' effect es)
    (hf : f.Marks (s.past (some t)) intact spawned) (hsound : f.Sound s.view (s.past (some t)))
    {i p : Prop} (hi : effect.Spares s.running → i) (hp : p ↔ (f = .initSpawn → ok = true)) :
    (∃ r, es = [.initReturned t r]) ∨
      f'.Marks (effect.onPast (s.past (some t))) (intact ∧ i) (spawned ∧ p) := by
  cases h with
  | initReturn => exact .inl ⟨_, rfl⟩
  | initRejected | buildThrew =>
    right
    simp_all [Frame.Marks, Effect.Spares]
  | initSpawn hok | spawnThrew hok =>
    right
    simp_all [Frame.Marks]
  | initResetting hc =>
    right
    have hpast : s.past (some t) = true := by simp [LoggerState.past, hc, Call.entered]
    simp_all [Frame.Marks]
  | initClosed =>
    right
    have hrunning : s.running = false := hsound.1
    simp_all [Frame.Marks, Effect.Spares]
  | initEnter | initAccepted | initAbsent | initJoin | initClose | initBuild | initReset =>
    right
    simp_all [Frame.Marks, Effect.Spares, Effect.onPast]
  | initConfigure | initRunning | initUnspawn | initCloseQueue | initClosing | initAbandon
  | initAbandoned =>
    right
    simp_all [Frame.Marks]
  | _ => cases hf

/-- The steps of the others do not move a thread. -/
theorem others_step (hstep : s.step host a = some (s', es)) (ha : a.actor ≠ some t) :
    s'.frames t = s.frames t ∧ s'.past (some t) = s.past (some t) := by
  cases loggerStep_move hstep with
  | @begin u =>
    have htu : t ≠ u := fun heq => ha (by rw [heq]; rfl)
    exact ⟨Function.update_of_ne htu _ _, rfl⟩
  | @app u ok now next effect es s₁ hmove heffect =>
    have htu : t ≠ u := fun heq => ha (by rw [heq]; rfl)
    have hcall : s₁.call (some t) = s.call (some t) := apply_call_other heffect (by simpa using htu)
    refine ⟨?_, congrArg (Option.any Call.entered) hcall⟩
    exact (Function.update_of_ne htu _ _).trans (congrFun (apply_frames heffect) t)
  | @work ok now next effect es s₁ hmove heffect =>
    have hcall : s₁.call (some t) = s.call (some t) := apply_call_other heffect (by simp)
    exact ⟨congrFun (apply_frames heffect) t, congrArg (Option.any Call.entered) hcall⟩
  | queue hb hqstep =>
    refine ⟨rfl, ((internal_step hqstep hb (some t)).2.resolve_right ?_)⟩
    rintro ⟨⟨alloc, expired, rfl⟩, -⟩
    exact ha rfl

omit [Fintype Tid] [DecidableEq Tid] in
theorem acting_call [Fintype (Option Tid)] [DecidableEq (Option Tid)]
    {b : QueueAction (Entry Tid) (Option Tid)}
    {queues queues' : QueueState (Entry Tid) (Option Tid)} {qes : List (QueueEvent (Entry Tid))}
    (hb : b.internal = true) (hstep : queues.step b = some (queues', qes)) :
    ∃ c, queues.calls b.actor = some c := by
  cases step_move hstep with
  | call | ret => cases hb
  | run hc | notify hc | wake hc | timeout hc => exact ⟨_, hc⟩

omit [Fintype Tid] [DecidableEq Tid] in
theorem Fits.of_reset {capacity : ℕ} {policy : OverflowPolicy} {st : Stage (Entry Tid)}
    (h : Fits (.reset capacity policy) st) : st = .enter ∨ st = .ret .done := by
  cases h with
  | enter => exact .inl rfl
  | resetDone => exact .inr rfl
  | notEmptyWait _ hop | took hop | values hop | none hop | popThrew hop => cases hop

/-- Inside a reset there is nothing to do but its section. -/
theorem acting_reset {b : QueueAction (Entry Tid) (Option Tid)}
    {queues queues' : QueueState (Entry Tid) (Option Tid)} {qes : List (QueueEvent (Entry Tid))}
    (hb : b.internal = true) (hstep : queues.step b = some (queues', qes)) {capacity : ℕ}
    {policy : OverflowPolicy} {st : Stage (Entry Tid)}
    (hc : queues.calls b.actor = some ⟨.reset capacity policy, st⟩)
    (hfits : Fits (.reset capacity policy) st) :
    ∃ alloc expired, b = .run b.actor alloc expired := by
  cases step_move hstep with
  | call | ret => cases hb
  | run hc => exact ⟨_, _, rfl⟩
  | notify hc' hsig =>
    obtain rfl := Option.some.inj (hc.symm.trans hc')
    rcases hfits.of_reset with rfl | rfl <;> cases hsig
  | wake hc' hs =>
    obtain rfl := Option.some.inj (hc.symm.trans hc')
    rcases hfits.of_reset with rfl | rfl <;> rcases hs with hs | hs <;> cases hs
  | timeout hc' hs =>
    obtain rfl := Option.some.inj (hc.symm.trans hc')
    rcases hfits.of_reset with rfl | rfl <;> cases hs

/-- A step that `init` takes inside the queue: its reset begins a generation, and nothing
else that it does there matters to a user. -/
theorem Coherent.queue_marks {b : QueueAction (Entry Tid) (Option Tid)}
    {queues : QueueState (Entry Tid) (Option Tid)} {qes : List (QueueEvent (Entry Tid))}
    (hcoh : Coherent s) (hb : b.internal = true) (hstep : s.queues.step b = some (queues, qes))
    (hactor : b.actor = some t) (hf : (s.frames t).Marks (s.past (some t)) intact spawned)
    {i : Prop} (hi : i → queues.queue.generation = s.queue.generation) :
    (s.frames t).Marks ((queues.calls (some t)).any Call.entered) (intact ∧ i) spawned := by
  obtain ⟨c, hc⟩ : ∃ c, s.call (some t) = some c := hactor ▸ acting_call hb hstep
  rcases Frame.queueOp_cases (hcoh.op_frame hc) with ⟨g, entry, hframe, -⟩ | ⟨config, hframe, hop⟩ |
    ⟨hframe | hframe, -⟩
  · rw [hframe] at hf
    cases hf
  · rw [hframe] at hf ⊢
    have hfits := hcoh.fitting _ _ hc
    obtain ⟨op, st⟩ := c
    cases hop
    obtain ⟨alloc, expired, rfl⟩ : ∃ alloc expired, b = .run (some t) alloc expired :=
      hactor ▸ acting_reset hb hstep (hactor ▸ hc) hfits
    cases step_move hstep with
    | @run _ _ _ c sec hc' hsec =>
      obtain rfl := Option.some.inj (hc.symm.trans hc')
      have hgeneration : sec.queue.generation = s.queue.generation + 1 := by
        cases hsec with
        | resets => rfl
        | zeroBatch hop => simp at hop
        | ended hop | took hop | popThrew hop | sleepsEmpty hop => cases hop
      simp only [Function.update_self, Option.any_some, hsec.entered, Frame.Marks, if_true]
      refine ⟨fun h => ?_, hf.2⟩
      have hsame := hi h.2
      dsimp only at hsame
      omega
  · rw [hframe] at hf ⊢
    exact ⟨fun h => hf.1 h.1, hf.2⟩
  · rw [hframe] at hf
    cases hf

/-! ## A whole call -/

/-- A step of the system keeps the account of a call of `init`. -/
theorem marks_step (hcoh : Coherent s) (hstep : s.step host a = some (s', es))
    (hf : (s.frames t).Marks (s.past (some t)) intact spawned) :
    (∃ r, .initReturned t r ∈ es) ∨
      (s'.frames t).Marks (s'.past (some t)) (intact ∧ Intact t ⟨s, a, s', es⟩)
        (spawned ∧ Spawns t ⟨s, a, s', es⟩) := by
  by_cases ha : a.actor = some t
  · have hintact : Intact t ⟨s, a, s', es⟩ ↔ s'.observables = s.observables ∧
        (s.running = true → s'.running = true ∧ s'.sinks = s.sinks) := by simp [Intact, ha]
    cases loggerStep_move hstep with
    | @begin u request hidle =>
      obtain rfl := Option.some.inj ha
      rw [hidle] at hf
      cases hf
    | @app u ok now next effect es s₁ hmove heffect =>
      obtain rfl := Option.some.inj ha
      have hspawns : Spawns u (⟨s, .app u ok now, { s₁ with
          frames := Function.update s₁.frames u next }, es⟩ : LoggerTaken Tid) ↔
          (s.frames u = .initSpawn → ok = true) := by
        cases ok <;> simp [Spawns]
      have hspared := fun hspares => apply_spares heffect hspares
      have hmarks := hmove.marks hf (hcoh.frames u)
        (fun hspares => hintact.mpr (hspared hspares)) hspawns
      rw [← (apply_queues heffect).2.2.2] at hmarks
      refine hmarks.imp ?_ fun hmarks => ?_
      · rintro ⟨r, rfl⟩
        exact ⟨r, by simp⟩
      · change (Function.update s₁.frames u next u).Marks _ _ _
        rw [Function.update_self]
        exact hmarks
    | work => cases ha
    | @queue b queues qes hb hqstep =>
      have hspawns : Spawns t (⟨s, .queue b, { s with queues := queues },
          qes.map (.queue b.actor)⟩ : LoggerTaken Tid) := by simp [Spawns]
      rw [and_iff_left hspawns]
      exact .inr (hcoh.queue_marks hb hqstep ha hf fun h =>
        congrArg Observables.generation (hintact.mp h).1)
  · have hintact : Intact t ⟨s, a, s', es⟩ := fun h => absurd h ha
    have hspawns : Spawns t ⟨s, a, s', es⟩ := by
      rintro now rfl
      exact absurd rfl ha
    obtain ⟨hframe, hpast⟩ := others_step hstep ha
    rw [hframe, hpast, and_iff_left hintact, and_iff_left hspawns]
    exact .inr hf

/-- A call of `init` that returns false has left the logger as it was, whatever the other
threads did meanwhile, exactly when it did not fail to start a thread. -/
theorem failed_init {config : LoggerConfig} {taken : List (LoggerTaken Tid)}
    (h₀ : (loggerSystem host).Reaches .initial es₀ s₀) (hcall : s₀.frames t = .initEnter config)
    (h : (loggerSystem host).stepwise.Reaches s₀ taken s)
    (hsame : ∀ x ∈ taken, ∀ r, .initReturned t r ∉ x.events)
    (hfailed : s.frames t = .initReturn false) :
    (∀ x ∈ taken, Intact t x) ↔ ∀ x ∈ taken, Spawns t x := by
  have hmarks : (∃ x ∈ taken, ∃ r, .initReturned t r ∈ x.events) ∨
      (s.frames t).Marks (s.past (some t)) (∀ x ∈ taken, Intact t x) (∀ x ∈ taken, Spawns t x) := by
    refine (h.attach fun _ _ hrun => reaches_coherent (h₀.trans hrun.forgets)).invariant
      (I := fun taken s => (∃ x ∈ taken, ∃ r, .initReturned t r ∈ x.events) ∨
        (s.frames t).Marks (s.past (some t)) (∀ x ∈ taken, Intact t x)
          (∀ x ∈ taken, Spawns t x)) ?_ ?_
    · rw [hcall]
      exact .inr ⟨by simp, by simp⟩
    · rintro taken s a s' xs (⟨x, hx, hreturned⟩ | hi) ⟨-, hcoh⟩ hs
      · exact .inl ⟨x, by simp [hx], hreturned⟩
      · obtain ⟨es, hstep, rfl⟩ := TransitionSystem.stepwise_step hs
        rcases marks_step hcoh hstep hi with ⟨r, hr⟩ | hi
        · exact .inl ⟨⟨s, a, s', es⟩, by simp, r, hr⟩
        · right
          simpa [or_imp, forall_and] using hi
  rcases hmarks with ⟨x, hx, r, hr⟩ | hi
  · exact absurd hr (hsame x hx r)
  · rwa [hfailed] at hi

/-- A configuration that asks for a level of its own. -/
def quietSink : LoggerConfig := { oneSink with minLevel := .WARN }

/-- A thread calls `init`, and its new thread cannot be started. -/
def unstartedSchedule : List (LoggerAction TwoThreads) :=
  List.replicate 6 (.app .first true 0) ++ .queue (.run (some .first) true false) ::
    List.replicate 3 (.app .first true 0) ++
    [.app .first false 0, .app .first true 0, .app .first true 0,
      .queue (.run (some .first) true false), .queue (.notify (some .first) none),
      .queue (.notify (some .first) none), .app .first true 0, .app .first true 0,
      .app .first true 0]

/-- The logger is running, and another thread calls `init`. -/
theorem failed_init_running :
    ∃ es₀ s₀ taken s, (loggerSystem epochHost).Reaches .initial es₀ s₀ ∧ s₀.running = true ∧
      (loggerSystem epochHost).stepwise.Reaches s₀ taken s ∧
      s.frames .second = .initReturn false ∧ ∀ x ∈ taken, Intact .second x := by
  obtain ⟨es₀, s₀, taken, s, h₀, hrunning, hcall, h, hsame, hfailed, hactions⟩ :
      ∃ es₀ s₀ taken s, (loggerSystem epochHost).Reaches .initial es₀ s₀ ∧ s₀.running = true ∧
        s₀.frames .second = .initEnter oneSink ∧
        (loggerSystem epochHost).stepwise.Reaches s₀ taken s ∧
        (∀ x ∈ taken, .initReturned .second true ∉ x.events ∧
          .initReturned .second false ∉ x.events) ∧
        s.frames .second = .initReturn false ∧ ∀ x ∈ taken, x.action = .app .second true 0 :=
    ⟨_, _, _, _, .of_schedule (initSchedule .first oneSink ++ [.begin .second (.init oneSink)])
      (by decide), by decide, by decide,
      .of_schedule [.app .second true 0, .app .second true 0] (by decide), by decide, by decide,
      by decide⟩
  have hspawns : ∀ x ∈ taken, Spawns .second x := fun x hx now heq => by
    simp [hactions x hx] at heq
  refine ⟨es₀, s₀, taken, s, h₀, hrunning, h, hfailed, ?_⟩
  exact (failed_init h₀ hcall h (fun x hx r => by cases r; exacts [(hsame x hx).2, (hsame x hx).1])
    hfailed).mpr hspawns

/-- A logger that was never running has its queue reset and its level set by a call that
returns false. -/
theorem failed_init_unstarted :
    ∃ es₀ s₀ es s, (loggerSystem epochHost).Reaches .initial es₀ s₀ ∧
      s₀.frames .first = .initEnter quietSink ∧
      (loggerSystem epochHost).Run (fun _ a => a.actor = some .first) s₀ es s ∧
      s.frames .first = .initReturn false ∧
      s₀.observables = ⟨[], 0, 0, 0, 0⟩ ∧ s.observables = ⟨[], 0, 0, 1, 2⟩ :=
  ⟨_, _, _, _, .of_schedule [.begin .first (.init quietSink)] (by decide), by decide,
    .of_schedule unstartedSchedule (by decide), by decide, by decide, by decide⟩

end CppLogger
