import CppLogger.Logger.System

/-!
# The lifecycle of the logger

Who holds the lifecycle lock, which queue operation a frame stands for, and what a thread
that holds the lock may rely on: whether there is a worker, whether `running_` is set and
whether the queue is closed. The invariant of this module is the base of all others.
-/

namespace CppLogger

variable {Tid : Type*}

/-! ## Frames and operations of the queue -/

/-- The queue operation that a frame waits for. -/
def Frame.queueOp : Frame Tid → Option (QueueOp (Entry Tid))
  | .logPush g entry => some (.push (some g) entry)
  | .initResetting config => some (.reset config.queueCapacity config.overflowPolicy)
  | .initClosing | .stopClosing => some .close
  | _ => none

def WorkerPc.queueOp (writeBatchSize : ℕ) : WorkerPc Tid → Option (QueueOp (Entry Tid))
  | .popping _ none => some (.popBatch writeBatchSize)
  | .popping _ (some timeout) => some (.popBatchFor writeBatchSize timeout)
  | .closing _ => some .close
  | _ => none

def WorkerPc.isAbsent : WorkerPc Tid → Bool
  | .absent => true
  | _ => false

/-- The worker is inside its loop, or about to enter it. -/
def WorkerPc.looping : WorkerPc Tid → Bool
  | .absent | .flushing (.last _) _ _ | .caught _ | .closeQueue _ | .closing _ | .finished _ =>
    false
  | _ => true

/-- What frames rely on: `running_`, whether there is a worker, and of the queue whether it
is closed and its generation. -/
structure View where
  running : Bool
  absent : Bool
  closed : Bool
  generation : ℕ

namespace LoggerState

variable (s : LoggerState Tid)

def view : View := ⟨s.running, s.worker.isAbsent, s.queue.closed, s.queue.generation⟩

/-- The thread is past the section of its queue operation. -/
def past (who : Option Tid) : Bool := (s.call who).any Call.entered

end LoggerState

/-- What a thread relies on in a frame. -/
def Frame.Sound (v : View) (past : Bool) : Frame Tid → Prop
  | .logLevel _ | .logGeneration _ => v.absent = false
  | .logCapture _ g | .logPush g _ =>
    g ≤ v.generation ∧ (g = v.generation → v.absent = false ∨ v.closed = true)
  | .initJoin _ => v.running = false
  | .initClose _ _ | .initBuild _ | .initReset _ => v.running = false ∧ v.absent = true
  | .initResetting _ =>
    v.running = false ∧ v.absent = true ∧ (past = true → v.closed = false)
  | .initConfigure _ | .initRunning => v.running = false ∧ v.absent = true ∧ v.closed = false
  | .initSpawn => v.running = true ∧ v.absent = true ∧ v.closed = false
  | .initUnspawn => v.absent = true
  | .initCloseQueue => v.running = false ∧ v.absent = true
  | .initClosing => v.running = false ∧ v.absent = true ∧ (past = true → v.closed = true)
  | .initAbandon _ => v.running = false ∧ v.absent = true ∧ v.closed = true
  | .stopCloseQueue => v.running = false
  | .stopClosing => v.running = false ∧ (past = true → v.closed = true)
  | .stopJoin => v.running = false ∧ v.closed = true
  | .stopSinks _ => v.running = false ∧ v.absent = true ∧ v.closed = true
  | _ => True

/-- What the worker relies on. -/
def WorkerPc.Sound (v : View) (past : Bool) : WorkerPc Tid → Prop
  | .flushing (.last failed) _ _ => v.closed = true ∧ (failed = true → v.running = false)
  | .caught true => v.closed = true
  | .closeQueue _ => v.running = false
  | .closing _ => v.running = false ∧ (past = true → v.closed = true)
  | .finished _ => v.closed = true
  | _ => True

/-- A stop is under way and has not closed the queue yet. -/
def Frame.stopping : Frame Tid → Bool
  | .stopCloseQueue | .stopClosing => true
  | _ => false

/-- A thread has set `running_` and not yet made the worker. -/
def Frame.spawning : Frame Tid → Bool
  | .initSpawn | .initUnspawn => true
  | _ => false

/-- The invariant of the lifecycle. -/
structure Coherent (s : LoggerState Tid) : Prop where
  exclusion : ∀ t u, t ≠ u → (s.frames t).exclusive = true →
    (s.frames u).exclusive = false ∧ (s.frames u).shared = false
  fitting : Fitting s.queues
  linked : ∀ t, (s.call (some t)).map Call.op = (s.frames t).queueOp
  workerLinked : (s.call none).map Call.op = s.worker.queueOp s.writeBatchSize
  frames : ∀ t, (s.frames t).Sound s.view (s.past (some t))
  worker : s.worker.Sound s.view (s.past none)
  runningOpen : s.running = true → s.queue.closed = false
  runningWorker : s.running = true → s.worker.isAbsent = true → ∃ t, (s.frames t).spawning = true
  loopingOpen : s.worker.looping = true → s.running = false → s.queue.closed = false →
    ∃ t, (s.frames t).stopping = true

theorem Coherent.initial : Coherent (LoggerState.initial : LoggerState Tid) where
  exclusion := by intro t u _ h; cases h
  fitting := fitting_initial
  linked := fun _ => rfl
  workerLinked := rfl
  frames := fun _ => trivial
  worker := trivial
  runningOpen := by intro h; cases h
  runningWorker := by intro h; cases h
  loopingOpen := by intro h; cases h

/-! ## Effects -/

variable {s s' : LoggerState Tid} {t u : Tid} {ok : Bool} {now : ℤ} {f f' : Frame Tid}
variable {effect : Effect Tid} {es : List (LoggerEvent Tid)} {who other : Option Tid}

def Effect.onView : Effect Tid → View → View
  | .setRunning running, v => { v with running }
  | .join, v => { v with absent := true }
  | .spawn, v => { v with absent := false }
  | _, v => v

/-- A thread that begins an operation has not entered it; one that ends it is outside. -/
def Effect.onPast : Effect Tid → Bool → Bool
  | .call _, _ | .ret, _ => false
  | _, past => past

def Effect.onOp : Effect Tid → Option (QueueOp (Entry Tid)) → Option (QueueOp (Entry Tid))
  | .call op, _ => some op
  | .ret, _ => none
  | _, op => op

def Effect.onWorker : Effect Tid → WorkerPc Tid → WorkerPc Tid
  | .join, _ => .absent
  | .spawn, _ => .reserve
  | _, pc => pc

variable [Fintype Tid] [DecidableEq Tid]

theorem apply_frames (h : s.apply who effect = some s') : s'.frames = s.frames := by
  cases effect <;> simp only [LoggerState.apply, Option.some.injEq, Option.map_eq_some_iff] at h
  case call | ret => obtain ⟨r, -, rfl⟩ := h; rfl
  all_goals subst h; rfl

/-- The first and the last step of an operation only concern the thread's own call. -/
theorem apply_queues (h : s.apply who effect = some s') :
    s'.queues.queue = s.queues.queue ∧
      s'.queues.calls = Function.update s.queues.calls who (s'.queues.calls who) ∧
      (s'.call who).map Call.op = effect.onOp ((s.call who).map Call.op) ∧
      s'.past who = effect.onPast (s.past who) := by
  cases effect <;> simp only [LoggerState.apply, Option.some.injEq, Option.map_eq_some_iff] at h
  case call op =>
    obtain ⟨r, hr, rfl⟩ := h
    simp only [QueueState.step] at hr
    split_ifs at hr
    cases hr
    simp [LoggerState.call, LoggerState.past, Effect.onOp, Effect.onPast, Call.entered]
  case ret =>
    obtain ⟨r, hr, rfl⟩ := h
    simp only [QueueState.step] at hr
    split at hr <;> cases hr
    simp [LoggerState.call, LoggerState.past, Effect.onOp, Effect.onPast]
  all_goals
    subst h
    exact ⟨rfl, (Function.update_eq_self _ _).symm, rfl, rfl⟩

theorem apply_fitting (h : s.apply who effect = some s') (hs : Fitting s.queues) :
    Fitting s'.queues := by
  cases effect <;> simp only [LoggerState.apply, Option.some.injEq, Option.map_eq_some_iff] at h
  case call | ret =>
    obtain ⟨r, hr, rfl⟩ := h
    exact fitting_step hs hr
  all_goals subst h; exact hs

theorem apply_view (h : s.apply who effect = some s') : s'.view = effect.onView s.view := by
  have hq := (apply_queues h).1
  cases effect <;> simp only [LoggerState.apply, Option.some.injEq, Option.map_eq_some_iff] at h
  case call | ret =>
    obtain ⟨r, -, rfl⟩ := h
    simp only at hq
    simp [LoggerState.view, LoggerState.queue, Effect.onView, hq]
  all_goals subst h; rfl

theorem apply_worker (h : s.apply who effect = some s') :
    s'.worker = effect.onWorker s.worker := by
  cases effect <;> simp only [LoggerState.apply, Option.some.injEq, Option.map_eq_some_iff] at h
  case call | ret => obtain ⟨r, -, rfl⟩ := h; rfl
  all_goals subst h; rfl

theorem apply_settings (h : s.apply who effect = some s')
    (hne : ∀ config, effect ≠ .configure config) :
    s'.writeBatchSize = s.writeBatchSize ∧ s'.flushPolicy = s.flushPolicy := by
  cases effect <;> simp only [LoggerState.apply, Option.some.injEq, Option.map_eq_some_iff] at h
  case call | ret => obtain ⟨r, -, rfl⟩ := h; exact ⟨rfl, rfl⟩
  case configure config => exact absurd rfl (hne config)
  all_goals subst h; exact ⟨rfl, rfl⟩

theorem apply_call_other (h : s.apply who effect = some s') (hne : other ≠ who) :
    s'.call other = s.call other := by
  have hcalls := (apply_queues h).2.1
  unfold LoggerState.call
  rw [hcalls, Function.update_of_ne hne]

/-! ## The lock -/

omit [DecidableEq Tid] in
/-- The lock is taken only when it is free, exclusively or shared. -/
theorem AppMove.lock (h : AppMove s t ok now f f' effect es) :
    (f'.exclusive = true → f.exclusive = true ∨ s.available = true) ∧
      (f'.shared = true → f.shared = true ∨ s.sharable = true) := by
  cases h <;> simp_all [Frame.exclusive, Frame.shared]

theorem exclusion_update (h : ∀ t u, t ≠ u → (s.frames t).exclusive = true →
      (s.frames u).exclusive = false ∧ (s.frames u).shared = false)
    (hexclusive : f'.exclusive = true → (s.frames t).exclusive = true ∨ s.available = true)
    (hshared : f'.shared = true → (s.frames t).shared = true ∨ s.sharable = true) :
    ∀ v w, v ≠ w → (Function.update s.frames t f' v).exclusive = true →
      (Function.update s.frames t f' w).exclusive = false ∧
        (Function.update s.frames t f' w).shared = false := by
  intro v w hne hv
  by_cases hvt : v = t
  · subst hvt
    rw [Function.update_self] at hv
    rw [Function.update_of_ne hne.symm]
    rcases hexclusive hv with hold | hfree
    · exact h v w hne hold
    · exact of_decide_eq_true hfree w
  · rw [Function.update_of_ne hvt] at hv
    by_cases hwt : w = t
    · subst hwt
      rw [Function.update_self]
      obtain ⟨hold, holdshared⟩ := h v w hne hv
      constructor
      · by_contra hf
        rcases hexclusive (by simpa using hf) with hx | hfree
        · simp [hx] at hold
        · have := (of_decide_eq_true hfree v).1
          simp [this] at hv
      · by_contra hf
        rcases hshared (by simpa using hf) with hx | hfree
        · simp [hx] at holdshared
        · have := of_decide_eq_true hfree v
          simp [this] at hv
    · rw [Function.update_of_ne hwt]
      exact h v w hne hv

/-! ## What a thread relies on -/

omit [DecidableEq Tid] in
theorem AppMove.queueOp (h : AppMove s t ok now f f' effect es) :
    f'.queueOp = effect.onOp f.queueOp := by
  cases h <;> simp [Frame.queueOp, Effect.onOp]

omit [DecidableEq Tid] in
/-- Every step of a thread leads to a frame that it may rely on. -/
theorem AppMove.sound (h : AppMove s t ok now f f' effect es)
    (hf : f.Sound s.view (s.past (some t)))
    (hshared : f.shared = true → s.running = true → s.worker.isAbsent = false)
    (hfinished : ∀ failed, s.worker = .finished failed → s.queue.closed = true)
    (hopen : s.running = true → s.queue.closed = false) :
    f'.Sound (effect.onView s.view) (effect.onPast (s.past (some t))) := by
  cases h <;> simp_all [Frame.Sound, Effect.onView, Effect.onPast, LoggerState.view,
    LoggerState.past, Call.entered, Frame.shared, WorkerPc.isAbsent]

/-! ## What other threads change -/

/-- The changes that a thread holding the lock has to expect: the worker may clear
`running_` and close the queue. -/
structure View.Passive (v v' : View) : Prop where
  absent : v'.absent = v.absent
  generation : v'.generation = v.generation
  running : v'.running = v.running ∨ v'.running = false ∧ v.absent = false
  closed : v'.closed = v.closed ∨ v'.closed = true ∧ v.absent = false

/-- The changes that a thread without the lock has to expect: within a generation a closed
queue stays closed, and the worker disappears only when it is closed. -/
def View.Shift (v v' : View) : Prop :=
  v'.generation = v.generation + 1 ∨
    v'.generation = v.generation ∧ (v.closed = true → v'.closed = true) ∧
      (v'.absent = true → v.absent = true ∨ v.closed = true)

theorem View.Passive.refl (v : View) : v.Passive v := ⟨rfl, rfl, .inl rfl, .inl rfl⟩

theorem View.Shift.refl (v : View) : v.Shift v := .inr ⟨rfl, id, .inl⟩

theorem View.Passive.shift {v v' : View} (h : v.Passive v') : v.Shift v' := by
  refine .inr ⟨h.generation, ?_, ?_⟩
  · rcases h.closed with hc | ⟨hc, -⟩ <;> simp_all
  · rw [h.absent]
    exact .inl

omit [Fintype Tid] [DecidableEq Tid] in
theorem Frame.Sound.passive {v v' : View} {past : Bool} (h : f.Sound v past)
    (hf : f.exclusive = true ∨ f.shared = true) (hv : v.Passive v') : f.Sound v' past := by
  obtain ⟨running, absent, closed, generation⟩ := v
  obtain ⟨running', absent', closed', generation'⟩ := v'
  obtain ⟨rfl, -, hr, hc⟩ := hv
  dsimp only at hr hc
  rcases hr with rfl | ⟨rfl, ha⟩ <;> rcases hc with rfl | ⟨rfl, ha'⟩ <;> cases f <;>
    simp_all [Frame.Sound, Frame.exclusive, Frame.shared]

omit [Fintype Tid] [DecidableEq Tid] in
theorem Frame.Sound.shift {v v' : View} {past past' : Bool} (h : f.Sound v past)
    (hf : f.exclusive = false ∧ f.shared = false) (hv : v.Shift v') : f.Sound v' past' := by
  have hcapture : ∀ g, (g ≤ v.generation ∧
      (g = v.generation → v.absent = false ∨ v.closed = true)) →
      g ≤ v'.generation ∧ (g = v'.generation → v'.absent = false ∨ v'.closed = true) := by
    rintro g ⟨hle, hlive⟩
    rcases hv with hgen | ⟨hgen, hclosed, habsent⟩
    · exact ⟨by omega, by omega⟩
    · refine ⟨by omega, fun hg => ?_⟩
      rcases hlive (hg.trans hgen) with ha | hc
      · cases ha' : v'.absent with
        | false => exact .inl rfl
        | true => exact .inr (hclosed ((habsent ha').resolve_left (by simp [ha])))
      · exact .inr (hclosed hc)
  cases f with
  | logCapture _ g | logPush g _ => exact hcapture g h
  | _ => first | trivial | simp [Frame.exclusive, Frame.shared] at hf

/-! ## Steps -/

omit [Fintype Tid] in
theorem exists_update {p : Frame Tid → Bool} (h : ∃ u, p (s.frames u) = true)
    (ht : p (s.frames t) = true → p f' = true) :
    ∃ u, p (Function.update s.frames t f' u) = true := by
  obtain ⟨u, hu⟩ := h
  refine ⟨u, ?_⟩
  by_cases hut : u = t
  · subst hut
    rw [Function.update_self]
    exact ht hu
  · rwa [Function.update_of_ne hut]

omit [Fintype Tid] [DecidableEq Tid] in
variable (Tid) in
/-- A request starts outside the lock and outside the queue. -/
theorem Request.frame_outside (request : Request) (ticket : ℕ) :
    let f : Frame Tid := request.frame ticket
    f.exclusive = false ∧ f.shared = false ∧ f.queueOp = none ∧ ∀ v past, f.Sound v past := by
  cases request <;> exact ⟨rfl, rfl, rfl, fun _ _ => trivial⟩

theorem Coherent.begin (h : Coherent s) (hidle : s.frames t = .idle) (request : Request) :
    Coherent { s with
      frames := Function.update s.frames t (request.frame s.tickets)
      tickets := s.tickets + 1 } := by
  obtain ⟨hexclusive, hshared, hop, hsound⟩ := Request.frame_outside Tid request s.tickets
  constructor
  case exclusion =>
    exact exclusion_update h.exclusion (by simp [hexclusive]) (by simp [hshared])
  case fitting =>
    exact h.fitting
  case linked =>
    intro u
    dsimp only
    by_cases hut : u = t
    · subst hut
      have hlinked := h.linked u
      rw [hidle] at hlinked
      rw [Function.update_self, hop]
      exact hlinked
    · rw [Function.update_of_ne hut]
      exact h.linked u
  case workerLinked =>
    exact h.workerLinked
  case frames =>
    intro u
    dsimp only
    by_cases hut : u = t
    · subst hut
      rw [Function.update_self]
      exact hsound _ _
    · rw [Function.update_of_ne hut]
      exact h.frames u
  case worker =>
    exact h.worker
  case runningOpen =>
    exact h.runningOpen
  case runningWorker =>
    intro hr ha
    exact exists_update (h.runningWorker hr ha) (by simp [hidle, Frame.spawning])
  case loopingOpen =>
    intro hl hr hc
    exact exists_update (h.loopingOpen hl hr hc) (by simp [hidle, Frame.stopping])

omit [DecidableEq Tid] in
/-- Without the lock a thread changes nothing that others rely on. -/
theorem AppMove.onView_outside (h : AppMove s t ok now f f' effect es)
    (hf : f.exclusive = false) (v : View) : effect.onView v = v := by
  cases h <;> first | rfl | cases hf

omit [DecidableEq Tid] in
theorem AppMove.shift (h : AppMove s t ok now f f' effect es)
    (hfinished : ∀ failed, s.worker = .finished failed → s.queue.closed = true) :
    s.view.Shift (effect.onView s.view) := by
  cases h with
  | initJoin hw | stopJoin hw => exact .inr ⟨rfl, id, fun _ => .inr (hfinished _ hw)⟩
  | initSpawn => exact .inr ⟨rfl, id, by simp [Effect.onView]⟩
  | initRunning | initUnspawn | stopRunning => exact .inr ⟨rfl, id, .inl⟩
  | _ => exact .refl _

omit [Fintype Tid] [DecidableEq Tid] in
theorem WorkerPc.eq_absent {pc : WorkerPc Tid} (h : pc.isAbsent = true) : pc = .absent := by
  cases pc <;> first | rfl | cases h

/-- The worker comes and goes, and its settings change, only while it is outside the queue. -/
theorem AppMove.workerOp (h : AppMove s t ok now f f' effect es)
    (hf : f.Sound s.view (s.past (some t))) (heffect : s.apply (some t) effect = some s') :
    s'.worker.queueOp s'.writeBatchSize = s.worker.queueOp s.writeBatchSize := by
  rw [apply_worker heffect]
  cases h with
  | initConfigure | initSpawn =>
    rw [WorkerPc.eq_absent (show s.worker.isAbsent = true from hf.2.1)]
    rfl
  | initJoin hw | stopJoin hw =>
    rw [hw]
    rfl
  | _ => rw [(apply_settings heffect (by simp)).1]; rfl

omit [Fintype Tid] [DecidableEq Tid] in
/-- What the worker relies on outlasts clearing `running_` and closing the queue. -/
theorem WorkerPc.Sound.mono {pc : WorkerPc Tid} {v v' : View} {past : Bool}
    (h : pc.Sound v past) (hrunning : v'.running = v.running ∨ v'.running = false)
    (hclosed : v.closed = true → v'.closed = true) : pc.Sound v' past := by
  rcases hrunning with hr | hr <;> unfold WorkerPc.Sound at h ⊢ <;> split <;> simp_all

omit [DecidableEq Tid] in
theorem AppMove.workerSound (h : AppMove s t ok now f f' effect es)
    (hf : f.Sound s.view (s.past (some t))) {past : Bool} (hw : s.worker.Sound s.view past) :
    (effect.onWorker s.worker).Sound (effect.onView s.view) past := by
  cases h with
  | initRunning =>
    rw [WorkerPc.eq_absent (show s.worker.isAbsent = true from hf.2.1)]
    trivial
  | initUnspawn | stopRunning => exact hw.mono (.inr rfl) id
  | initJoin | stopJoin | initSpawn => trivial
  | _ => exact hw

omit [DecidableEq Tid] in
theorem AppMove.runningOpen (h : AppMove s t ok now f f' effect es)
    (hf : f.Sound s.view (s.past (some t))) (hopen : s.running = true → s.queue.closed = false) :
    (effect.onView s.view).running = true → s.queue.closed = false := by
  cases h with
  | initRunning => exact fun _ => hf.2.2
  | initUnspawn | stopRunning => intro hr; cases hr
  | _ => exact hopen

omit [DecidableEq Tid] in
/-- After a step `running_` is set without a worker only while the thread makes one. -/
theorem AppMove.runningWorker (h : AppMove s t ok now f f' effect es)
    (hf : f.Sound s.view (s.past (some t))) (hr : (effect.onView s.view).running = true)
    (ha : (effect.onWorker s.worker).isAbsent = true) :
    f'.spawning = true ∨
      s.running = true ∧ s.worker.isAbsent = true ∧ f.spawning = false := by
  cases h <;> simp_all [Effect.onView, Effect.onWorker, Frame.spawning, WorkerPc.isAbsent,
    Frame.Sound, LoggerState.view]

omit [DecidableEq Tid] in
/-- After a step the worker runs on, `running_` being cleared and the queue open, only while
the thread is about to close it. -/
theorem AppMove.loopingOpen (h : AppMove s t ok now f f' effect es)
    (hf : f.Sound s.view (s.past (some t))) (hl : (effect.onWorker s.worker).looping = true)
    (hr : (effect.onView s.view).running = false) (hc : s.queue.closed = false) :
    f'.stopping = true ∨
      s.worker.looping = true ∧ s.running = false ∧ f.stopping = false := by
  cases h with
  | initUnspawn =>
    have habsent : s.worker.isAbsent = true := hf
    rw [WorkerPc.eq_absent habsent] at hl
    cases hl
  | _ =>
    simp_all [Effect.onView, Effect.onWorker, Frame.stopping, WorkerPc.looping, Frame.Sound,
      LoggerState.view, LoggerState.past, Call.entered]

theorem Coherent.app (h : Coherent s) (hmove : AppMove s t ok now (s.frames t) f' effect es)
    (heffect : s.apply (some t) effect = some s') :
    Coherent { s' with frames := Function.update s'.frames t f' } := by
  have hfinished : ∀ failed, s.worker = .finished failed → s.queue.closed = true := by
    intro failed hw
    have := h.worker
    rwa [hw] at this
  have hshared : (s.frames t).shared = true → s.running = true → s.worker.isAbsent = false := by
    intro ht hr
    by_contra ha
    obtain ⟨u, hu⟩ := h.runningWorker hr (by simpa using ha)
    have hx : (s.frames u).exclusive = true := by
      revert hu
      cases s.frames u <;> simp [Frame.spawning, Frame.exclusive]
    by_cases hut : u = t
    · subst hut
      revert hx ht
      cases s.frames u <;> simp [Frame.shared, Frame.exclusive]
    · have := (h.exclusion u t hut hx).2
      simp [this] at ht
  have hview := apply_view heffect
  have hqueue : s'.queue = s.queue := (apply_queues heffect).1
  obtain ⟨-, -, hop, hpast⟩ := apply_queues heffect
  have hself := hmove.sound (h.frames t) hshared hfinished h.runningOpen
  rw [apply_frames heffect]
  constructor
  case exclusion =>
    exact exclusion_update h.exclusion hmove.lock.1 hmove.lock.2
  case fitting =>
    exact (apply_fitting heffect h.fitting : Fitting s'.queues)
  case linked =>
    intro u
    dsimp only
    by_cases hut : u = t
    · subst hut
      rw [Function.update_self, hmove.queueOp, ← h.linked u]
      exact hop
    · rw [Function.update_of_ne hut, ← h.linked u, ← apply_call_other heffect (by simpa using hut)]
      rfl
  case workerLinked =>
    exact (congrArg (Option.map Call.op) (apply_call_other heffect (by simp))).trans
      (h.workerLinked.trans (hmove.workerOp (h.frames t) heffect).symm)
  case frames =>
    intro u
    change (Function.update s.frames t f' u).Sound s'.view (s'.past (some u))
    rw [hview]
    by_cases hut : u = t
    · subst hut
      rw [Function.update_self, hpast]
      exact hself
    · have hpast' : s'.past (some u) = s.past (some u) := by
        unfold LoggerState.past
        rw [apply_call_other heffect (by simpa using hut)]
      rw [Function.update_of_ne hut, hpast']
      cases ht : (s.frames t).exclusive with
      | false =>
        rw [hmove.onView_outside ht]
        exact h.frames u
      | true =>
        exact (h.frames u).shift (h.exclusion t u (Ne.symm hut) ht) (hmove.shift hfinished)
  case worker =>
    change s'.worker.Sound s'.view (s'.past none)
    have hpast' : s'.past none = s.past none := by
      unfold LoggerState.past
      rw [apply_call_other heffect (by simp)]
    rw [hview, apply_worker heffect, hpast']
    exact hmove.workerSound (h.frames t) h.worker
  case runningOpen =>
    change s'.running = true → s'.queue.closed = false
    rw [hqueue, show s'.running = (effect.onView s.view).running from congrArg View.running hview]
    exact hmove.runningOpen (h.frames t) h.runningOpen
  case runningWorker =>
    intro hr ha
    have hr' : (effect.onView s.view).running = true := hview ▸ hr
    have ha' : (effect.onWorker s.worker).isAbsent = true := apply_worker heffect ▸ ha
    rcases hmove.runningWorker (h.frames t) hr' ha' with hf | ⟨hr, ha, hf⟩
    · exact ⟨t, by dsimp only; rwa [Function.update_self]⟩
    · exact exists_update (h.runningWorker hr ha) (by simp [hf])
  case loopingOpen =>
    intro hl hr hc
    have hr' : (effect.onView s.view).running = false := hview ▸ hr
    have hl' : (effect.onWorker s.worker).looping = true := apply_worker heffect ▸ hl
    have hc' : s.queue.closed = false := hqueue ▸ hc
    rcases hmove.loopingOpen (h.frames t) hl' hr' hc' with hf | ⟨hl, hr, hf⟩
    · exact ⟨t, by dsimp only; rwa [Function.update_self]⟩
    · exact exists_update (h.loopingOpen hl hr hc') (by simp [hf])

/-! ## The worker -/

variable {host : Host Tid} {pc pc' : WorkerPc Tid}

omit [Fintype Tid] [DecidableEq Tid] in
theorem WorkerMove.queueOp (h : WorkerMove host s ok now pc pc' effect es) :
    pc'.queueOp s.writeBatchSize = effect.onOp (pc.queueOp s.writeBatchSize) := by
  cases h <;> simp [WorkerPc.queueOp, Effect.onOp]

omit [Fintype Tid] [DecidableEq Tid] in
/-- The worker only clears `running_`, and only when it has caught an exception. -/
theorem WorkerMove.onView (h : WorkerMove host s ok now pc pc' effect es) (v : View) :
    pc.isAbsent = false ∧ pc'.isAbsent = false ∧
      (effect.onView v = v ∨ effect.onView v = { v with running := false }) ∧
      (∀ past, effect.onWorker past = past) ∧ ∀ config, effect ≠ .configure config := by
  cases h <;> simp [WorkerPc.isAbsent, Effect.onView, Effect.onWorker]

omit [Fintype Tid] [DecidableEq Tid] in
theorem WorkerMove.sound (h : WorkerMove host s ok now pc pc' effect es)
    (hpc : pc.Sound s.view (s.past none)) (hopen : s.running = true → s.queue.closed = false) :
    pc'.Sound (effect.onView s.view) (effect.onPast (s.past none)) := by
  cases h with
  | @flush site | @flushed site => cases site <;> exact hpc
  | _ =>
    simp_all [WorkerPc.Sound, Effect.onView, Effect.onPast, LoggerState.view, LoggerState.past,
      Call.entered]

omit [Fintype Tid] [DecidableEq Tid] in
/-- The worker never comes back to its loop, and clears `running_` only outside it. -/
theorem WorkerMove.looping (h : WorkerMove host s ok now pc pc' effect es)
    (hl : pc'.looping = true) : pc.looping = true ∧ ∀ v, effect.onView v = v := by
  cases h with
  | @flush site | @flushed site => cases site <;> exact ⟨hl, fun _ => rfl⟩
  | _ => simp_all [WorkerPc.looping, Effect.onView]

theorem Coherent.work (h : Coherent s) (hmove : WorkerMove host s ok now s.worker pc' effect es)
    (heffect : s.apply none effect = some s') : Coherent { s' with worker := pc' } := by
  obtain ⟨hlive, hlive', honView, -, hconfig⟩ := hmove.onView s.view
  obtain ⟨hqueues, -, hop, hpast⟩ := apply_queues heffect
  have hqueue : s'.queue = s.queue := hqueues
  have hview := apply_view heffect
  have hview' : LoggerState.view { s' with worker := pc' } = effect.onView s.view := by
    calc LoggerState.view { s' with worker := pc' }
        = { s'.view with absent := pc'.isAbsent } := rfl
      _ = { effect.onView s.view with absent := s.worker.isAbsent } := by
        rw [hview, hlive, hlive']
      _ = effect.onView s.view := by rcases honView with heq | heq <;> rw [heq] <;> rfl
  have hpassive : s.view.Passive (effect.onView s.view) := by
    rcases honView with heq | heq <;> rw [heq]
    · exact .refl _
    · exact ⟨rfl, rfl, .inr ⟨rfl, hlive⟩, .inl rfl⟩
  have hrunning : s'.running = (effect.onView s.view).running := congrArg View.running hview
  have hother : ∀ u, s'.call (some u) = s.call (some u) := fun u =>
    apply_call_other heffect (by simp)
  constructor
  case exclusion =>
    rw [apply_frames heffect]
    exact h.exclusion
  case fitting =>
    exact (apply_fitting heffect h.fitting : Fitting s'.queues)
  case linked =>
    intro u
    change (s'.call (some u)).map Call.op = (s'.frames u).queueOp
    rw [hother, apply_frames heffect]
    exact h.linked u
  case workerLinked =>
    change (s'.call none).map Call.op = pc'.queueOp s'.writeBatchSize
    rw [hop, h.workerLinked, (apply_settings heffect hconfig).1, hmove.queueOp]
  case frames =>
    intro u
    rw [hview']
    change (s'.frames u).Sound _ (s'.past (some u))
    have hpastu : s'.past (some u) = s.past (some u) := by
      unfold LoggerState.past
      rw [hother]
    rw [apply_frames heffect, hpastu]
    by_cases hu : (s.frames u).exclusive = true ∨ (s.frames u).shared = true
    · exact (h.frames u).passive hu hpassive
    · exact (h.frames u).shift (by simpa using hu) hpassive.shift
  case worker =>
    rw [hview']
    change pc'.Sound _ (s'.past none)
    rw [hpast]
    exact hmove.sound h.worker h.runningOpen
  case runningOpen =>
    change s'.running = true → s'.queue.closed = false
    rw [hqueue, hrunning]
    intro hr
    rcases honView with heq | heq <;> rw [heq] at hr
    · exact h.runningOpen hr
    · cases hr
  case runningWorker =>
    intro _ ha
    exact absurd ha (by simp [hlive'])
  case loopingOpen =>
    intro hl hr hc
    obtain ⟨hl', hsame⟩ := hmove.looping hl
    have hr' : s.running = false := by
      have := hrunning.symm.trans hr
      rwa [hsame] at this
    have hc' : s.queue.closed = false := hqueue ▸ hc
    dsimp only
    rw [apply_frames heffect]
    exact h.loopingOpen hl' hr' hc'

/-! ## Sections of the queue -/

/-- What a section of `op` does to the view. -/
inductive OpView (v : View) : QueueOp (Entry Tid) → View → Prop
  | close : OpView v .close { v with closed := true }
  | reset (capacity : ℕ) (policy : OverflowPolicy) :
      OpView v (.reset capacity policy) { v with closed := false, generation := v.generation + 1 }
  | other {op : QueueOp (Entry Tid)} (hclose : op ≠ .close)
      (hreset : ∀ capacity policy, op ≠ .reset capacity policy) : OpView v op v

omit [Fintype Tid] [DecidableEq Tid] in
theorem Outcome.onView {alloc : Bool} {op : QueueOp (Entry Tid)} {st : Stage (Entry Tid)}
    {sec : Section (Entry Tid)} (h : Outcome s.queue alloc op st sec) :
    OpView s.view op
      { s.view with closed := sec.queue.closed, generation := sec.queue.generation } := by
  rcases h.closed_generation with ⟨rfl, hc, hg⟩ | ⟨capacity, policy, rfl, hc, hg⟩ |
    ⟨hclose, hreset, hc, hg⟩
  · rw [hc, hg]
    exact .close
  · rw [hc, hg]
    exact .reset capacity policy
  · rw [hc, hg]
    exact .other hclose hreset

omit [Fintype Tid] [DecidableEq Tid] in
/-- The section that a frame waits for leaves what the frame relies on. -/
theorem Frame.Sound.ran {v v' : View} {past : Bool} {op : QueueOp (Entry Tid)}
    (h : f.Sound v past) (hop : f.queueOp = some op) (hv : OpView v op v') : f.Sound v' true := by
  cases f with
  | logPush g entry =>
    cases hop
    cases hv with
    | other => exact h
  | initResetting config =>
    cases hop
    cases hv with
    | reset => exact ⟨h.1, h.2.1, fun _ => rfl⟩
    | other _ hreset => exact absurd rfl (hreset _ _)
  | initClosing =>
    cases hop
    cases hv with
    | close => exact ⟨h.1, h.2.1, fun _ => rfl⟩
    | other hclose => exact absurd rfl hclose
  | stopClosing =>
    cases hop
    cases hv with
    | close => exact ⟨h.1, fun _ => rfl⟩
    | other hclose => exact absurd rfl hclose
  | _ => cases hop

omit [Fintype Tid] [DecidableEq Tid] in
theorem WorkerPc.queueOp_cases {op : QueueOp (Entry Tid)} {n : ℕ} (h : pc.queueOp n = some op) :
    (∃ nf timeout, pc = .popping nf timeout ∧ op.maxTaken = some n) ∨
      ∃ final, pc = .closing final ∧ op = .close := by
  unfold WorkerPc.queueOp at h
  split at h <;> cases h
  · exact .inl ⟨_, _, rfl, rfl⟩
  · exact .inl ⟨_, _, rfl, rfl⟩
  · exact .inr ⟨_, rfl, rfl⟩

omit [Fintype Tid] [DecidableEq Tid] in
theorem WorkerPc.Sound.ran {v v' : View} {past : Bool} {op : QueueOp (Entry Tid)} {n : ℕ}
    (h : pc.Sound v past) (hop : pc.queueOp n = some op) (hv : OpView v op v') :
    pc.Sound v' true := by
  rcases WorkerPc.queueOp_cases hop with ⟨nf, timeout, rfl, -⟩ | ⟨final, rfl, rfl⟩
  · trivial
  · cases hv with
    | close => exact ⟨h.1, fun _ => rfl⟩
    | other hclose => exact absurd rfl hclose

omit [Fintype Tid] [DecidableEq Tid] in
theorem Frame.queueOp_cases {op : QueueOp (Entry Tid)} (h : f.queueOp = some op) :
    (∃ g entry, f = .logPush g entry ∧ op = .push (some g) entry) ∨
      (∃ config, f = .initResetting config ∧
        op = .reset config.queueCapacity config.overflowPolicy) ∨
      (f = .initClosing ∨ f = .stopClosing) ∧ op = .close := by
  cases f <;> cases h
  case logPush g entry => exact .inl ⟨g, entry, rfl, rfl⟩
  case initResetting config => exact .inr (.inl ⟨config, rfl, rfl⟩)
  case initClosing => exact .inr (.inr ⟨.inl rfl, rfl⟩)
  case stopClosing => exact .inr (.inr ⟨.inr rfl, rfl⟩)

omit [Fintype Tid] [DecidableEq Tid] in
theorem Coherent.op_frame (h : Coherent s) {c : Call (Entry Tid)}
    (hc : s.call (some t) = some c) : (s.frames t).queueOp = some c.op := by
  rw [← h.linked t, hc]
  rfl

omit [Fintype Tid] [DecidableEq Tid] in
theorem Coherent.op_worker (h : Coherent s) {c : Call (Entry Tid)} (hc : s.call none = some c) :
    s.worker.queueOp s.writeBatchSize = some c.op := by
  rw [← h.workerLinked, hc]
  rfl

omit [Fintype Tid] [DecidableEq Tid] in
/-- The queue is closed by a thread that holds the lock, or by the worker, and only when
`running_` has been cleared. -/
theorem Coherent.closing (h : Coherent s) {c : Call (Entry Tid)} (hc : s.call who = some c)
    (hop : c.op = .close) : s.running = false ∧
      (who = none ∧ s.worker.isAbsent = false ∨
        ∃ t, who = some t ∧ (s.frames t).exclusive = true) := by
  cases who with
  | none =>
    have hw := h.worker
    rcases WorkerPc.queueOp_cases (h.op_worker hc) with ⟨-, -, -, hn⟩ | ⟨final, hpc, -⟩
    · rw [hop] at hn
      cases hn
    · rw [hpc] at hw ⊢
      exact ⟨hw.1, .inl ⟨rfl, rfl⟩⟩
  | some t =>
    have hf := h.frames t
    rcases Frame.queueOp_cases (h.op_frame hc) with ⟨g, entry, -, hn⟩ | ⟨config, -, hn⟩ |
      ⟨heq | heq, -⟩
    · rw [hop] at hn
      cases hn
    · rw [hop] at hn
      cases hn
    all_goals
      rw [heq] at hf
      exact ⟨hf.1, .inr ⟨t, rfl, by rw [heq]; rfl⟩⟩

omit [Fintype Tid] [DecidableEq Tid] in
/-- The queue is reset by `init`, without a worker. -/
theorem Coherent.resetting (h : Coherent s) {c : Call (Entry Tid)} (hc : s.call who = some c)
    {capacity : ℕ} {policy : OverflowPolicy} (hop : c.op = .reset capacity policy) :
    s.running = false ∧ s.worker.isAbsent = true ∧
      ∃ t config, who = some t ∧ s.frames t = .initResetting config ∧
        capacity = config.queueCapacity ∧ policy = config.overflowPolicy := by
  cases who with
  | none =>
    rcases WorkerPc.queueOp_cases (h.op_worker hc) with ⟨-, -, -, hn⟩ | ⟨final, -, hn⟩ <;>
      rw [hop] at hn <;> cases hn
  | some t =>
    have hf := h.frames t
    rcases Frame.queueOp_cases (h.op_frame hc) with ⟨g, entry, -, hn⟩ | ⟨config, heq, hn⟩ |
      ⟨-, hn⟩
    · rw [hop] at hn
      cases hn
    · rw [heq] at hf
      rw [hop] at hn
      cases hn
      exact ⟨hf.1, hf.2.1, t, config, rfl, heq, rfl, rfl⟩
    · rw [hop] at hn
      cases hn

omit [Fintype Tid] [DecidableEq Tid] in
/-- A section leaves another thread what it relies on. -/
theorem Coherent.ran_other (h : Coherent s) {v' : View} {c : Call (Entry Tid)} {op : QueueOp _}
    (hc : s.call who = some c) (hop : c.op = op) (hv : OpView s.view op v')
    (hne : some u ≠ who) : (s.frames u).Sound v' (s.past (some u)) := by
  have hshift : s.view.Shift v' → (∃ t, who = some t ∧ (s.frames t).exclusive = true) →
      (s.frames u).Sound v' (s.past (some u)) := by
    rintro hv ⟨t, rfl, ht⟩
    exact (h.frames u).shift (h.exclusion t u (by simpa [eq_comm] using hne) ht) hv
  cases hv with
  | other => exact h.frames u
  | close =>
    rcases (h.closing hc hop).2 with ⟨-, ha⟩ | ht
    · have hpassive : s.view.Passive { s.view with closed := true } :=
        ⟨rfl, rfl, .inl rfl, .inr ⟨rfl, ha⟩⟩
      by_cases hu : (s.frames u).exclusive = true ∨ (s.frames u).shared = true
      · exact (h.frames u).passive hu hpassive
      · exact (h.frames u).shift (by simpa using hu) hpassive.shift
    · exact hshift (.inr ⟨rfl, fun _ => rfl, .inl⟩) ht
  | reset =>
    obtain ⟨-, -, t, config, rfl, ht, -⟩ := h.resetting hc hop
    exact hshift (.inl rfl) ⟨t, rfl, by rw [ht]; rfl⟩

omit [Fintype Tid] [DecidableEq Tid] in
theorem Coherent.ran_worker (h : Coherent s) {v' : View} {c : Call (Entry Tid)} {op : QueueOp _}
    (hc : s.call who = some c) (hop : c.op = op) (hv : OpView s.view op v') :
    s.worker.Sound v' (s.past none) := by
  cases hv with
  | other => exact h.worker
  | close => exact h.worker.mono (.inl rfl) fun _ => rfl
  | reset =>
    rw [WorkerPc.eq_absent (h.resetting hc hop).2.1]
    trivial

omit [Fintype Tid] [DecidableEq Tid] in
theorem Coherent.ran_open (h : Coherent s) {v' : View} {c : Call (Entry Tid)} {op : QueueOp _}
    (hc : s.call who = some c) (hop : c.op = op) (hv : OpView s.view op v')
    (hr : s.running = true) : v'.closed = false := by
  cases hv with
  | other => exact h.runningOpen hr
  | close => simp [(h.closing hc hop).1] at hr
  | reset => rfl

omit [Fintype Tid] [DecidableEq Tid] in
theorem Coherent.ran_looping (h : Coherent s) {v' : View} {c : Call (Entry Tid)} {op : QueueOp _}
    (hc : s.call who = some c) (hop : c.op = op) (hv : OpView s.view op v')
    (hl : s.worker.looping = true) (hr : s.running = false) (hclosed : v'.closed = false) :
    ∃ t, (s.frames t).stopping = true := by
  cases hv with
  | other => exact h.loopingOpen hl hr hclosed
  | close => cases hclosed
  | reset =>
    rw [WorkerPc.eq_absent (h.resetting hc hop).2.1] at hl
    cases hl

section QueueSteps

variable {a : QueueAction (Entry Tid) (Option Tid)}
variable {queues : QueueState (Entry Tid) (Option Tid)} {qes : List (QueueEvent (Entry Tid))}

/-- An internal step of the queue runs a section of one thread, or changes nothing that
frames rely on. -/
theorem section_or_same (ha : a.internal = true) (hstep : s.queues.step a = some (queues, qes)) :
    (queues.queue = s.queue ∧ ∀ u, (queues.calls u).any Call.entered = s.past u) ∨
      ∃ who c alloc sec, s.call who = some c ∧ Outcome s.queue alloc c.op c.stage sec ∧
        queues.queue = sec.queue ∧ (queues.calls who).any Call.entered = true ∧
        ∀ u, u ≠ who → (queues.calls u).any Call.entered = s.past u := by
  have hinternal := fun u => (internal_step hstep ha u).2
  cases step_move hstep with
  | call | ret => cases ha
  | @run t alloc expired c sec hc hsec =>
    refine .inr ⟨t, c, alloc, sec, hc, hsec, rfl, by simp [hsec.entered], fun u hu => ?_⟩
    rcases hinternal u with hsame | ⟨⟨alloc', expired', heq⟩, -⟩
    · exact hsame
    · cases heq
      exact absurd rfl hu
  | notify | wake | timeout =>
    refine .inl ⟨rfl, fun u => ?_⟩
    rcases hinternal u with hsame | ⟨⟨alloc', expired', heq⟩, -⟩
    · exact hsame
    · cases heq

theorem Coherent.queue_step (h : Coherent s) (ha : a.internal = true)
    (hstep : s.queues.step a = some (queues, qes)) : Coherent { s with queues := queues } := by
  have hop := fun u => (internal_step hstep ha u).1
  have hfit := fitting_step h.fitting hstep
  have hlinked : ∀ t, ((queues.calls (some t)).map Call.op) = (s.frames t).queueOp :=
    fun t => (hop (some t)).trans (h.linked t)
  have hworkerLinked : (queues.calls none).map Call.op = s.worker.queueOp s.writeBatchSize :=
    (hop none).trans h.workerLinked
  rcases section_or_same ha hstep with ⟨hqueue, hpast⟩ | ⟨who, c, alloc, sec, hc, hsec, hqueue,
    hself, hpast⟩
  · have hview : LoggerState.view { s with queues := queues } = s.view := by
      simp only [LoggerState.view, LoggerState.queue, hqueue]
    refine ⟨h.exclusion, hfit, hlinked, hworkerLinked, fun t => ?_, ?_, ?_, h.runningWorker, ?_⟩
    · rw [hview]
      change (s.frames t).Sound _ ((queues.calls (some t)).any Call.entered)
      rw [hpast]
      exact h.frames t
    · rw [hview]
      change s.worker.Sound _ ((queues.calls none).any Call.entered)
      rw [hpast]
      exact h.worker
    · change s.running = true → queues.queue.closed = false
      rw [hqueue]
      exact h.runningOpen
    · change s.worker.looping = true → s.running = false → queues.queue.closed = false → _
      rw [hqueue]
      exact h.loopingOpen
  · have hview : LoggerState.view { s with queues := queues } =
        { s.view with closed := sec.queue.closed, generation := sec.queue.generation } := by
      simp only [LoggerState.view, LoggerState.queue, hqueue]
    have hclosed : queues.queue.closed = (LoggerState.view { s with queues := queues }).closed :=
      rfl
    have hv := hsec.onView
    rw [← hview] at hv
    refine ⟨h.exclusion, hfit, hlinked, hworkerLinked, fun t => ?_, ?_, ?_, h.runningWorker, ?_⟩
    · change (s.frames t).Sound _ ((queues.calls (some t)).any Call.entered)
      by_cases ht : some t = who
      · subst ht
        rw [hself]
        exact (h.frames t).ran (h.op_frame hc) hv
      · rw [hpast _ ht]
        exact h.ran_other hc rfl hv ht
    · change s.worker.Sound _ ((queues.calls none).any Call.entered)
      by_cases hnone : none = who
      · subst hnone
        rw [hself]
        exact h.worker.ran (h.op_worker hc) hv
      · rw [hpast _ hnone]
        exact h.ran_worker hc rfl hv
    · change s.running = true → queues.queue.closed = false
      rw [hclosed]
      exact h.ran_open hc rfl hv
    · change s.worker.looping = true → s.running = false → queues.queue.closed = false → _
      rw [hclosed]
      exact h.ran_looping hc rfl hv

end QueueSteps

theorem Coherent.step (h : Coherent s) {a : LoggerAction Tid}
    (hstep : s.step host a = some (s', es)) : Coherent s' := by
  cases loggerStep_move hstep with
  | begin request hidle => exact h.begin hidle request
  | app hmove heffect => exact h.app hmove heffect
  | work hmove heffect => exact h.work hmove heffect
  | queue ha hqstep => exact h.queue_step ha hqstep

/-- The lifecycle invariant holds in every reachable state. -/
theorem reaches_coherent {P : LoggerState Tid → LoggerAction Tid → Prop}
    (h : (loggerSystem host).Run P .initial es s) : Coherent s :=
  h.stable .initial fun _ _ _ _ hs _ hstep => hs.step hstep

end CppLogger
