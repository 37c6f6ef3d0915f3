import CppLogger.Logger.Deadlines
import CppLogger.Sinks.Lines

/-!
# The reservations of a logger

`init` lets the built-in sinks reserve memory for a batch, and the worker reserves a batch
of records, a batch of lines and each line. `reserve` throws beyond `max_size()`, and the
worker that runs into this ends the logger.
-/

namespace CppLogger

variable {Tid : Type*}

/-- `max_size()` of a vector of records, of a vector of strings, and of a string. -/
structure MaxSize where
  records : ℕ
  strings : ℕ
  text : ℕ
  deriving DecidableEq, Repr

namespace LoggerConfig

variable (maxSize : MaxSize) (config : LoggerConfig)

/-- `reservePending` of a built-in sink returns. -/
def ReservesPending : Prop :=
  config.writeBatchSize ≤ (wordBound - 1) / 256 → config.writeBatchSize * 256 ≤ maxSize.text

/-- No reservation keeps the sinks of the configuration from being made. -/
def Buildable : Prop :=
  config.enableFileSink = true ∨ config.enableConsoleSink = true → config.ReservesPending maxSize

/-- The worker's reservations for a batch return. -/
def Reservable : Prop :=
  config.writeBatchSize ≤ maxSize.records ∧ config.writeBatchSize ≤ maxSize.strings

instance : Decidable (config.ReservesPending maxSize) := inferInstanceAs (Decidable (_ → _))

instance : Decidable (config.Buildable maxSize) := inferInstanceAs (Decidable (_ → _))

instance : Decidable (config.Reservable maxSize) := inferInstanceAs (Decidable (_ ∧ _))

end LoggerConfig

section Sinks

variable {maxSize : MaxSize} {config : LoggerConfig} {io : Io}
  (hreserve : ∀ n, io.reserve n = decide (n ≤ maxSize.text))
include hreserve

theorem reservePending_iff :
    reservePending io config.writeBatchSize = true ↔ config.ReservesPending maxSize := by
  unfold reservePending LoggerConfig.ReservesPending
  split_ifs with hguard
  · simp [hreserve, hguard]
  · simp [hguard]

/-- The console sink is made exactly when its reservation returns. -/
theorem makeConsoleSink_iff :
    (∃ sink, makeConsoleSink io config.writeBatchSize = .ok sink) ↔
      config.ReservesPending maxSize := by
  rw [← reservePending_iff hreserve]
  unfold makeConsoleSink
  split_ifs with hpending <;> simp [hpending]

/-- A file sink that has been made has made its reservation. -/
theorem makeFileSink_reserves {localTime : Tm} {directory : Directory} {sink : FileSink}
    (h : makeFileSink io config.basePath config.maxFileSize config.writeBatchSize localTime
      directory = .ok sink) : config.ReservesPending maxSize := by
  rw [← reservePending_iff hreserve]
  unfold makeFileSink at h
  by_contra hpending
  split_ifs at h
  simp_all

end Sinks

/-- What `formatMessage` reserves for a line. -/
def lineReserve (host : Host Tid) (cache : TimestampCache) (record : LogRecord Tid) : ℕ :=
  word64 ((formatTime host cache record.timestamp).1.length + (levelToString record.level).length +
    record.file.length + record.message.length + 64)

/-- What the worker reserves in its next step if it formats a line there. -/
def LoggerState.reservesLine (host : Host Tid) (s : LoggerState Tid) : Option ℕ :=
  match s.worker with
  | .format _ batch formattedBatch _ =>
    batch[formattedBatch.length]?.map fun entry => lineReserve host s.cache entry.record
  | _ => none

/-- Whether a step succeeds when `reserve` throws exactly beyond `max_size()`, every other
allocation succeeds and the sinks do not throw when they are called; `none` leaves it open. -/
def LoggerState.granted (maxSize : MaxSize) (host : Host Tid) (s : LoggerState Tid) :
    LoggerAction Tid → Option Bool
  | .begin _ _ => none
  | .app t _ _ =>
    match s.frames t with
    -- Directories and files may still fail.
    | .initBuild config => if config.Buildable maxSize then none else some false
    | .logCapture _ _ => some true
    | _ => none
  | .work _ _ =>
    match s.worker with
    | .reserve =>
      some (decide (s.writeBatchSize ≤ maxSize.records ∧ s.writeBatchSize ≤ maxSize.strings))
    | .format _ _ _ _ => (s.reservesLine host).map fun n => decide (n ≤ maxSize.text)
    | .write _ _ true _ _ _ | .flushing _ _ true => some true
    | _ => none
  | .queue (.run none _ _) => some (decide (s.writeBatchSize ≤ maxSize.records))
  | .queue (.run (some _) _ _) => some true
  | .queue _ => none

/-- The scheduler's choice whether the step succeeds. -/
def LoggerAction.succeeds : LoggerAction Tid → Bool
  | .app _ ok _ | .work ok _ => ok
  | .queue a => a.allocates
  | .begin _ _ => true

def Reserves (maxSize : MaxSize) (host : Host Tid) (s : LoggerState Tid) (a : LoggerAction Tid) :
    Prop :=
  ∀ granted ∈ s.granted maxSize host a, a.succeeds = granted

/-- The line that the worker formats next is not too long to be reserved. -/
def LineFits (maxSize : MaxSize) (host : Host Tid) (s : LoggerState Tid) : Prop :=
  ∀ n ∈ s.reservesLine host, n ≤ maxSize.text

instance (maxSize : MaxSize) (host : Host Tid) (s : LoggerState Tid) (a : LoggerAction Tid) :
    Decidable (Reserves maxSize host s a) :=
  inferInstanceAs (Decidable (∀ granted ∈ s.granted maxSize host a, _))

instance (maxSize : MaxSize) (host : Host Tid) (s : LoggerState Tid) :
    Decidable (LineFits maxSize host s) :=
  inferInstanceAs (Decidable (∀ n ∈ s.reservesLine host, _))

/-- A thread is inside `stop`, and may still have to wait for the worker. -/
def Frame.stopsWorker : Frame Tid → Bool
  | .stopCloseQueue | .stopClosing | .stopJoin => true
  | _ => false

/-- The worker has been in an exception handler. -/
def WorkerPc.hasThrown : WorkerPc Tid → Bool
  | .caught _ | .closeQueue _ | .closing _ | .flushing (.last true) _ _ | .finished true => true
  | _ => false

/-- The worker has not left its loop through an exception, and `running_` is set as long as
there is a worker, unless it is being stopped. -/
structure Working (s : LoggerState Tid) : Prop where
  looping : s.worker.hasThrown = false
  running : s.worker.isAbsent = false → s.running = true ∨ ∃ t, (s.frames t).stopsWorker = true

variable {maxSize : MaxSize} {host : Host Tid} {s s' : LoggerState Tid} {t : Tid} {ok : Bool}
variable {now : ℤ} {f f' : Frame Tid} {pc pc' : WorkerPc Tid} {effect : Effect Tid}
variable {es fs : List (LoggerEvent Tid)} {a : LoggerAction Tid} {who : Option Tid}

theorem Working.initial : Working (LoggerState.initial : LoggerState Tid) where
  looping := rfl
  running h := by cases h

/-! ## The worker -/

theorem WorkerPc.hasThrown_flushing (site : FlushSite) (j k : ℕ) (busy busy' : Bool) :
    (WorkerPc.flushing site j busy : WorkerPc Tid).hasThrown =
      (WorkerPc.flushing site k busy' : WorkerPc Tid).hasThrown := by
  cases site with
  | last failed => cases failed <;> rfl
  | _ => rfl

/-- A step of the worker that finds its reservations granted. -/
theorem WorkerMove.hasThrown (h : WorkerMove host s ok now pc pc' effect fs) (hpc : s.worker = pc)
    (hreserves : Reserves maxSize host s (.work ok now)) (hfits : LineFits maxSize host s)
    (hbatch : s.writeBatchSize ≤ maxSize.records ∧ s.writeBatchSize ≤ maxSize.strings)
    (hcall : ∀ op, s.call none ≠ some ⟨op, .ret .threw⟩) (hlooping : pc.hasThrown = false) :
    pc'.hasThrown = false ∧ ∀ running, effect ≠ .setRunning running := by
  simp only [Reserves, LineFits, LoggerState.granted, LoggerState.reservesLine,
    LoggerAction.succeeds, hpc] at hreserves hfits
  cases h with
  | reserveThrew hok => simp [hok, hbatch] at hreserves
  | popThrew hc => exact absurd hc (hcall _)
  | flushThrew hok | writeThrew hok | lastFlushThrew hok => simp [hok] at hreserves
  | @formatThrew nf batch texts flag hlt hok =>
    have hentry : batch[texts.length]? = some batch[texts.length] := List.getElem?_eq_getElem hlt
    simp only [hentry, Option.map_some, Option.mem_some_iff, forall_eq'] at hreserves hfits
    simp [hok, hfits] at hreserves
  | caught | closeQueue | closing | closingFinal => cases hlooping
  | flush | flushed => exact ⟨(WorkerPc.hasThrown_flushing _ _ _ _ _).trans hlooping, by simp⟩
  | @lastFlushed failed k => exact ⟨by cases failed <;> exact hlooping, by simp⟩
  | _ => exact ⟨rfl, by simp⟩

/-! ## Application threads -/

/-- The configuration of an `init` that has made its sinks and not put them in place. -/
def Frame.built : Frame Tid → Option LoggerConfig
  | .initReset config | .initResetting config | .initConfigure config => some config
  | _ => none

/-- The sinks of every configuration that has got as far have been made, and the worker of
one whose batches can be reserved does not fail. -/
structure Granted (maxSize : MaxSize) (history : List (LoggerEvent Tid)) (s : LoggerState Tid) :
    Prop where
  built : ∀ t config, (s.frames t).built = some config → config.Buildable maxSize
  configured : ∀ config ∈ configurations history, config.Buildable maxSize
  call : s.writeBatchSize ≤ maxSize.records → ∀ op, s.call none ≠ some ⟨op, .ret .threw⟩
  working : s.writeBatchSize ≤ maxSize.records ∧ s.writeBatchSize ≤ maxSize.strings → Working s

theorem Granted.initial : Granted maxSize [] (LoggerState.initial : LoggerState Tid) where
  built t config h := by cases h
  configured config h := by cases h
  call _ op h := by cases h
  working _ := .initial

theorem Frame.not_built (h : f.exclusive = false) : f.built = none ∧ f.stopsWorker = false := by
  cases f <;> first | exact ⟨rfl, rfl⟩ | cases h

variable [Fintype Tid] [DecidableEq Tid]

omit [DecidableEq Tid] in
/-- A step of a thread that makes the sinks of a configuration. -/
theorem AppMove.built (h : AppMove s t ok now f f' effect es) (hf : s.frames t = f)
    (hreserves : Reserves maxSize host s (.app t ok now))
    (hold : ∀ config, f.built = some config → config.Buildable maxSize) :
    (∀ config, f'.built = some config → config.Buildable maxSize) ∧
      ∀ config ∈ configurations es, config.Buildable maxSize := by
  cases h with
  | @initBuild config hok =>
    refine ⟨?_, by simp [configurations]⟩
    rintro config' ⟨⟩
    by_contra hbuildable
    simp [Reserves, LoggerState.granted, hf, hbuildable, LoggerAction.succeeds, hok] at hreserves
  | initReset | initResetting => exact ⟨hold, by simp [configurations]⟩
  | @initConfigure config =>
    refine ⟨by simp [Frame.built], ?_⟩
    simpa [configurations] using hold config rfl
  | _ => exact ⟨by simp [Frame.built], by simp [configurations]⟩

omit [DecidableEq Tid] in
/-- Whatever a thread does, a worker runs with `running_` set or is about to be waited for. -/
theorem AppMove.attends (h : AppMove s t ok now f f' effect es)
    (hf : f.Sound s.view (s.past (some t))) :
    (effect.onView s.view).absent = true ∨ f'.stopsWorker = true ∨
      (effect.onView s.view).running = true ∨
        (effect.onView s.view).running = s.running ∧ f.stopsWorker = false ∧
          effect.onWorker s.worker = s.worker := by
  cases h <;> simp_all [Frame.Sound, Effect.onView, Effect.onWorker, Frame.stopsWorker,
    LoggerState.view, WorkerPc.isAbsent]

theorem apply_not_threw (h : s.apply who effect = some s')
    (hold : ∀ op, s.call none ≠ some ⟨op, .ret .threw⟩) (op : QueueOp (Entry Tid)) :
    s'.call none ≠ some ⟨op, .ret .threw⟩ := by
  cases who with
  | some t =>
    rw [apply_call_other h (by simp)]
    exact hold op
  | none =>
    cases effect with
    | call op' => simp [apply_call_self h]
    | ret =>
      simp only [LoggerState.apply, Option.map_eq_some_iff] at h
      obtain ⟨⟨queues, qes⟩, hr, rfl⟩ := h
      cases step_move hr with
      | ret => simp [LoggerState.call]
    | _ =>
      simp only [LoggerState.apply, Option.some.injEq] at h
      subst h
      exact hold op

omit [Fintype Tid] [DecidableEq Tid] in
theorem Effect.onWorker_hasThrown (h : pc.hasThrown = false) :
    (effect.onWorker pc).hasThrown = false := by
  cases effect <;> first | exact h | rfl

omit [Fintype Tid] [DecidableEq Tid] in
theorem Coherent.call_absent (hcoh : Coherent s) (habsent : s.worker.isAbsent = true) :
    s.call none = none := by
  have hlinked : (s.call none).map Call.op = none := by
    rw [hcoh.workerLinked, WorkerPc.eq_absent habsent]
    rfl
  simpa using hlinked

variable {history : List (LoggerEvent Tid)}

omit [Fintype Tid] in
theorem Granted.begin (h : Granted maxSize history s) (hidle : s.frames t = .idle)
    (request : Request) :
    Granted maxSize (history ++ if request = .stop then [.stopCalled t] else [])
      { s with
        frames := Function.update s.frames t (request.frame s.tickets)
        tickets := s.tickets + 1 } := by
  have hnew := Frame.not_built (Request.frame_outside Tid request s.tickets).1
  have hframes : ∀ u, (Function.update s.frames t (request.frame s.tickets) u).built =
      (s.frames u).built ∧ (Function.update s.frames t (request.frame s.tickets) u).stopsWorker =
        (s.frames u).stopsWorker := by
    intro u
    by_cases hut : u = t
    · subst hut
      rw [Function.update_self, hidle]
      exact hnew
    · rw [Function.update_of_ne hut]
      exact ⟨rfl, rfl⟩
  refine ⟨fun u config hu => h.built u config ((hframes u).1 ▸ hu), ?_, h.call, fun hfits => ?_⟩
  · have hnone :
        configurations (if request = .stop then [LoggerEvent.stopCalled t] else []) = [] := by
      split_ifs <;> rfl
    rw [configurations_append, hnone, List.append_nil]
    exact h.configured
  · refine ⟨(h.working hfits).looping, fun hlive => ((h.working hfits).running hlive).imp_right ?_⟩
    rintro ⟨u, hu⟩
    exact ⟨u, (hframes u).2 ▸ hu⟩

theorem Granted.app (h : Granted maxSize history s) (hcoh : Coherent s)
    (hreserves : Reserves maxSize host s (.app t ok now))
    (hmove : AppMove s t ok now (s.frames t) f' effect es)
    (heffect : s.apply (some t) effect = some s') :
    Granted maxSize (history ++ es) { s' with frames := Function.update s'.frames t f' } := by
  obtain ⟨hbuilt, hconfigured⟩ := hmove.built rfl hreserves (h.built t)
  have hframes := apply_frames heffect
  have hworker := apply_worker heffect
  have hsame : (∃ config, effect = .configure config) ∨ ∀ config, effect ≠ .configure config := by
    cases effect <;> simp
  have habsent : (∃ config, effect = .configure config) → s.worker.isAbsent = true := by
    rintro ⟨config, rfl⟩
    have hsound := hcoh.frames t
    generalize s.frames t = f at hmove hsound
    cases hmove with
    | initConfigure => exact hsound.2.1
  constructor
  case built =>
    intro u config hu
    change (Function.update s'.frames t f' u).built = some config at hu
    by_cases hut : u = t
    · subst hut
      rw [Function.update_self] at hu
      exact hbuilt config hu
    · rw [Function.update_of_ne hut, hframes] at hu
      exact h.built u config hu
  case configured =>
    intro config hconfig
    rw [configurations_append, List.mem_append] at hconfig
    exact hconfig.elim (h.configured config) (hconfigured config)
  case call =>
    intro hfits op
    change s'.call none ≠ _
    rcases hsame with hconfigure | hkeeps
    · rw [apply_call_other heffect (by simp), hcoh.call_absent (habsent hconfigure)]
      simp
    · have hsize := (apply_settings heffect hkeeps).1
      exact apply_not_threw heffect (h.call (hsize ▸ hfits)) op
  case working =>
    intro hfits
    rcases hsame with hconfigure | hkeeps
    · have hworker' : s'.worker = .absent := by
        obtain ⟨config, rfl⟩ := hconfigure
        exact hworker.trans (WorkerPc.eq_absent (habsent ⟨config, rfl⟩))
      constructor
      · change s'.worker.hasThrown = false
        rw [hworker']
        rfl
      · intro hlive
        change s'.worker.isAbsent = false at hlive
        rw [hworker'] at hlive
        cases hlive
    · have hsize := (apply_settings heffect hkeeps).1
      have hworking := h.working (hsize ▸ hfits)
      have hview := apply_view heffect
      constructor
      · change s'.worker.hasThrown = false
        rw [hworker]
        exact Effect.onWorker_hasThrown hworking.looping
      · intro hlive
        change s'.worker.isAbsent = false at hlive
        change s'.running = true ∨ ∃ u, (Function.update s'.frames t f' u).stopsWorker = true
        have hrunning : s'.running = (effect.onView s.view).running := congrArg View.running hview
        rcases hmove.attends (hcoh.frames t) with hgone | hstops | hset | ⟨hrun, hnot, hstays⟩
        · rw [← hview] at hgone
          exact absurd (hlive.symm.trans hgone) (by simp)
        · exact .inr ⟨t, by rwa [Function.update_self]⟩
        · exact .inl (hrunning.trans hset)
        · rw [hworker, hstays] at hlive
          rw [hrunning, hrun, hframes]
          refine (hworking.running hlive).imp_right ?_
          rintro ⟨u, hu⟩
          have hut : u ≠ t := by
            rintro rfl
            simp [hnot] at hu
          exact ⟨u, by rwa [Function.update_of_ne hut]⟩

theorem Granted.work (h : Granted maxSize history s)
    (hreserves : Reserves maxSize host s (.work ok now)) (hline : LineFits maxSize host s)
    (hmove : WorkerMove host s ok now s.worker pc' effect es)
    (heffect : s.apply none effect = some s') :
    Granted maxSize (history ++ es) { s' with worker := pc' } := by
  have hframes := apply_frames heffect
  have hkeeps : ∀ config, effect ≠ .configure config := by
    rintro config rfl
    cases hmove.keepsSettings
  have hsize : s'.writeBatchSize = s.writeBatchSize := (apply_settings heffect hkeeps).1
  constructor
  case built =>
    intro t config ht
    change (s'.frames t).built = some config at ht
    exact h.built t config (hframes ▸ ht)
  case configured =>
    rw [configurations_append, hmove.queueEvents.2.2.1, List.append_nil]
    exact h.configured
  case call =>
    intro hfits op
    exact apply_not_threw heffect (h.call (hsize ▸ hfits)) op
  case working =>
    intro hfits
    have hbatch : s.writeBatchSize ≤ maxSize.records ∧ s.writeBatchSize ≤ maxSize.strings :=
      hsize ▸ hfits
    have hworking := h.working hbatch
    obtain ⟨hlooping, hset⟩ := hmove.hasThrown rfl hreserves hline hbatch (h.call hbatch.1)
      hworking.looping
    have hrunning : s'.running = s.running := by
      have hview : s'.running = (effect.onView s.view).running :=
        congrArg View.running (apply_view heffect)
      rw [hview]
      cases effect <;> first | rfl | exact absurd rfl (hset _)
    refine ⟨hlooping, fun _ => ?_⟩
    change s'.running = true ∨ ∃ t, (s'.frames t).stopsWorker = true
    rw [hrunning, hframes]
    exact hworking.running hmove.live

omit [Fintype Tid] [DecidableEq Tid] in
theorem mem_configurations {config : LoggerConfig} :
    config ∈ configurations history ↔ .configured config ∈ history := by
  unfold configurations
  rw [List.mem_filterMap]
  constructor
  · rintro ⟨e, he, heq⟩
    cases e <;> simp only [Option.some.injEq, reduceCtorEq] at heq
    exact heq ▸ he
  · exact fun h => ⟨_, h, rfl⟩

theorem Granted.queue {b : QueueAction (Entry Tid) (Option Tid)}
    {queues : QueueState (Entry Tid) (Option Tid)} {qes : List (QueueEvent (Entry Tid))}
    (h : Granted maxSize history s) (hcoh : Coherent s)
    (hreserves : Reserves maxSize host s (.queue b))
    (hstep : s.queues.step b = some (queues, qes)) :
    Granted maxSize ((qes.map (LoggerEvent.queue b.actor)).foldl afterLoggerEvent history)
      { s with queues := queues } := by
  refine ⟨h.built, fun config hconfig => ?_, fun hfits => ?_, fun hfits => ?_⟩
  · rcases mem_foldl_afterLoggerEvent (mem_configurations.mp hconfig) with hold | hnew
    · exact h.configured config (mem_configurations.mpr hold)
    · simp at hnew
  · refine not_threw_step hcoh.fitting hstep ?_ (h.call hfits)
    rintro alloc expired rfl
    have hgranted := hreserves _ rfl
    exact hgranted.trans (decide_eq_true hfits)
  · exact ⟨(h.working hfits).looping, (h.working hfits).running⟩

theorem Granted.step (h : Granted maxSize history s) (hcoh : Coherent s)
    (hreserves : Reserves maxSize host s a) (hline : LineFits maxSize host s)
    (hstep : s.step host a = some (s', es)) :
    Granted maxSize (es.foldl afterLoggerEvent history) s' := by
  cases loggerStep_move hstep with
  | begin request hidle =>
    rw [foldl_afterLoggerEvent (by split_ifs <;> simp [LoggerEvent.isReset])]
    exact h.begin hidle request
  | app hmove heffect =>
    rw [foldl_afterLoggerEvent hmove.queueEvents.2.2.2]
    exact h.app hcoh hreserves hmove heffect
  | work hmove heffect =>
    rw [foldl_afterLoggerEvent hmove.queueEvents.2.2.2]
    exact h.work hreserves hline hmove heffect
  | queue hb hqstep => exact h.queue hcoh hreserves hqstep

/-- An environment that grants reservations up to `max_size()`, and records whose lines can
be reserved. -/
def Grants (maxSize : MaxSize) (host : Host Tid) (s : LoggerState Tid) (a : LoggerAction Tid) :
    Prop :=
  Reserves maxSize host s a ∧ LineFits maxSize host s

instance (maxSize : MaxSize) (host : Host Tid) (s : LoggerState Tid) (a : LoggerAction Tid) :
    Decidable (Grants maxSize host s a) :=
  inferInstanceAs (Decidable (_ ∧ _))

theorem reaches_granted (h : (loggerSystem host).Run (Grants maxSize host) .initial es s) :
    Granted maxSize (lifecycle es) s := by
  refine (h.attach fun _ _ hrun => reaches_coherent hrun).monitored afterLoggerEvent .initial ?_
  rintro history s a s' fs hinv ⟨⟨hreserves, hline⟩, hcoh⟩ hstep
  exact hinv.step hcoh hreserves hline hstep

/-- The worker of an accepted configuration goes on until it is stopped, whatever is logged,
exactly when its batches can be reserved or the sinks cannot be made. -/
theorem working_logger (maxSize : MaxSize) (host : Host Tid) (t : Tid) (config : LoggerConfig)
    (haccepted : config.rejected = false) :
    (∀ es s, (loggerSystem host).Run (Grants maxSize host) .initial es s →
        configurations (lifecycle es) = [config] → Working s) ↔
      (config.Buildable maxSize → config.Reservable maxSize) := by
  constructor
  · intro h hbuildable
    by_contra hreservable
    obtain ⟨es, s, hrun, hworker, hconfig⟩ :
        ∃ es s, (loggerSystem host).Run (Grants maxSize host) .initial es s ∧
          s.worker = .reserve ∧ configurations (lifecycle es) = [config] := by
      have hline : ∀ s : LoggerState Tid, s.worker = .absent ∨ s.worker = .reserve →
          LineFits maxSize host s := by
        rintro s (hs | hs) <;> simp [LineFits, LoggerState.reservesLine, hs]
      refine launch_run_of host t haccepted (fun s hs => ⟨nofun, hline s (.inl hs)⟩)
        (fun s hs hbuild => ⟨?_, hline s hs⟩) fun s hs => ⟨?_, hline s (.inl hs)⟩
      · intro granted hgranted
        cases hframe : s.frames t with
        | initBuild config' =>
          obtain rfl := hbuild config' hframe
          simp [LoggerState.granted, hframe, hbuildable] at hgranted
        | logCapture call g =>
          simpa [LoggerState.granted, hframe, LoggerAction.succeeds] using hgranted
        | _ => simp [LoggerState.granted, hframe] at hgranted
      · rintro granted ⟨⟩
        rfl
    have hsize : s.writeBatchSize = config.writeBatchSize :=
      congrArg Settings.writeBatchSize (reaches_settings hrun hconfig (by rw [hworker]; rfl))
    have hgrants : Grants maxSize host s (.work false 0) := by
      refine ⟨?_, by simp [LineFits, LoggerState.reservesLine, hworker]⟩
      rintro granted hgranted
      simp only [LoggerState.granted, hworker, hsize, Option.mem_some_iff] at hgranted
      exact (hgranted ▸ decide_eq_false hreservable).symm
    have hstep : (loggerSystem host).step s (.work false 0) =
        some ({ s with worker := .caught false }, []) := by
      simp [loggerSystem, LoggerState.step, LoggerState.workerStep, hworker, LoggerState.apply]
    have hworking := h _ _ (hrun.tail hgrants hstep) (by rwa [List.append_nil])
    cases hworking.looping
  · intro hfits es s hrun hconfig
    have hinv := reaches_granted hrun
    have hreservable := hfits (hinv.configured config (by simp [hconfig]))
    cases hlive : s.worker.isAbsent with
    | true =>
      refine ⟨?_, fun hworker => absurd (hlive.symm.trans hworker) (by simp)⟩
      rw [WorkerPc.eq_absent hlive]
      rfl
    | false =>
      have hsize : s.writeBatchSize = config.writeBatchSize :=
        congrArg Settings.writeBatchSize (reaches_settings hrun hconfig hlive)
      exact hinv.working (hsize ▸ hreservable)

/-- The limits on a platform with 64-bit pointers, where a record takes 104 bytes and a string
32. -/
def pointerSized : MaxSize := ⟨(2 ^ 63 - 1) / 104, (2 ^ 63 - 1) / 32, 2 ^ 63 - 1⟩

theorem working_logger_default :
    ∃ es s, (loggerSystem epochHost).Reaches .initial es s ∧ s.worker = .loop (10 ^ 9) ∧
      Working s := by
  obtain ⟨es, s, hrun, hconfig, hworker⟩ :
      ∃ es s, (loggerSystem epochHost).Run (Grants pointerSized epochHost) .initial es s ∧
        configurations (lifecycle es) = [oneSink] ∧ s.worker = .loop (10 ^ 9) :=
    ⟨_, _, .of_schedule (initSchedule .first oneSink ++ [.work true 0]) (by decide), by decide,
      by decide⟩
  exact ⟨es, s, hrun.reaches, hworker, (working_logger pointerSized epochHost .first oneSink
    (by decide)).mpr (by decide) es s hrun hconfig⟩

/-- A console and the largest batch size there is. -/
def endlessBatch : LoggerConfig where
  enableFileSink := false
  enableConsoleSink := true
  writeBatchSize := 2 ^ 64 - 1

/-- `init` returns true, nothing is logged, and the logger turns itself off. -/
theorem batch_unreserved :
    ∃ es s, (loggerSystem epochHost).Run (Grants pointerSized epochHost) .initial es s ∧
      .initReturned .first true ∈ es ∧ (∀ t, .stopCalled t ∉ es) ∧
      configurations (lifecycle es) = [endlessBatch] ∧ s.worker = .closeQueue false ∧
      s.running = false := by
  refine ⟨_, _, .of_schedule (initSchedule .first endlessBatch ++ [.work false 0, .work true 0])
    (by decide), by decide, ?_, by decide, by decide, by decide⟩
  decide

end CppLogger
