import CppLogger.Logger.FailedInit

/-!
# The logging macros

`LOG_IMPL` asks `shouldLog` before it evaluates its message. The two reads of `shouldLog` are
made without the lifecycle lock, and `logStatic` makes them again under it. So the macros can
do nothing to the logger that calls of `logStatic` could not do, and a macro gives its record
to the queue unless the logger refuses it at some moment of the call.
-/

namespace CppLogger

variable {Tid : Type*}

/-- What a macro is given: a level, its place in the source, and a message that is evaluated
when `shouldLog` has returned true. -/
structure MacroCall where
  level : LogLevel
  file : Text
  line : ℤ
  message : Text
  deriving DecidableEq, Repr

/-- Where a thread stands in a macro: outside or already inside `logStatic`, or in front of one
of the reads of `shouldLog`. -/
inductive MacroFrame
  | outside
  | shouldLogRunning (call : MacroCall)
  | shouldLogLevel (call : MacroCall)
  deriving DecidableEq, Repr

structure MacroState (Tid : Type*) where
  logger : LoggerState Tid
  macros : Tid → MacroFrame

def MacroState.initial : MacroState Tid := ⟨.initial, fun _ => .outside⟩

inductive MacroAction (Tid : Type*)
  | logger (a : LoggerAction Tid)
  | begin (t : Tid) (call : MacroCall)
  | shouldLog (t : Tid)
  deriving DecidableEq, Repr

inductive MacroEvent (Tid : Type*)
  | logger (e : LoggerEvent Tid)
  | filtered (t : Tid) (call : MacroCall)
  | evaluated (t : Tid) (call : MacroCall)
  deriving DecidableEq, Repr

def MacroCall.request (call : MacroCall) : Request :=
  .logStatic call.level (some call.file) call.line call.message

/-- The call of `logStatic` with its number. -/
def MacroCall.logCall (call : MacroCall) (ticket : ℕ) : LogCall :=
  ⟨ticket, call.level, some call.file, call.line, call.message, true⟩

def MacroEvent.toLogger? : MacroEvent Tid → Option (LoggerEvent Tid)
  | .logger e => some e
  | _ => none

/-- A thread in a macro does not begin anything else. -/
def LoggerAction.begins : LoggerAction Tid → Option Tid
  | .begin t _ => some t
  | _ => none

section Step

variable [Fintype Tid] [DecidableEq Tid]

def MacroState.step (host : Host Tid) (s : MacroState Tid) :
    MacroAction Tid → Option (MacroState Tid × List (MacroEvent Tid))
  | .logger a =>
    if a.begins.all fun t => decide (s.macros t = .outside) then
      (s.logger.step host a).map fun r => ({ s with logger := r.1 }, r.2.map .logger)
    else none
  | .begin t call =>
    if s.macros t = .outside ∧ s.logger.frames t = .idle then
      some ({ s with macros := Function.update s.macros t (.shouldLogRunning call) }, [])
    else none
  | .shouldLog t =>
    match s.macros t with
    | .outside => none
    | .shouldLogRunning call =>
      if s.logger.running then
        some ({ s with macros := Function.update s.macros t (.shouldLogLevel call) }, [])
      else
        some ({ s with macros := Function.update s.macros t .outside }, [.filtered t call])
    | .shouldLogLevel call =>
      if s.logger.minLevel ≤ call.level.toInt then
        (s.logger.step host (.begin t call.request)).map fun r =>
          (⟨r.1, Function.update s.macros t .outside⟩, .evaluated t call :: r.2.map .logger)
      else
        some ({ s with macros := Function.update s.macros t .outside }, [.filtered t call])

/-- The logger with threads that use the macros. -/
def macroSystem (host : Host Tid) :
    TransitionSystem (MacroState Tid) (MacroAction Tid) (MacroEvent Tid) where
  step := MacroState.step host

end Step

/-! ## What a step can do -/

variable [Fintype Tid] [DecidableEq Tid]
variable {host : Host Tid} {s s' u : MacroState Tid} {t : Tid} {call : MacroCall}
variable {a : MacroAction Tid} {es fs : List (MacroEvent Tid)}

/-- All steps of the system. -/
inductive MacroMove (host : Host Tid) (s : MacroState Tid) :
    MacroAction Tid → MacroState Tid → List (MacroEvent Tid) → Prop
  | logger {b : LoggerAction Tid} {logger : LoggerState Tid} {fs : List (LoggerEvent Tid)}
      (hfree : ∀ t, b.begins = some t → s.macros t = .outside)
      (hstep : s.logger.step host b = some (logger, fs)) :
      MacroMove host s (.logger b) { s with logger := logger } (fs.map .logger)
  | begin {t : Tid} (call : MacroCall) (hout : s.macros t = .outside)
      (hidle : s.logger.frames t = .idle) :
      MacroMove host s (.begin t call)
        { s with macros := Function.update s.macros t (.shouldLogRunning call) } []
  | sawRunning {t : Tid} {call : MacroCall} (hat : s.macros t = .shouldLogRunning call)
      (h : s.logger.running = true) :
      MacroMove host s (.shouldLog t)
        { s with macros := Function.update s.macros t (.shouldLogLevel call) } []
  | notRunning {t : Tid} {call : MacroCall} (hat : s.macros t = .shouldLogRunning call)
      (h : s.logger.running = false) :
      MacroMove host s (.shouldLog t)
        { s with macros := Function.update s.macros t .outside } [.filtered t call]
  | evaluated {t : Tid} {call : MacroCall} {logger : LoggerState Tid}
      {fs : List (LoggerEvent Tid)} (hat : s.macros t = .shouldLogLevel call)
      (h : s.logger.minLevel ≤ call.level.toInt)
      (hstep : s.logger.step host (.begin t call.request) = some (logger, fs)) :
      MacroMove host s (.shouldLog t) ⟨logger, Function.update s.macros t .outside⟩
        (.evaluated t call :: fs.map .logger)
  | filtered {t : Tid} {call : MacroCall} (hat : s.macros t = .shouldLogLevel call)
      (h : call.level.toInt < s.logger.minLevel) :
      MacroMove host s (.shouldLog t)
        { s with macros := Function.update s.macros t .outside } [.filtered t call]

theorem macroStep_move (h : s.step host a = some (s', es)) : MacroMove host s a s' es := by
  cases a with
  | logger b =>
    simp only [MacroState.step] at h
    split_ifs at h with hfree
    obtain ⟨⟨logger, fs⟩, hstep, h⟩ := Option.map_eq_some_iff.mp h
    cases h
    refine .logger (fun t ht => ?_) hstep
    rw [ht] at hfree
    simpa using hfree
  | begin t call =>
    simp only [MacroState.step] at h
    split_ifs at h with hidle
    cases h
    exact .begin call hidle.1 hidle.2
  | shouldLog t =>
    simp only [MacroState.step] at h
    cases hat : s.macros t with
    | outside => simp [hat] at h
    | shouldLogRunning call =>
      simp only [hat] at h
      split_ifs at h with hrunning <;> cases h
      · exact .sawRunning hat hrunning
      · exact .notRunning hat (by simpa using hrunning)
    | shouldLogLevel call =>
      simp only [hat] at h
      split_ifs at h with hlevel
      · obtain ⟨⟨logger, fs⟩, hstep, h⟩ := Option.map_eq_some_iff.mp h
        cases h
        exact .evaluated hat hlevel hstep
      · cases h
        exact .filtered hat (not_le.mp hlevel)

omit [Fintype Tid] [DecidableEq Tid] in
theorem filterMap_toLogger (fs : List (LoggerEvent Tid)) :
    (fs.map MacroEvent.logger).filterMap MacroEvent.toLogger? = fs := by
  rw [List.filterMap_map]
  exact List.filterMap_some

/-- On the logger, a step of the system is a step of the plain one or nothing at all. -/
theorem macro_projects : TransitionSystem.Projects (macroSystem host) (loggerSystem host)
    (fun _ _ => True) (fun _ _ => True) MacroState.logger MacroEvent.toLogger? := by
  intro s a s' es _ hstep
  cases macroStep_move hstep with
  | logger hfree hplain =>
    rw [filterMap_toLogger]
    exact .inr ⟨_, trivial, hplain⟩
  | @evaluated t call logger fs hat h hplain =>
    refine .inr ⟨.begin t call.request, trivial, ?_⟩
    rw [List.filterMap_cons_none rfl, filterMap_toLogger]
    exact hplain
  | _ => exact .inl ⟨rfl, rfl⟩

/-! ## One macro -/

abbrev MacroTaken (Tid : Type*) :=
  TransitionSystem.Taken (MacroState Tid) (MacroAction Tid) (MacroEvent Tid)

variable {taken : List (MacroTaken Tid)}

/-- In this step the thread gives the record of the macro to `push`. -/
def Pushes (t : Tid) (call : MacroCall) (x : MacroTaken Tid) : Prop :=
  ∃ now g ticket, x.action = .logger (.app t true now) ∧
    x.after.logger.frames t = .logPush g ⟨ticket, (call.logCall ticket).record t now⟩

/-- The logger accepts the macro's record: it is running, with a level that lets it through. -/
def Accepts (call : MacroCall) (s : MacroState Tid) : Prop :=
  s.logger.running = true ∧ s.logger.minLevel ≤ call.level.toInt

/-- The thread cannot allocate its record in this step. -/
def CaptureFails (t : Tid) (x : MacroTaken Tid) : Prop :=
  ∃ now, x.action = .logger (.app t false now)

/-- The thread is inside the macro, and has not come to `push` yet. -/
inductive Underway (t : Tid) (call : MacroCall) (s : MacroState Tid) : Prop
  | shouldLogRunning (hat : s.macros t = .shouldLogRunning call)
      (hidle : s.logger.frames t = .idle)
  | shouldLogLevel (hat : s.macros t = .shouldLogLevel call) (hidle : s.logger.frames t = .idle)
  | logImpl (hout : s.macros t = .outside) (ticket : ℕ)
      (hframe : s.logger.frames t = .logEnter (call.logCall ticket) ∨
        s.logger.frames t = .logRunning (call.logCall ticket) ∨
        s.logger.frames t = .logLevel (call.logCall ticket) ∨
        s.logger.frames t = .logGeneration (call.logCall ticket) ∨
        ∃ g, s.logger.frames t = .logCapture (call.logCall ticket) g)

omit [Fintype Tid] [DecidableEq Tid] in
/-- What the others do does not move the thread. -/
theorem Underway.congr (h : Underway t call s) (hmacros : s'.macros t = s.macros t)
    (hframes : s'.logger.frames t = s.logger.frames t) : Underway t call s' := by
  cases h with
  | shouldLogRunning hat hidle =>
    exact .shouldLogRunning (hmacros.trans hat) (hframes.trans hidle)
  | shouldLogLevel hat hidle => exact .shouldLogLevel (hmacros.trans hat) (hframes.trans hidle)
  | logImpl hout ticket hframe =>
    refine .logImpl (hmacros.trans hout) ticket ?_
    rwa [hframes]

/-- A thread that is in `logImpl` comes closer to `push` while the logger accepts its record. -/
theorem Underway.logger_step {b : LoggerAction Tid} {logger : LoggerState Tid}
    {fs : List (LoggerEvent Tid)} (h : Underway t call s) (haccepts : Accepts call s)
    (hfree : ∀ t, b.begins = some t → s.macros t = .outside)
    (hstep : s.logger.step host b = some (logger, fs))
    (halloc : ¬∃ now, b = .app t false now) :
    Underway t call { s with logger := logger } ∨
      Pushes t call ⟨s, .logger b, { s with logger := logger }, fs.map .logger⟩ := by
  by_cases hactor : b.actor = some t
  · cases loggerStep_move hstep with
    | @begin u request hidle =>
      obtain rfl := Option.some.inj hactor
      have hout := hfree u rfl
      cases h with
      | shouldLogRunning hat | shouldLogLevel hat =>
        rw [hat] at hout
        cases hout
      | logImpl _ ticket hframe => simp [hidle] at hframe
    | @app u ok now next effect fs s₁ hmove heffect =>
      obtain rfl := Option.some.inj hactor
      have hok : ok = true := by
        cases ok with
        | true => rfl
        | false => exact absurd ⟨now, rfl⟩ halloc
      have hnext : (Function.update s₁.frames u next) u = next := Function.update_self ..
      cases h with
      | shouldLogRunning _ hidle | shouldLogLevel _ hidle =>
        rw [hidle] at hmove
        cases hmove
      | logImpl hout ticket hframe =>
        obtain ⟨hrunning, hlevel⟩ := haccepts
        rcases hframe with hframe | hframe | hframe | hframe | ⟨g, hframe⟩ <;> rw [hframe] at hmove
        · cases hmove
          exact .inl (.logImpl hout ticket (.inr (.inl hnext)))
        · cases hmove with
          | sawRunning => exact .inl (.logImpl hout ticket (.inr (.inr (.inl hnext))))
          | notRunning hstopped => simp [hrunning] at hstopped
        · cases hmove with
          | passed => exact .inl (.logImpl hout ticket (.inr (.inr (.inr (.inl hnext)))))
          | filtered hfiltered => exact absurd hlevel (not_le.mpr hfiltered)
        · cases hmove
          exact .inl (.logImpl hout ticket (.inr (.inr (.inr (.inr ⟨_, hnext⟩)))))
        · cases hmove with
          | logCapture => exact .inr ⟨now, g, ticket, by rw [hok], hnext⟩
          | captureThrew hthrew =>
            rw [hok] at hthrew
            cases hthrew
    | work => cases hactor
    | queue => exact .inl (h.congr rfl rfl)
  · exact .inl (h.congr rfl (others_step hstep hactor).1)

/-- As long as the logger accepts the record, a thread that is in the macro stays on its way to
`push`. -/
theorem Underway.step (h : Underway t call s) (haccepts : Accepts call s)
    (hstep : s.step host a = some (s', es)) (halloc : ¬CaptureFails t ⟨s, a, s', es⟩) :
    Underway t call s' ∨ Pushes t call ⟨s, a, s', es⟩ := by
  cases macroStep_move hstep with
  | logger hfree hplain =>
    refine h.logger_step haccepts hfree hplain ?_
    rintro ⟨now, rfl⟩
    exact halloc ⟨now, rfl⟩
  | @begin u call' hout hidle =>
    by_cases hu : t = u
    · subst hu
      cases h with
      | shouldLogRunning hat | shouldLogLevel hat =>
        rw [hat] at hout
        cases hout
      | logImpl _ ticket hframe => simp [hidle] at hframe
    · exact .inl (h.congr (Function.update_of_ne hu _ _) rfl)
  | @sawRunning u call' hat hrunning =>
    by_cases hu : t = u
    · subst hu
      cases h with
      | shouldLogRunning hat' hidle =>
        obtain rfl := MacroFrame.shouldLogRunning.inj (hat.symm.trans hat')
        exact .inl (.shouldLogLevel (Function.update_self ..) hidle)
      | shouldLogLevel hat' => cases hat.symm.trans hat'
      | logImpl hout => cases hat.symm.trans hout
    · exact .inl (h.congr (Function.update_of_ne hu _ _) rfl)
  | @notRunning u call' hat hstopped =>
    by_cases hu : t = u
    · rw [haccepts.1] at hstopped
      cases hstopped
    · exact .inl (h.congr (Function.update_of_ne hu _ _) rfl)
  | @evaluated u call' logger fs hat hlevel hplain =>
    by_cases hu : t = u
    · subst hu
      cases h with
      | shouldLogRunning hat' => cases hat.symm.trans hat'
      | shouldLogLevel hat' hidle =>
        obtain rfl := MacroFrame.shouldLogLevel.inj (hat.symm.trans hat')
        cases loggerStep_move hplain with
        | begin =>
          refine .inl (.logImpl (Function.update_self ..) s.logger.tickets (.inl ?_))
          exact Function.update_self ..
      | logImpl hout => cases hat.symm.trans hout
    · refine .inl (h.congr (Function.update_of_ne hu _ _) (others_step hplain ?_).1)
      exact fun heq => hu (Option.some.inj heq).symm
  | @filtered u call' hat hlevel =>
    by_cases hu : t = u
    · subst hu
      cases h with
      | shouldLogRunning hat' => cases hat.symm.trans hat'
      | shouldLogLevel hat' =>
        obtain rfl := MacroFrame.shouldLogLevel.inj (hat.symm.trans hat')
        exact absurd haccepts.2 (not_le.mpr hlevel)
      | logImpl hout => cases hat.symm.trans hout
    · exact .inl (h.congr (Function.update_of_ne hu _ _) rfl)

/-- The message is evaluated by a thread that has seen the logger running, at a moment at which
the level lets the record through. -/
theorem evaluates (hstep : s.step host a = some (s', es)) (h : .evaluated t call ∈ es) :
    s.macros t = .shouldLogLevel call ∧ s.logger.minLevel ≤ call.level.toInt := by
  cases macroStep_move hstep with
  | evaluated hat hlevel =>
    rcases List.mem_cons.mp h with heq | hmem
    · cases heq
      exact ⟨hat, hlevel⟩
    · simp at hmem
  | _ => simp at h

/-- Nobody passes the first read of `shouldLog` when the logger is not running. -/
theorem stays_in_front (hstep : s.step host a = some (s', es)) (hrunning : s.logger.running = false)
    (h : ∀ call, s.macros t ≠ .shouldLogLevel call) :
    ∀ call, s'.macros t ≠ .shouldLogLevel call := by
  have hupdate : ∀ {u : Tid} {f : MacroFrame}, (∀ call, f ≠ .shouldLogLevel call) →
      ∀ call, Function.update s.macros u f t ≠ .shouldLogLevel call := by
    intro u f hf call
    by_cases hu : t = u
    · subst hu
      rw [Function.update_self]
      exact hf call
    · rw [Function.update_of_ne hu]
      exact h call
  cases macroStep_move hstep with
  | logger => exact h
  | begin => exact hupdate (by simp)
  | sawRunning hat hsaw =>
    rw [hrunning] at hsaw
    cases hsaw
  | notRunning | evaluated | filtered => exact hupdate (by simp)

/-- A macro leaves the way to `push` only by coming there, by being refused or by failing. -/
theorem macro_underway (h : Underway t call s')
    (hrun : (macroSystem host).stepwise.Reaches s' taken u) :
    Underway t call u ∨ (∃ x ∈ taken, Pushes t call x) ∨ (∃ x ∈ taken, ¬Accepts call x.before) ∨
      ∃ x ∈ taken, CaptureFails t x := by
  induction hrun with
  | refl => exact .inl h
  | @tail taken _ v w a hrun _ hstep ih =>
    obtain ⟨fs, hplain, rfl⟩ := TransitionSystem.stepwise_step hstep
    have hlast : ∀ x, x ∈ taken ++ [x] := fun x => List.mem_append_right taken (by simp)
    rcases ih with hunder | ⟨x, hx, hpush⟩ | ⟨x, hx, hrefuses⟩ | ⟨x, hx, hfails⟩
    · by_cases haccepts : Accepts call v
      · by_cases halloc : CaptureFails t ⟨v, a, w, fs⟩
        · exact .inr (.inr (.inr ⟨_, hlast _, halloc⟩))
        · rcases hunder.step haccepts hplain halloc with hnext | hpush
          · exact .inl hnext
          · exact .inr (.inl ⟨_, hlast _, hpush⟩)
      · exact .inr (.inr (.inl ⟨_, hlast _, haccepts⟩))
    · exact .inr (.inl ⟨x, List.mem_append_left _ hx, hpush⟩)
    · exact .inr (.inr (.inl ⟨x, List.mem_append_left _ hx, hrefuses⟩))
    · exact .inr (.inr (.inr ⟨x, List.mem_append_left _ hx, hfails⟩))

/-- A thread is in front of the second read of `shouldLog` only if the logger has been
running since. -/
theorem macro_seen_running (h : ∀ call, s'.macros t ≠ .shouldLogLevel call)
    (hrun : (macroSystem host).stepwise.Reaches s' taken u) :
    (∃ x ∈ taken, x.before.logger.running = true) ∨ ∀ call, u.macros t ≠ .shouldLogLevel call := by
  induction hrun with
  | refl => exact .inr h
  | @tail taken _ v w a hrun _ hstep ih =>
    obtain ⟨fs, hplain, rfl⟩ := TransitionSystem.stepwise_step hstep
    rcases ih with ⟨x, hx, hrunning⟩ | hfront
    · exact .inl ⟨x, List.mem_append_left _ hx, hrunning⟩
    · cases hrunning : v.logger.running with
      | true => exact .inl ⟨_, List.mem_append_right _ (List.mem_singleton_self _), hrunning⟩
      | false => exact .inr (stays_in_front hplain hrunning hfront)

theorem macro_evaluates (h : ∀ call, s'.macros t ≠ .shouldLogLevel call)
    (hrun : (macroSystem host).stepwise.Reaches s' taken u)
    (hevaluated : ∃ x ∈ taken, .evaluated t call ∈ x.events) :
    (∃ x ∈ taken, x.before.logger.running = true) ∧
      ∃ x ∈ taken, x.before.logger.minLevel ≤ call.level.toInt := by
  induction hrun with
  | refl =>
    obtain ⟨x, hx, -⟩ := hevaluated
    cases hx
  | @tail taken _ v w a hrun _ hstep ih =>
    obtain ⟨fs, hplain, rfl⟩ := TransitionSystem.stepwise_step hstep
    have hgrows : ∀ {P : MacroTaken Tid → Prop} {y : MacroTaken Tid}, (∃ x ∈ taken, P x) →
        ∃ x ∈ taken ++ [y], P x := fun ⟨x, hx, hP⟩ => ⟨x, List.mem_append_left _ hx, hP⟩
    obtain ⟨x, hx, hevent⟩ := hevaluated
    rcases List.mem_append.mp hx with hx | hx
    · obtain ⟨hrunning, hlevel⟩ := ih ⟨x, hx, hevent⟩
      exact ⟨hgrows hrunning, hgrows hlevel⟩
    · obtain rfl := List.mem_singleton.mp hx
      obtain ⟨hat, hlevel⟩ := evaluates hplain hevent
      refine ⟨?_, _, List.mem_append_right _ (List.mem_singleton_self _), hlevel⟩
      rcases macro_seen_running h hrun with hrunning | hfront
      · exact hgrows hrunning
      · exact absurd hat (hfront call)

/-- A macro and everything that happens until its call is over. On the logger the run is one of
calls of `logStatic`. The record has been given to `push`, unless the logger did not accept it
at some moment of the call or the record could not be allocated; and the message has not even
been evaluated unless the logger has been running and the level has let the record through, at
moments of the call. -/
theorem logging_macro (h : (macroSystem host).Reaches .initial es s)
    (hbegin : s.step host (.begin t call) = some (s', fs))
    (hrun : (macroSystem host).stepwise.Reaches s' taken u)
    (hover : u.macros t = .outside ∧ u.logger.frames t = .idle) :
    (loggerSystem host).Reaches .initial
        ((es ++ fs ++ taken.flatMap (·.events)).filterMap MacroEvent.toLogger?) u.logger ∧
      ((∃ x ∈ taken, Pushes t call x) ∨ (∃ x ∈ taken, ¬Accepts call x.before) ∨
        ∃ x ∈ taken, CaptureFails t x) ∧
      ((∃ x ∈ taken, .evaluated t call ∈ x.events) →
        (∃ x ∈ taken, x.before.logger.running = true) ∧
          ∃ x ∈ taken, x.before.logger.minLevel ≤ call.level.toInt) := by
  have hfirst : (macroSystem host).step s (.begin t call) = some (s', fs) := hbegin
  have hwhole : (macroSystem host).Reaches .initial (es ++ fs ++ taken.flatMap (·.events)) u :=
    (h.trans (.single trivial hfirst)).trans hrun.forgets
  have hat : s'.macros t = .shouldLogRunning call ∧ s'.logger.frames t = .idle := by
    cases macroStep_move hbegin with
    | begin _ hout hidle => exact ⟨Function.update_self .., hidle⟩
  refine ⟨hwhole.project _ _ macro_projects, ?_, ?_⟩
  · rcases macro_underway (.shouldLogRunning hat.1 hat.2) hrun with hunder | hended
    · cases hunder with
      | shouldLogRunning hin | shouldLogLevel hin =>
        rw [hover.1] at hin
        cases hin
      | logImpl _ ticket hframe => simp [hover.2] at hframe
    · exact hended
  · apply macro_evaluates _ hrun
    intro other
    rw [hat.1]
    exact MacroFrame.noConfusion

def macroCall : MacroCall := ⟨.INFO, ['f'], 1, ['m']⟩

/-- `shouldLog` lets the macro through, and `logImpl` finds the logger stopped. -/
def overtakenSchedule : List (MacroAction TwoThreads) :=
  List.replicate 2 (.shouldLog .second) ++ (stopSchedule .first).map .logger ++
    List.replicate 2 (.logger (.app .second true 0))

theorem logging_macro_overtaken :
    ∃ es s s' fs taken u, (macroSystem epochHost).Reaches .initial es s ∧
      s.step epochHost (.begin .second macroCall) = some (s', fs) ∧
      (macroSystem epochHost).stepwise.Reaches s' taken u ∧
      (∃ x ∈ taken, .evaluated .second macroCall ∈ x.events) ∧
      u.logger.queue.queue = [] ∧
      ((∃ x ∈ taken, Pushes .second macroCall x) ∨
        (∃ x ∈ taken, ¬Accepts macroCall x.before) ∨ ∃ x ∈ taken, CaptureFails .second x) ∧
      (∃ x ∈ taken, x.before.logger.running = true) ∧
        ∃ x ∈ taken, x.before.logger.minLevel ≤ 1 := by
  obtain ⟨es, s, s', fs, taken, u, h, hbegin, hrun, hevaluated, hqueue, hover⟩ :
      ∃ es s s' fs taken u, (macroSystem epochHost).Reaches .initial es s ∧
        s.step epochHost (.begin .second macroCall) = some (s', fs) ∧
        (macroSystem epochHost).stepwise.Reaches s' taken u ∧
        (∃ x ∈ taken, .evaluated .second macroCall ∈ x.events) ∧ u.logger.queue.queue = [] ∧
        u.macros .second = .outside ∧ u.logger.frames .second = .idle :=
    ⟨_, _, _, _, _, _, .of_schedule ((initSchedule .first oneSink).map .logger) (by decide), rfl,
      .of_schedule overtakenSchedule (by decide), by decide, by decide, by decide, by decide⟩
  obtain ⟨-, hfate, hreads⟩ := logging_macro h hbegin hrun hover
  exact ⟨es, s, s', fs, taken, u, h, hbegin, hrun, hevaluated, hqueue, hfate, hreads hevaluated⟩

end CppLogger
