import CppLogger.Logger.Settings

/-!
# The logger and its clocks

The worker reads the steady clock before a timed wait, after one, after writing a batch and
whenever it arms the deadline of the next flush. The clocked logger keeps the time: every
action comes with the value of the steady clock, and every event with the time at which it
was seen.
-/

namespace CppLogger

variable {Tid : Type*}

/-- The value of the steady clock, what the worker last read of it, and when its timed wait
is over, all in nanoseconds. -/
structure ClockedState (Tid : Type*) where
  logger : LoggerState Tid
  now : ℤ
  reading : ℤ
  waitEnd : ℤ

def ClockedState.initial (start : ℤ) : ClockedState Tid := ⟨.initial, start, start, start⟩

/-- An action of the logger and the value of the steady clock at that moment. -/
structure ClockedAction (Tid : Type*) where
  now : ℤ
  action : LoggerAction Tid
  deriving DecidableEq, Repr

/-- The clock of the worker is the steady clock. -/
def LoggerAction.at (now : ℤ) : LoggerAction Tid → LoggerAction Tid
  | .work ok _ => .work ok now
  | a => a

/-- The worker reads the clock in its next step. -/
def WorkerPc.reads (flushPolicy : FlushPolicy) (ok : Bool) : WorkerPc Tid → Bool
  | .reserve => ok
  | .rearm _ => true
  | .loop _ | .idle _ | .written _ _ => decide (flushPolicy = .Periodic)
  | _ => false

def LoggerState.reads (s : LoggerState Tid) : LoggerAction Tid → Bool
  | .work ok _ => s.worker.reads s.flushPolicy ok
  | _ => false

/-- The end of the wait that the worker begins in this step. -/
def LoggerState.waitsUntil (s : LoggerState Tid) (now : ℤ) : LoggerAction Tid → Option ℤ
  | .work _ _ =>
    match s.worker with
    | .loop nextFlush => some (now + waitTimeout now nextFlush * 10 ^ 6)
    | _ => none
  | _ => none

variable [Fintype Tid] [DecidableEq Tid]

def ClockedState.step (host : Host Tid) (c : ClockedState Tid) (x : ClockedAction Tid) :
    Option (ClockedState Tid × List (ℤ × LoggerEvent Tid)) :=
  (c.logger.step host (x.action.at x.now)).map fun r =>
    ({ logger := r.1
       now := x.now
       reading := if c.logger.reads x.action then x.now else c.reading
       waitEnd := (c.logger.waitsUntil x.now x.action).getD c.waitEnd },
      r.2.map (Prod.mk x.now))

/-- The logger under every interleaving of its threads and every behaviour of its clock. -/
def clockedSystem (host : Host Tid) :
    TransitionSystem (ClockedState Tid) (ClockedAction Tid) (ℤ × LoggerEvent Tid) where
  step := ClockedState.step host

/-- The steady clock does not go back. -/
def Forward (c : ClockedState Tid) (x : ClockedAction Tid) : Prop := c.now ≤ x.now

instance (c : ClockedState Tid) (x : ClockedAction Tid) : Decidable (Forward c x) :=
  inferInstanceAs (Decidable (_ ≤ _))

/-! ## Steps -/

variable {host : Host Tid} {s : LoggerState Tid} {c c' : ClockedState Tid}
variable {x : ClockedAction Tid}
variable {es : List (ℤ × LoggerEvent Tid)}

/-- A step of the clocked logger is a step of the logger at a certain time. -/
structure ClockedStep (host : Host Tid) (c : ClockedState Tid) (x : ClockedAction Tid)
    (c' : ClockedState Tid) (es : List (ℤ × LoggerEvent Tid)) (fs : List (LoggerEvent Tid)) :
    Prop where
  logger : c.logger.step host (x.action.at x.now) = some (c'.logger, fs)
  events : es = fs.map (Prod.mk x.now)
  now : c'.now = x.now
  reading : c'.reading = if c.logger.reads x.action then x.now else c.reading
  waitEnd : c'.waitEnd = (c.logger.waitsUntil x.now x.action).getD c.waitEnd

theorem clocked_step (h : c.step host x = some (c', es)) : ∃ fs, ClockedStep host c x c' es fs := by
  simp only [ClockedState.step, Option.map_eq_some_iff] at h
  obtain ⟨⟨s, fs⟩, hstep, h⟩ := h
  cases h
  exact ⟨fs, hstep, rfl, rfl, rfl, rfl⟩

omit [Fintype Tid] [DecidableEq Tid] in
theorem LoggerAction.at_eq_work {a : LoggerAction Tid} {ok : Bool} {time now : ℤ}
    (h : a.at time = .work ok now) : now = time ∧ ∃ reported, a = .work ok reported := by
  cases a <;> cases h
  exact ⟨rfl, _, rfl⟩

omit [Fintype Tid] [DecidableEq Tid] in
theorem LoggerAction.at_eq_queue {a : LoggerAction Tid} {time : ℤ}
    {b : QueueAction (Entry Tid) (Option Tid)} (h : a.at time = .queue b) : a = .queue b := by
  cases a <;> first | exact h | cases h

omit [Fintype Tid] [DecidableEq Tid] in
theorem LoggerState.waitsUntil_other {a : LoggerAction Tid} {time : ℤ}
    (h : ∀ ok now, a.at time ≠ .work ok now) : s.waitsUntil time a = none := by
  cases a with
  | work ok now => exact absurd rfl (h ok time)
  | _ => rfl

omit [Fintype Tid] [DecidableEq Tid] in
theorem LoggerState.reads_other {a : LoggerAction Tid} {time : ℤ}
    (h : ∀ ok now, a.at time ≠ .work ok now) : s.reads a = false := by
  cases a with
  | work ok now => exact absurd rfl (h ok time)
  | _ => rfl

/-- Without its clock, a run of the clocked logger is a run of the logger. -/
theorem clocked_projects (host : Host Tid) (P : ClockedState Tid → ClockedAction Tid → Prop) :
    TransitionSystem.Projects (clockedSystem host) (loggerSystem host) P (fun _ _ => True)
      ClockedState.logger fun e => some e.2 := by
  intro c x c' es _ hstep
  obtain ⟨fs, hstep⟩ := clocked_step hstep
  have hfs : es.filterMap (fun e => some e.2) = fs := by simp [hstep.events]
  exact .inr ⟨_, trivial, hfs ▸ hstep.logger⟩

theorem clocked_reaches {P : ClockedState Tid → ClockedAction Tid → Prop} {start : ℤ}
    (h : (clockedSystem host).Run P (.initial start) es c) :
    (loggerSystem host).Reaches .initial (es.map Prod.snd) c.logger := by
  have hrun := TransitionSystem.Run.project _ _ (clocked_projects host P) h
  rwa [← List.filterMap_eq_map']

/-- What the worker may rely on whatever the clock does. -/
structure Equipped (s : LoggerState Tid) : Prop where
  coherent : Coherent s
  sinks : s.worker.isAbsent = false → s.sinks ≠ []
  interval : s.worker.isAbsent = false → s.flushPolicy = .Periodic → 0 < s.flushInterval

omit [Fintype Tid] [DecidableEq Tid] in
theorem LoggerConfig.flushInterval_pos {config : LoggerConfig} (h : config.rejected = false)
    (hpolicy : config.flushPolicy = .Periodic) : 0 < config.flushInterval := by
  simp only [LoggerConfig.rejected, Bool.or_eq_false_iff, hpolicy, decide_true, Bool.true_and,
    decide_eq_false_iff_not] at h
  omega

theorem clocked_equipped {P : ClockedState Tid → ClockedAction Tid → Prop} {start : ℤ}
    (h : (clockedSystem host).Run P (.initial start) es c) : Equipped c.logger := by
  have hrun := clocked_reaches h
  refine ⟨(reaches_fanOut hrun).2, fun hlive => ?_, fun hlive hpolicy => ?_⟩ <;>
    obtain ⟨config, -, haccepted, hsettings⟩ := reaches_configured hrun hlive
  · rw [show c.logger.sinks = config.newSinks from congrArg Settings.sinks hsettings]
    exact config.newSinks_ne_nil haccepted
  · rw [show c.logger.flushInterval = config.flushInterval from
      congrArg Settings.flushInterval hsettings]
    exact LoggerConfig.flushInterval_pos haccepted
      ((congrArg Settings.flushPolicy hsettings).symm.trans hpolicy)

end CppLogger
