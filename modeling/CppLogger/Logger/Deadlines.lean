import CppLogger.Logger.Clock
import CppLogger.Logger.Delivery

/-!
# Deadlines and timed waits

`now + flushInterval_` and the timeout of a timed wait, in the arithmetic of the source:
intervals are 64-bit milliseconds, clock readings 64-bit nanoseconds. Under `Periodic` the
worker waits until the next flush is due, and flushes when a wait has timed out.
-/

namespace CppLogger

variable {Tid : Type*}

/-! ## Arming the deadline -/

/-- The integer is a value of the 64-bit representation of a duration. -/
def InRange (x : ℤ) : Prop := -2 ^ 63 ≤ x ∧ x ≤ 2 ^ 63 - 1

instance (x : ℤ) : Decidable (InRange x) := inferInstanceAs (Decidable (_ ∧ _))

/-- `now + flushInterval_` is computed without overflow: the interval is converted to
nanoseconds and then added. -/
def Representable (now flushInterval : ℤ) : Prop :=
  InRange (flushInterval * 10 ^ 6) ∧ InRange (deadline now flushInterval)

instance (now flushInterval : ℤ) : Decidable (Representable now flushInterval) :=
  inferInstanceAs (Decidable (_ ∧ _))

/-- The worker computes a deadline in its next step. -/
def WorkerPc.arming : WorkerPc Tid → Bool
  | .reserve | .rearm _ => true
  | _ => false

theorem representable_iff (flushInterval : ℤ) :
    (∀ now, 0 ≤ now → now ≤ 2 ^ 62 → Representable now flushInterval) ↔
      -2 ^ 63 ≤ flushInterval * 10 ^ 6 ∧ flushInterval * 10 ^ 6 ≤ 2 ^ 63 - 1 - 2 ^ 62 := by
  constructor
  · intro h
    have hearly := h 0 le_rfl (by norm_num)
    have hlate := h (2 ^ 62) (by norm_num) le_rfl
    simp only [Representable, InRange, deadline] at hearly hlate
    omega
  · intro h now hpos hlast
    simp only [Representable, InRange, deadline]
    omega

variable [Fintype Tid] [DecidableEq Tid] {host : Host Tid} {s s' : LoggerState Tid}
variable {es fs : List (LoggerEvent Tid)}

theorem available_alone {t : Tid} {f : Frame Tid}
    (hf : f.exclusive = false ∧ f.shared = false)
    (h : s.frames = Function.update (fun _ => .idle) t f) : s.available = true := by
  refine decide_eq_true fun u => ?_
  rw [h]
  by_cases hut : u = t
  · subst hut
    rwa [Function.update_self]
  · rw [Function.update_of_ne hut]
    exact ⟨rfl, rfl⟩

open Classical in
/-- Every accepted configuration comes into force in some run, whatever the environment is
asked for that it can give: a thread calls `init`, and nothing fails until the new worker
makes its first step. -/
theorem launch_run_of (host : Host Tid) (t : Tid) {config : LoggerConfig}
    (h : config.rejected = false) {P : LoggerState Tid → LoggerAction Tid → Prop}
    (hbegin : ∀ s, s.worker = .absent → P s (.begin t (.init config)))
    (happ : ∀ s, s.worker = .absent ∨ s.worker = .reserve →
      (∀ config', s.frames t = .initBuild config' → config = config') → P s (.app t true 0))
    (hqueue : ∀ s, s.worker = .absent → P s (.queue (.run (some t) true false))) :
    ∃ es s, (loggerSystem host).Run P .initial es s ∧ s.worker = .reserve ∧
      configurations (lifecycle es) = [config] := by
  let schedule : List (LoggerAction Tid) :=
    .begin t (.init config) :: List.replicate 6 (.app t true 0) ++
      .queue (.run (some t) true false) :: List.replicate 5 (.app t true 0)
  have hfree : ∀ s : LoggerState Tid,
      s.frames = Function.update (fun _ => .idle) t (.initEnter config) → s.available = true :=
    fun s => available_alone ⟨rfl, rfl⟩
  have hrun : (((loggerSystem host).exec P .initial schedule).map fun r =>
      (r.1.worker, configurations (lifecycle r.2))) = some (.reserve, [config]) := by
    simp [schedule, TransitionSystem.exec, loggerSystem, LoggerState.step, LoggerState.initial,
      Request.frame, LoggerState.appStep, LoggerState.apply, List.replicate, h, hfree, hbegin,
      happ, hqueue, QueueState.step, QueueState.initial, LoggerState.call, QueueAction.internal,
      QueueOp.criticalSection, BlockingQueue.reset, QueueAction.actor, lifecycle,
      afterLoggerEvent, configurations]
  obtain ⟨r, hr, hworker⟩ := Option.map_eq_some_iff.mp hrun
  obtain ⟨hreserve, hconfig⟩ := Prod.ext_iff.mp hworker
  exact ⟨r.2, r.1, .of_exec hr, hreserve, hconfig⟩

theorem launch_run (host : Host Tid) (t : Tid) {config : LoggerConfig}
    (h : config.rejected = false) :
    ∃ es s, (loggerSystem host).Reaches .initial es s ∧ s.worker = .reserve ∧
      configurations (lifecycle es) = [config] :=
  launch_run_of host t h (fun _ _ => trivial) (fun _ _ _ => trivial) fun _ _ => trivial

/-- While there is a worker, a lifecycle runs with the interval and the policy of its
configuration. -/
theorem reaches_interval {config : LoggerConfig} (h : (loggerSystem host).Reaches .initial es s)
    (hconfig : configurations (lifecycle es) = [config]) (hlive : s.worker.isAbsent = false) :
    s.flushInterval = config.flushInterval ∧ s.flushPolicy = config.flushPolicy := by
  have hsettings := reaches_settings h hconfig hlive
  exact ⟨congrArg Settings.flushInterval hsettings, congrArg Settings.flushPolicy hsettings⟩

/-- Whenever the worker of an accepted configuration arms the deadline, the arithmetic stays
within 64 bits, and under `Periodic` the deadline lies ahead, exactly when the interval
leaves room for the clock reading. -/
theorem deadline_arithmetic (host : Host Tid) (t : Tid) (config : LoggerConfig)
    (haccepted : config.rejected = false) :
    (∀ es s, (loggerSystem host).Reaches .initial es s → configurations (lifecycle es) = [config] →
        s.worker.arming = true → ∀ now, 0 ≤ now → now ≤ 2 ^ 62 →
          Representable now s.flushInterval ∧
            (s.flushPolicy = .Periodic → now < deadline now s.flushInterval)) ↔
      -2 ^ 63 ≤ config.flushInterval * 10 ^ 6 ∧
        config.flushInterval * 10 ^ 6 ≤ 2 ^ 63 - 1 - 2 ^ 62 := by
  rw [← representable_iff]
  constructor
  · intro h now hpos hlast
    obtain ⟨es, s, hrun, hworker, hconfig⟩ := launch_run host t haccepted
    have hinterval := (reaches_interval hrun hconfig (by rw [hworker]; rfl)).1
    exact hinterval ▸ (h es s hrun hconfig (by rw [hworker]; rfl) now hpos hlast).1
  · intro h es s hrun hconfig harming now hpos hlast
    have hlive : s.worker.isAbsent = false := by
      cases hworker : s.worker <;> first | rfl | simp [hworker, WorkerPc.arming] at harming
    obtain ⟨hinterval, hpolicy⟩ := reaches_interval hrun hconfig hlive
    refine ⟨hinterval ▸ h now hpos hlast, fun hperiodic => ?_⟩
    have hahead := config.flushInterval_pos haccepted (hpolicy.symm.trans hperiodic)
    rw [hinterval, deadline]
    omega

/-- One sink of the user, and the largest count of milliseconds. -/
def endlessInterval : LoggerConfig where
  enableFileSink := false
  additionalSinks := [some 1]
  flushInterval := 2 ^ 63 - 1

theorem deadline_arithmetic_default :
    ∃ es s, (loggerSystem epochHost).Reaches .initial es s ∧ s.worker.arming = true ∧
      Representable (2 ^ 62) s.flushInterval ∧ 2 ^ 62 < deadline (2 ^ 62) s.flushInterval := by
  obtain ⟨es, s, hrun, hconfig, harming, hperiodic⟩ :
      ∃ es s, (loggerSystem epochHost).Reaches .initial es s ∧
        configurations (lifecycle es) = [oneSink] ∧ s.worker.arming = true ∧
        s.flushPolicy = .Periodic :=
    ⟨_, _, .of_schedule (initSchedule .first oneSink) (by decide), by decide, by decide, by decide⟩
  obtain ⟨hrange, hahead⟩ := (deadline_arithmetic epochHost .first oneSink (by decide)).mpr
    (by decide) es s hrun hconfig harming (2 ^ 62) (by norm_num) le_rfl
  exact ⟨es, s, hrun, harming, hrange, hahead hperiodic⟩

/-- `init` accepts the interval, and the first deadline overflows at any clock reading. -/
theorem deadline_overflows :
    endlessInterval.rejected = false ∧
      ∃ es s, (loggerSystem epochHost).Reaches .initial es s ∧
        configurations (lifecycle es) = [endlessInterval] ∧ s.worker.arming = true ∧
        s.flushPolicy = .Periodic ∧ ¬Representable 0 s.flushInterval :=
  ⟨by decide, _, _, .of_schedule (initSchedule .first endlessInterval) (by decide), by decide,
    by decide, by decide, by decide⟩

end CppLogger
