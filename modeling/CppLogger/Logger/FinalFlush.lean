import CppLogger.Logger.Flushing

/-!
# The last flush

However the worker leaves its loop, it flushes the sinks once more before it returns. The
first sink whose flush throws ends that last `flushSinks`; a sink behind it misses the flush.
-/

namespace CppLogger

variable {Tid : Type*}

/-- A call of sink `k` has thrown in the current lifecycle. -/
def Threw (k : ℕ) (history : List (LoggerEvent Tid)) : Prop :=
  .wrote k false ∈ history ∨ .flushed k false ∈ history

instance [DecidableEq Tid] (k : ℕ) (history : List (LoggerEvent Tid)) :
    Decidable (Threw k history) :=
  inferInstanceAs (Decidable (_ ∨ _))

/-- The sink whose exception ends the last `flushSinks` in this step. -/
def LoggerState.givesUp (s : LoggerState Tid) : LoggerAction Tid → Option ℕ
  | .work false _ =>
    match s.worker with
    | .flushing (.last _) k true => some k
    | _ => none
  | _ => none

/-- When a sink ends the last `flushSinks`, no sink behind it has anything unflushed, save
those that have thrown themselves. -/
def Spares (o : List (ℤ × LoggerEvent Tid) × ClockedState Tid) (x : ClockedAction Tid) : Prop :=
  ∀ i ∈ o.2.logger.givesUp x.action, ∀ k < o.2.logger.sinks.length, i < k →
    ¬Threw k (lifecycle (o.1.map Prod.snd)) → unflushed k o.1 = []

instance [DecidableEq Tid] (o : List (ℤ × LoggerEvent Tid) × ClockedState Tid)
    (x : ClockedAction Tid) : Decidable (Spares o x) :=
  inferInstanceAs (Decidable (∀ i ∈ o.2.logger.givesUp x.action,
    ∀ k < o.2.logger.sinks.length, _ → _ → _))

/-- What the last `flushSinks` has achieved for the sinks in front of the worker, and in the
end for all that have not thrown. -/
def WorkerPc.Finishing (count : ℕ) (threw : ℕ → Prop) (writes : ℕ → Writes Tid) :
    WorkerPc Tid → Prop
  | .flushing (.last _) k _ => ∀ i < k, writes i = []
  | .caught true | .closeQueue true | .closing true | .finished _ =>
    ∀ k < count, ¬threw k → writes k = []
  | _ => True

variable {count : ℕ} {threw threw' : ℕ → Prop} {writes writes' : ℕ → Writes Tid}
variable {pc pc' : WorkerPc Tid} {s s' : LoggerState Tid} {ok : Bool} {now : ℤ} {host : Host Tid}
variable {effect : Effect Tid} {fs history : List (LoggerEvent Tid)}

theorem WorkerPc.Finishing.mono (h : pc.Finishing count threw writes)
    (hwrites : ∀ k, writes k = [] → writes' k = [])
    (hthrew : ∀ k, ¬threw' k → ¬threw k ∨ writes' k = []) : pc.Finishing count threw' writes' := by
  unfold WorkerPc.Finishing at h ⊢
  split at h
  case h_1 => exact fun i hi => hwrites i (h i hi)
  case h_6 => trivial
  all_goals
    exact fun k hk hne => (hthrew k hne).elim (fun hne => hwrites k (h k hk hne)) id

theorem WorkerMove.finishing (h : WorkerMove host s ok now pc pc' effect fs)
    (hpc : pc.Finishing s.sinks.length threw writes)
    (hspares : ok = false → ∀ failed i, pc = .flushing (.last failed) i true →
      ∀ k < s.sinks.length, i < k → ¬threw k → writes k = []) :
    pc'.Finishing s.sinks.length (fun k => threw k ∨ Threw k fs)
      (fun k => (fs.map (Prod.mk now)).foldl (afterWrite k) (writes k)) := by
  cases h with
  | @flush site k => cases site <;> exact hpc
  | lastFlushed hk => exact fun i hi _ => hpc i (hi.trans_le hk)
  | @flushed site k =>
    cases site with
    | last failed =>
      intro i hi
      change (if k = i then [] else writes i) = []
      split_ifs with hki
      · rfl
      · exact hpc i (by omega)
    | _ => trivial
  | @flushThrew site k => trivial
  | @lastFlushThrew failed i hok =>
    intro k hk hne
    change writes k = []
    rcases lt_trichotomy k i with hlt | rfl | hlt
    · exact hpc k hlt
    · exact absurd (.inr (.inr (by simp))) hne
    · exact hspares hok failed i rfl k hk hlt fun hthrew => hne (.inl hthrew)
  | closed | closing => exact fun i hi => absurd hi (Nat.not_lt_zero i)
  | @caught final | @closeQueue final =>
    cases final
    · trivial
    · exact fun k hk hne => hpc k hk fun hthrew => hne (.inl hthrew)
  | closingFinal => exact fun k hk hne => hpc k hk fun hthrew => hne (.inl hthrew)
  | _ => trivial

/-! ## Runs -/

variable [Fintype Tid] [DecidableEq Tid] {c c' : ClockedState Tid} {x : ClockedAction Tid}
variable {o o' : List (ℤ × LoggerEvent Tid) × ClockedState Tid}
variable {es gs : List (ℤ × LoggerEvent Tid)}

/-- What the last flush has achieved in a run so far. -/
def Finishing (o : List (ℤ × LoggerEvent Tid) × ClockedState Tid) : Prop :=
  o.2.logger.worker.Finishing o.2.logger.sinks.length
    (fun k => Threw k (lifecycle (o.1.map Prod.snd))) fun k => unflushed k o.1

omit [Fintype Tid] [DecidableEq Tid] in
theorem threw_append {k : ℕ} : Threw k (history ++ fs) ↔ Threw k history ∨ Threw k fs := by
  simp only [Threw, List.mem_append]
  tauto

theorem Finishing.step (h : Finishing o) (heq : Equipped o.2.logger) (hspares : Spares o x)
    (hstep : (clockedSystem host).observed.step o x = some (o', gs)) : Finishing o' := by
  obtain ⟨hstep, hhistory⟩ := TransitionSystem.observed_step hstep
  obtain ⟨fs, hstep⟩ := clocked_step hstep
  obtain ⟨hlogger, rfl, -, -, -⟩ := hstep
  have hlifecycle : lifecycle (o'.1.map Prod.snd) =
      fs.foldl afterLoggerEvent (lifecycle (o.1.map Prod.snd)) := by
    rw [hhistory, List.map_append, lifecycle_append]
    simp
  have hwrites : ∀ k, unflushed k o'.1 =
      (fs.map (Prod.mk x.now)).foldl (afterWrite k) (unflushed k o.1) := by
    intro k
    rw [hhistory, unflushed_append]
  unfold Finishing
  simp only [hlifecycle, hwrites]
  cases heq.coherent.worker_view hlogger with
  | @moved ok now effect ha hmove hsettings =>
    obtain ⟨rfl, reported, hx⟩ := LoggerAction.at_eq_work ha
    rw [show o'.2.logger.sinks = o.2.logger.sinks from congrArg Settings.sinks hsettings,
      foldl_afterLoggerEvent hmove.queueEvents.2.2.2]
    simp only [threw_append]
    refine hmove.finishing h ?_
    rintro rfl failed i hpc
    exact hspares i (by simp [LoggerState.givesUp, hx, hpc])
  | launched _ _ hs' | joined _ hs' | absent _ hs' =>
    rw [hs']
    trivial
  | stayed ha hworker hsettings hes =>
    rw [hworker, show o'.2.logger.sinks = o.2.logger.sinks from congrArg Settings.sinks hsettings]
    refine h.mono (fun k hk => ?_) fun k hne => ?_
    · exact List.eq_nil_of_subset_nil (hk ▸ unworked_writes hes k x.now (unflushed k o.1))
    · rcases reset_cases hlogger with hnone | ⟨who, rfl⟩
      · rw [foldl_afterLoggerEvent hnone, threw_append] at hne
        exact .inl fun hthrew => hne (.inl hthrew)
      · exact .inr rfl

/-- When the worker has returned, every sink none of whose calls has thrown has been flushed
after its last write, provided that no sink in front of an unflushed one ends the last
`flushSinks`. -/
theorem final_flush {start : ℤ}
    (h : (clockedSystem host).observed.Run Spares ([], .initial start) es o) {failed : Bool}
    (hfinished : o.2.logger.worker = .finished failed) {k : ℕ}
    (hk : k < o.2.logger.sinks.length) (hsound : ¬Threw k (lifecycle (es.map Prod.snd))) :
    unflushed k es = [] := by
  have hinv : Finishing o := by
    refine (h.attach fun _ _ hrun => clocked_equipped hrun.unobserved).stable (I := Finishing)
      trivial ?_
    rintro o x o' gs hi ⟨hspares, heq⟩ hstep
    exact hi.step heq hspares hstep
  have hhistory : o.1 = es := h.observed_history
  unfold Finishing at hinv
  rw [hfinished, hhistory] at hinv
  exact hinv k hk hsound

/-- From the handler, the worker closes the queue. -/
def closeSchedule : List (LoggerAction TwoThreads) :=
  [.work true 0, .work true 0, .queue (.run none true false), .queue (.notify none none),
    .queue (.notify none none), .work true 0]

/-- A record comes in and is written to both sinks; the outcome of the last step is `ok`. -/
def bothSchedule (config : LoggerConfig) (ok : Bool) : List (LoggerAction TwoThreads) :=
  initSchedule .first config ++ logSchedule .second ++ pushSchedule .second ++
    [.work true 0, .work true 0, .queue (.run none true false), .queue (.notify none none)] ++
    List.replicate 6 (.work true 0) ++ [.work ok 0]

theorem final_flush_failing :
    ∃ es o, (clockedSystem epochHost).observed.Reaches ([], .initial 0) es o ∧
      o.2.logger.worker = .finished true ∧ Threw 1 (lifecycle (es.map Prod.snd)) ∧
      batchesTo 0 (lifecycle (es.map Prod.snd)) ≠ [] ∧ unflushed 0 es = [] := by
  obtain ⟨es, o, hrun, hfinished, hthrew, hhanded, hk, hsound⟩ :
      ∃ es o, (clockedSystem epochHost).observed.Run Spares ([], .initial 0) es o ∧
        o.2.logger.worker = .finished true ∧ Threw 1 (lifecycle (es.map Prod.snd)) ∧
        batchesTo 0 (lifecycle (es.map Prod.snd)) ≠ [] ∧ 0 < o.2.logger.sinks.length ∧
        ¬Threw 0 (lifecycle (es.map Prod.snd)) :=
    ⟨_, _, .of_schedule (atTime 0 (bothSchedule twoSinks false ++ closeSchedule ++
      List.replicate 3 (.work true 0) ++ [.work false 0] ++ closeSchedule)) (by decide),
      by decide, by decide, by decide, by decide, by decide⟩
  exact ⟨es, o, hrun.reaches, hfinished, hthrew, hhanded, final_flush hrun hfinished hk hsound⟩

/-- Two sinks that are to be flushed after every batch. -/
def eagerSinks : LoggerConfig := { twoSinks with flushPolicy := .EveryBatch }

/-- Both sinks get a batch. The flush of the first one throws, in the loop and again on the
way out, and the second one, which never throws, is not flushed at all. -/
theorem sound_sink_unflushed :
    ∃ es c, (clockedSystem epochHost).Reaches (.initial 0) es c ∧
      c.logger.worker = .finished true ∧ 1 < c.logger.sinks.length ∧
      ¬Threw 1 (lifecycle (es.map Prod.snd)) ∧ .flush 1 ∉ es.map Prod.snd ∧
      (unflushed 1 es).length = 1 :=
  ⟨_, _, .of_schedule (atTime 0 (bothSchedule eagerSinks true ++
      List.replicate 3 (.work true 0) ++ [.work false 0] ++ closeSchedule ++
      [.work true 0, .work false 0] ++ closeSchedule)) (by decide),
    by decide, by decide, by decide, by decide, by decide⟩

end CppLogger
