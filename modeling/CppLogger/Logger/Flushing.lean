import CppLogger.Logger.Waiting

/-!
# What has been flushed when

A batch handed to a sink is unflushed until a flush of that sink has come to its end. At the
head of its loop the worker leaves nothing urgent unflushed, nothing at all under
`EveryBatch`, and under `Periodic` nothing that the next deadline does not cover.
-/

namespace CppLogger

variable {Tid : Type*}

/-- The batches of a sink that no flush has followed, each with the time of the write. -/
abbrev Writes (Tid : Type*) := List (ℤ × List (Entry Tid))

def afterWrite (k : ℕ) (writes : Writes Tid) (e : ℤ × LoggerEvent Tid) : Writes Tid :=
  match e.2 with
  | .write i batch _ => if i = k then writes ++ [(e.1, batch)] else writes
  | .flushed i true => if i = k then [] else writes
  | .queue _ .reset => []
  | _ => writes

/-- What sink `k` of the current lifecycle has been handed since it was last flushed. -/
def unflushed (k : ℕ) (es : List (ℤ × LoggerEvent Tid)) : Writes Tid :=
  es.foldl (afterWrite k) []

theorem unflushed_append (k : ℕ) (es fs : List (ℤ × LoggerEvent Tid)) :
    unflushed k (es ++ fs) = fs.foldl (afterWrite k) (unflushed k es) := List.foldl_append

/-- The batch has a record at or above the level. -/
def urgent (flushAtOrAbove : Option LogLevel) (batch : List (Entry Tid)) : Bool :=
  batch.any fun entry =>
    flushAtOrAbove.any fun level => decide (level.toInt ≤ entry.record.level.toInt)

/-- The worker is inside a call of a sink. -/
def WorkerPc.inSink : WorkerPc Tid → Bool
  | .write _ _ true _ _ _ | .flushing _ _ true => true
  | _ => false

/-- No call of a sink throws in this step. -/
def SinksHold (c : ClockedState Tid) (x : ClockedAction Tid) : Prop :=
  match x.action with
  | .work false _ => c.logger.worker.inSink = false
  | _ => True

instance (c : ClockedState Tid) (x : ClockedAction Tid) : Decidable (SinksHold c x) :=
  match x with
  | ⟨_, .work false _⟩ => inferInstanceAs (Decidable (_ = _))
  | ⟨_, .work true _⟩ | ⟨_, .begin _ _⟩ | ⟨_, .app _ _ _⟩ | ⟨_, .queue _⟩ => .isTrue trivial

/-! ## What is unflushed at each place of the loop -/

/-- What an iteration leaves behind. -/
structure Settled (settings : Settings) (writes : ℕ → Writes Tid) : Prop where
  level : ∀ k, ∀ w ∈ writes k, urgent settings.flushAtOrAbove w.2 = false
  everyBatch : settings.flushPolicy = .EveryBatch → ∀ k, writes k = []

/-- Under `Periodic` the deadline comes soon enough for everything unflushed and for what is
written now. -/
def InTime (settings : Settings) (now nextFlush : ℤ) (writes : ℕ → Writes Tid) : Prop :=
  settings.flushPolicy = .Periodic → nextFlush ≤ deadline now settings.flushInterval ∧
    ∀ k, ∀ w ∈ writes k, nextFlush ≤ deadline w.1 settings.flushInterval

/-- What is unflushed, by the place of the worker. -/
def WorkerPc.Flushes (settings : Settings) (now reading : ℤ) (writes : ℕ → Writes Tid) :
    WorkerPc Tid → Prop
  | .absent | .reserve | .rearm _ | .finished _ => ∀ k, writes k = []
  | .loop nextFlush | .checkClosed nextFlush =>
    Settled settings writes ∧ InTime settings now nextFlush writes ∧
      (settings.flushPolicy = .Periodic → reading < nextFlush)
  | .popping nextFlush _ | .idle nextFlush =>
    Settled settings writes ∧ InTime settings now nextFlush writes
  | .format nextFlush batch formattedBatch flushForLevel =>
    Settled settings writes ∧ InTime settings now nextFlush writes ∧
      flushForLevel = urgent settings.flushAtOrAbove (batch.take formattedBatch.length)
  | .write nextFlush _ _ batch _ flushForLevel =>
    InTime settings now nextFlush writes ∧ flushForLevel = urgent settings.flushAtOrAbove batch ∧
      ∀ k, ∀ w ∈ writes k, urgent settings.flushAtOrAbove w.2 = true → flushForLevel = true
  | .written nextFlush flushForLevel =>
    InTime settings now nextFlush writes ∧
      ∀ k, ∀ w ∈ writes k, urgent settings.flushAtOrAbove w.2 = true → flushForLevel = true
  | .flushing _ k _ => ∀ i < k, writes i = []
  | .caught final | .closeQueue final | .closing final => final = false

variable {settings : Settings} {writes writes' : ℕ → Writes Tid} {time now reading nf : ℤ}
variable {pc pc' : WorkerPc Tid} {s s' : LoggerState Tid} {ok : Bool} {host : Host Tid}
variable {effect : Effect Tid} {fs : List (LoggerEvent Tid)}

theorem Settled.mono (h : Settled settings writes) (hsub : ∀ k, writes' k ⊆ writes k) :
    Settled settings writes' where
  level k w hw := h.level k w (hsub k hw)
  everyBatch hp k := List.eq_nil_of_subset_nil (h.everyBatch hp k ▸ hsub k)

theorem InTime.mono (h : InTime settings time nf writes) (htime : time ≤ now)
    (hsub : ∀ k, writes' k ⊆ writes k) : InTime settings now nf writes' := by
  intro hp
  obtain ⟨hnow, hwrites⟩ := h hp
  refine ⟨hnow.trans ?_, fun k w hw => hwrites k w (hsub k hw)⟩
  unfold deadline
  omega

/-- Nothing is lost when time passes or less is unflushed. -/
theorem WorkerPc.Flushes.mono (h : pc.Flushes settings time reading writes) (htime : time ≤ now)
    (hsub : ∀ k, writes' k ⊆ writes k) : pc.Flushes settings now reading writes' := by
  have hnil : ∀ k, writes k = [] → writes' k = [] :=
    fun k hk => List.eq_nil_of_subset_nil (hk ▸ hsub k)
  unfold WorkerPc.Flushes at h ⊢
  split at h
  case h_1 | h_2 | h_3 | h_4 => exact fun k => hnil k (h k)
  case h_5 | h_6 => exact ⟨h.1.mono hsub, h.2.1.mono htime hsub, h.2.2⟩
  case h_7 | h_8 => exact ⟨h.1.mono hsub, h.2.mono htime hsub⟩
  case h_9 => exact ⟨h.1.mono hsub, h.2.1.mono htime hsub, h.2.2⟩
  case h_10 => exact ⟨h.1.mono htime hsub, h.2.1, fun k w hw => h.2.2 k w (hsub k hw)⟩
  case h_11 => exact ⟨h.1.mono htime hsub, fun k w hw => h.2 k w (hsub k hw)⟩
  case h_12 => exact fun i hi => hnil i (h i hi)
  all_goals exact h

/-! ## The step of the worker -/

theorem Settled.of_nil (h : ∀ k, writes k = []) : Settled settings writes where
  level k w hw := by simp [h k] at hw
  everyBatch _ := h

/-- A deadline armed when nothing is unflushed. -/
theorem InTime.arm (h : ∀ k, writes k = []) :
    InTime settings now (deadline now settings.flushInterval) writes :=
  fun _ => ⟨le_rfl, fun k w hw => by simp [h k] at hw⟩

/-- What is written now is written in time. -/
theorem InTime.write (h : InTime settings now nf writes) (batch : List (Entry Tid))
    (hsub : ∀ k, ∀ w ∈ writes' k, w ∈ writes k ∨ w = (now, batch)) :
    InTime settings now nf writes' := by
  intro hp
  obtain ⟨hnow, hwrites⟩ := h hp
  refine ⟨hnow, fun k w hw => ?_⟩
  rcases hsub k w hw with hold | rfl
  · exact hwrites k w hold
  · exact hnow

theorem Settled.of_not (hlevel : ∀ k, ∀ w ∈ writes k, urgent settings.flushAtOrAbove w.2 ≠ true)
    (hpolicy : settings.flushPolicy ≠ .EveryBatch) : Settled settings writes where
  level k w hw := by simpa using hlevel k w hw
  everyBatch hp := absurd hp hpolicy

/-- The flag of the batch, record by record. -/
theorem urgent_take_succ {flushAtOrAbove : Option LogLevel} {batch : List (Entry Tid)} {n : ℕ}
    {entry : Entry Tid} (h : batch[n]? = some entry) :
    urgent flushAtOrAbove (batch.take (n + 1)) =
      (urgent flushAtOrAbove (batch.take n) ||
        flushAtOrAbove.any fun level => decide (level.toInt ≤ entry.record.level.toInt)) := by
  rw [List.take_add_one, h, urgent, urgent, List.any_append]
  simp

theorem WorkerMove.flushes (h : WorkerMove host s ok now pc pc' effect fs)
    (hpc : pc.Flushes s.settings now reading writes)
    (hbeyond : ∀ k, s.sinks.length ≤ k → writes k = [])
    (hinterval : s.flushPolicy = .Periodic → 0 < s.flushInterval)
    (hholds : ok = false → pc.inSink = false) :
    pc'.Flushes s.settings now (if pc.reads s.flushPolicy ok then now else reading)
      (fun k => (fs.map (Prod.mk now)).foldl (afterWrite k) (writes k)) := by
  have hahead : s.flushPolicy = .Periodic → now < deadline now s.flushInterval := by
    intro hp
    have := hinterval hp
    unfold deadline
    omega
  cases h with
  | reserve hok =>
    refine ⟨.of_nil hpc, .arm hpc, fun hp => ?_⟩
    simpa [WorkerPc.reads, hok] using hahead hp
  | rearmIdle =>
    refine ⟨.of_nil hpc, .arm hpc, fun hp => ?_⟩
    simpa [WorkerPc.reads] using hahead hp
  | rearm =>
    refine ⟨.of_nil hpc, .arm hpc, fun hp => ?_⟩
    simpa [WorkerPc.reads] using hahead hp
  | popBatchFor | popBatch => exact ⟨hpc.1, hpc.2.1⟩
  | took => exact ⟨hpc.1, hpc.2, by simp [urgent]⟩
  | tookNothing => exact hpc
  | idle hidle =>
    refine ⟨hpc.1, hpc.2, fun hp => ?_⟩
    have hp' : s.flushPolicy = .Periodic := hp
    simp only [WorkerPc.reads, hp', decide_true, if_true]
    simpa [hp'] using hidle
  | notClosed => exact hpc
  | @format nf batch texts flag entry hentry =>
    obtain ⟨hsettled, htime, hflag⟩ := hpc
    refine ⟨hsettled, htime, ?_⟩
    rw [List.length_append, List.length_singleton, urgent_take_succ hentry, hflag]
    rfl
  | @formatted nf batch texts flag hlength =>
    obtain ⟨hsettled, htime, hflag⟩ := hpc
    rw [List.take_of_length_le hlength] at hflag
    refine ⟨htime, hflag, fun k w hw hurgent => ?_⟩
    simp [hsettled.level k w hw] at hurgent
  | @write nf k batch texts flag hk =>
    obtain ⟨htime, hflag, hwrites⟩ := hpc
    have hsub : ∀ i, ∀ w ∈ (if k = i then writes i ++ [(now, batch)] else writes i),
        w ∈ writes i ∨ w = (now, batch) := by
      intro i w hw
      split_ifs at hw
      · simpa using hw
      · exact .inl hw
    refine ⟨htime.write batch hsub, hflag, fun i w hw hurgent => ?_⟩
    rcases hsub i w hw with hold | rfl
    · exact hwrites i w hold hurgent
    · exact hflag.trans hurgent
  | written => exact ⟨hpc.1, hpc.2.2⟩
  | wrote => exact hpc
  | noFlush hnot =>
    obtain ⟨hevery, hflag, hdue⟩ := by simpa only [not_or] using hnot
    refine ⟨.of_not (fun k w hw hurgent => hflag (hpc.2 k w hw hurgent)) hevery, hpc.1,
      fun hp => ?_⟩
    have hp' : s.flushPolicy = .Periodic := hp
    simp only [WorkerPc.reads, hp', decide_true, if_true]
    simpa [hp'] using hdue
  | batchFlush | idleFlush | closed | closing => exact fun i hi => absurd hi (Nat.not_lt_zero i)
  | flush => exact hpc
  | idleFlushed hk | batchFlushed hk | lastFlushed hk =>
    exact fun i => (lt_or_ge i _).elim (hpc i) fun hi => hbeyond i (hk.trans hi)
  | batchFlushedOnly hk hp =>
    have hnil : ∀ i, writes i = [] :=
      fun i => (lt_or_ge i _).elim (hpc i) fun hi => hbeyond i (hk.trans hi)
    exact ⟨.of_nil hnil, fun hperiodic => absurd hperiodic hp, fun hperiodic => absurd hperiodic hp⟩
  | @flushed site k =>
    intro i hi
    change (if k = i then [] else writes i) = []
    split_ifs with hki
    · rfl
    · exact hpc i (by omega)
  | flushThrew hok | lastFlushThrew hok | writeThrew hok => cases hholds hok
  | reserveThrew | popThrew | formatThrew => rfl
  | caught | closeQueue => exact hpc
  | closingFinal => cases hpc

/-! ## Runs -/

/-- The others leave a sink as flushed as it was. -/
theorem unworked_writes (h : Unworked fs) (k : ℕ) (now : ℤ) (l : Writes Tid) :
    (fs.map (Prod.mk now)).foldl (afterWrite k) l ⊆ l := by
  induction fs generalizing l with
  | nil => exact List.Subset.refl l
  | cons e fs ih =>
    have he := h e (by simp)
    have hstep : afterWrite k l (now, e) ⊆ l := by
      unfold afterWrite
      split <;> simp_all [LoggerEvent.byWorker]
    exact List.Subset.trans (ih (fun e he => h e (by simp [he])) _) hstep

/-- What is unflushed at any moment of a run. -/
structure Flushed (es : List (ℤ × LoggerEvent Tid)) (c : ClockedState Tid) : Prop where
  flushes : c.logger.worker.Flushes c.logger.settings c.now c.reading fun k => unflushed k es
  beyond : c.logger.worker.isAbsent = false →
    ∀ k, c.logger.sinks.length ≤ k → unflushed k es = []

variable [Fintype Tid] [DecidableEq Tid] {c c' : ClockedState Tid} {x : ClockedAction Tid}
variable {es gs : List (ℤ × LoggerEvent Tid)}

omit [Fintype Tid] [DecidableEq Tid] in
/-- The worker hands batches to the sinks of its list only. -/
theorem WorkerMove.beyond (h : WorkerMove host s ok now pc pc' effect fs) {k : ℕ}
    (hk : s.sinks.length ≤ k) : (fs.map (Prod.mk now)).foldl (afterWrite k) [] = [] := by
  cases h with
  | write hlt =>
    simp only [afterWrite, List.map_cons, List.map_nil, List.foldl_cons, List.foldl_nil]
    rw [if_neg (by omega)]
  | _ => simp [afterWrite]

theorem Flushed.step (h : Flushed es c) (heq : Equipped c.logger) (hforward : Forward c x)
    (hholds : SinksHold c x) (hstep : c.step host x = some (c', gs)) : Flushed (es ++ gs) c' := by
  obtain ⟨fs, hstep⟩ := clocked_step hstep
  obtain ⟨hlogger, rfl, hnow, hreading, -⟩ := hstep
  have hsub : Unworked fs → ∀ k, unflushed k (es ++ fs.map (Prod.mk x.now)) ⊆ unflushed k es := by
    intro hes k
    rw [unflushed_append]
    exact unworked_writes hes k x.now _
  have hclean : Unworked fs → (∀ k, unflushed k es = []) →
      ∀ k, unflushed k (es ++ fs.map (Prod.mk x.now)) = [] :=
    fun hes hnil k => List.eq_nil_of_subset_nil (hnil k ▸ hsub hes k)
  cases heq.coherent.worker_view hlogger with
  | @moved ok now effect ha hmove hsettings =>
    obtain ⟨rfl, reported, hx⟩ := LoggerAction.at_eq_work ha
    have hlive := hmove.live
    have hreads : c'.reading = if c.logger.worker.reads c.logger.flushPolicy ok then x.now
        else c.reading := by
      rw [hreading, hx]
      rfl
    have hok : ok = false → c.logger.worker.inSink = false := by
      rintro rfl
      simpa [SinksHold, hx] using hholds
    have hflushes := hmove.flushes (h.flushes.mono hforward fun k => List.Subset.refl _)
      (h.beyond hlive) (heq.interval hlive) hok
    refine ⟨?_, fun _ k hk => ?_⟩
    · rw [hsettings, hnow, hreads]
      simpa only [unflushed_append] using hflushes
    · have hsinks : c'.logger.sinks = c.logger.sinks := congrArg Settings.sinks hsettings
      rw [hsinks] at hk
      rw [unflushed_append, h.beyond hlive k hk]
      exact hmove.beyond hk
  | launched _ hs hs' _ hes | joined hs hs' _ hes | absent hs hs' hes =>
    have hnil := h.flushes
    rw [hs] at hnil
    refine ⟨?_, fun _ k _ => hclean hes hnil k⟩
    rw [hs']
    exact hclean hes hnil
  | stayed ha hworker hsettings hes =>
    have hsinks : c'.logger.sinks = c.logger.sinks := congrArg Settings.sinks hsettings
    have hkept : c'.reading = c.reading := by
      rw [hreading, LoggerState.reads_other ha]
      rfl
    refine ⟨?_, fun hlive k hk => ?_⟩
    · rw [hworker, hsettings, hkept, hnow]
      exact h.flushes.mono hforward (hsub hes)
    · rw [hworker] at hlive
      rw [hsinks] at hk
      exact List.eq_nil_of_subset_nil (h.beyond hlive k hk ▸ hsub hes k)

theorem reaches_flushed {start : ℤ}
    (h : (clockedSystem host).Run (fun c x => Forward c x ∧ SinksHold c x) (.initial start) es c) :
    Flushed es c := by
  refine (h.attach fun _ _ => clocked_equipped).invariant (I := Flushed)
    ⟨fun _ => rfl, fun _ _ _ => rfl⟩ ?_
  rintro es c x c' gs hflushed ⟨⟨hforward, hholds⟩, heq⟩ hstep
  exact hflushed.step heq hforward hholds hstep

/-! ## Without a reason to flush -/

/-- Inside its loop the worker has no reason to flush. -/
def WorkerPc.Unhurried : WorkerPc Tid → Prop
  | .format _ _ _ flushForLevel | .write _ _ _ _ _ flushForLevel | .written _ flushForLevel =>
    flushForLevel = false
  | .flushing _ _ _ | .rearm _ => False
  | _ => True

/-- Under `OnStop`, with no level set, nothing is flushed before the worker leaves its loop. -/
def Unhurried (history : List (LoggerEvent Tid)) (s : LoggerState Tid) : Prop :=
  s.worker.looping = true → s.flushPolicy = .OnStop → s.flushAtOrAbove = none →
    s.worker.Unhurried ∧ ∀ k, .flush k ∉ history

omit [Fintype Tid] [DecidableEq Tid] in
theorem WorkerMove.unhurried (h : WorkerMove host s ok now pc pc' effect fs)
    (hpolicy : s.flushPolicy = .OnStop) (hlevel : s.flushAtOrAbove = none)
    (hpc : pc.looping = true → pc.Unhurried) (hlooping : pc'.looping = true) :
    pc.looping = true ∧ pc'.Unhurried ∧ ∀ k, .flush k ∉ fs := by
  cases h with
  | took => exact ⟨rfl, rfl, by simp⟩
  | format => exact ⟨rfl, by simpa [hlevel, WorkerPc.Unhurried] using hpc rfl, by simp⟩
  | batchFlush hreason => simp_all [WorkerPc.looping, WorkerPc.Unhurried]
  | idleFlush hidle => simp [hpolicy] at hidle
  | rearm hsite => exact absurd (hpc rfl) id
  | @flush site | @flushed site => cases site <;> first | exact absurd (hpc rfl) id | cases hlooping
  | idleFlushed | rearmIdle | batchFlushed | batchFlushedOnly => exact absurd (hpc rfl) id
  | formatted | write | written | wrote => exact ⟨rfl, hpc rfl, by simp⟩
  | reserve | popBatchFor | popBatch | tookNothing | idle | notClosed | noFlush =>
    exact ⟨rfl, trivial, by simp⟩
  | _ => cases hlooping

theorem Unhurried.step {history : List (LoggerEvent Tid)} {a : LoggerAction Tid}
    (h : Unhurried history s) (hcoh : Coherent s)
    (hfresh : ∀ t, (s.frames t).fresh (s.past (some t)) = true → Unworked history)
    (hstep : s.step host a = some (s', fs)) : Unhurried (fs.foldl afterLoggerEvent history) s' := by
  have hquiet : (∀ k, .flush k ∉ history) → (∀ k, .flush k ∉ fs) →
      ∀ k, .flush k ∉ fs.foldl afterLoggerEvent history :=
    fun hold hnew k hk => (mem_foldl_afterLoggerEvent hk).elim (hold k) (hnew k)
  have hunworked : Unworked fs → ∀ k, .flush k ∉ fs := by
    intro hes k hk
    cases hes _ hk
  intro hlooping hpolicy hlevel
  cases hcoh.worker_view hstep with
  | moved ha hmove hsettings =>
    have hpolicy' := (congrArg Settings.flushPolicy hsettings).symm.trans hpolicy
    have hlevel' := (congrArg Settings.flushAtOrAbove hsettings).symm.trans hlevel
    obtain ⟨hloop, hpc, hfs⟩ := hmove.unhurried hpolicy' hlevel'
      (fun hloop => (h hloop hpolicy' hlevel').1) hlooping
    exact ⟨hpc, hquiet (h hloop hpolicy' hlevel').2 hfs⟩
  | @launched t hspawn hs hs' _ hes =>
    rw [hs']
    have hclean := hfresh t (by rw [hspawn]; rfl)
    exact ⟨trivial, hquiet (fun k hk => by cases hclean _ hk) (hunworked hes)⟩
  | joined hs hs' | absent hs hs' =>
    rw [hs'] at hlooping
    cases hlooping
  | stayed ha hworker hsettings hes =>
    rw [hworker] at hlooping ⊢
    obtain ⟨hpc, hold⟩ := h hlooping ((congrArg Settings.flushPolicy hsettings).symm.trans hpolicy)
      ((congrArg Settings.flushAtOrAbove hsettings).symm.trans hlevel)
    exact ⟨hpc, hquiet hold (hunworked hes)⟩

theorem reaches_unhurried {P : LoggerState Tid → LoggerAction Tid → Prop}
    {es : List (LoggerEvent Tid)} (h : (loggerSystem host).Run P .initial es s) :
    Unhurried (lifecycle es) s := by
  suffices Unhurried (lifecycle es) s ∧
      ∀ t, (s.frames t).fresh (s.past (some t)) = true → Unworked (lifecycle es) from this.1
  refine (h.attach fun _ _ hrun => (reaches_fanOut hrun).2).monitored afterLoggerEvent
    (I := fun history s => Unhurried history s ∧
      ∀ t, (s.frames t).fresh (s.past (some t)) = true → Unworked history)
    ⟨fun hlooping => (by cases hlooping), fun t ht => (by cases ht)⟩ ?_
  rintro history s a s' fs ⟨hquiet, hfresh⟩ ⟨-, hcoh⟩ hstep
  exact ⟨hquiet.step hcoh hfresh hstep, fun t => unworked_step hfresh hcoh hstep⟩

/-! ## The guarantees -/

/-- What has been flushed when the worker is back at the head of its loop, and when it has
returned. -/
theorem flush_guarantees {start : ℤ}
    (h : (clockedSystem host).Run (fun c x => Forward c x ∧ SinksHold c x) (.initial start) es c) :
    (∀ nextFlush, c.logger.worker = .loop nextFlush →
      (∀ k, ∀ w ∈ unflushed k es, urgent c.logger.flushAtOrAbove w.2 = false) ∧
      (c.logger.flushPolicy = .EveryBatch → ∀ k, unflushed k es = []) ∧
      (c.logger.flushPolicy = .Periodic → ∀ k, ∀ w ∈ unflushed k es,
        c.reading < nextFlush ∧ nextFlush ≤ deadline w.1 c.logger.flushInterval) ∧
      (c.logger.flushPolicy = .OnStop → c.logger.flushAtOrAbove = none →
        ∀ k, .flush k ∉ lifecycle (es.map Prod.snd))) ∧
    ∀ failed, c.logger.worker = .finished failed → ∀ k, unflushed k es = [] := by
  have hflushes := (reaches_flushed h).flushes
  refine ⟨fun nextFlush hpc => ?_, fun failed hpc => ?_⟩ <;> rw [hpc] at hflushes
  · obtain ⟨hsettled, htime, hreading⟩ := hflushes
    refine ⟨hsettled.level, hsettled.everyBatch, fun hp k w hw => ⟨hreading hp, ?_⟩,
      fun hp hlevel => ?_⟩
    · exact (htime hp).2 k w hw
    · exact (reaches_unhurried (clocked_reaches h) (by rw [hpc]; rfl) hp hlevel).2
  · exact hflushes

/-- One record is written, and the worker is back at the head of its loop. -/
def writingSchedule : List (ClockedAction TwoThreads) :=
  atTime 0 (initSchedule .first oneSink ++ logSchedule .second ++ pushSchedule .second) ++
    atTime 5 ([.work true 0, .work true 0, .queue (.run none true false),
      .queue (.notify none none)] ++ List.replicate 7 (.work true 0))

theorem flush_guarantees_unflushed :
    ∃ es c nextFlush, (clockedSystem epochHost).Reaches (.initial 0) es c ∧
      c.logger.worker = .loop nextFlush ∧ c.logger.flushPolicy = .Periodic ∧
      ∃ w ∈ unflushed 0 es, c.reading < nextFlush ∧
        nextFlush ≤ deadline w.1 c.logger.flushInterval := by
  obtain ⟨es, c, nextFlush, w, hrun, hpc, hpolicy, hw⟩ :
      ∃ es c nextFlush w,
        (clockedSystem epochHost).Run (fun c x => Forward c x ∧ SinksHold c x) (.initial 0) es c ∧
        c.logger.worker = .loop nextFlush ∧ c.logger.flushPolicy = .Periodic ∧
        unflushed 0 es = [w] :=
    ⟨_, _, _, _, .of_schedule writingSchedule (by decide), rfl, by decide, rfl⟩
  have hmem : w ∈ unflushed 0 es := by simp [hw]
  exact ⟨es, c, nextFlush, hrun.reaches, hpc, hpolicy, w, hmem,
    ((flush_guarantees hrun).1 nextFlush hpc).2.2.1 hpolicy 0 w hmem⟩

end CppLogger
