import CppLogger.Logger.Tickets

/-!
# What reaches the sinks

The sinks of a lifecycle see the records of this lifecycle and no others, in the order in
which they were admitted: what the worker has removed from the queue is a part of what was
pushed, each sink has received a prefix of it, and the sinks differ in the last batch only.
-/

namespace CppLogger

variable {Tid : Type*}

/-! ## From the sinks back to the pushes -/

theorem mem_admitted {T : Type*} {es : List (QueueEvent T)} {x : T} (h : x ∈ admitted es) :
    ∃ r, .pushed x r ∈ es ∧ r ≠ .Closed := by
  obtain ⟨e, he, hx⟩ := List.mem_flatMap.mp h
  rcases e with ⟨v, r⟩ | _ | _ | _ | _ | _ | _ | _ | _ <;> try cases r
  case pushed.Enqueued | pushed.DroppedOldest =>
    obtain rfl := List.mem_singleton.mp hx
    exact ⟨_, he, by simp⟩
  all_goals cases hx

/-- What the worker has taken is part of what has left the queue. -/
theorem taken_sublist_removed (history : List (LoggerEvent Tid)) :
    (takenBatches history).flatten.Sublist (removed (queueEvents history)) := by
  induction history with
  | nil => exact List.Sublist.refl _
  | cons e history ih =>
    rcases e with _ | _ | _ | _ | _ | _ | _ | _ | _ | _ | _ | _ | _ | ⟨who, qe⟩
    case queue =>
      cases qe with
      | taken vs => exact (List.Sublist.refl vs).append ih
      | evicted vs => exact ih.trans (List.sublist_append_right vs _)
      | _ => exact ih
    all_goals exact ih

variable {history : List (LoggerEvent Tid)} {host : Host Tid} {s s' : LoggerState Tid}
variable {es fs : List (LoggerEvent Tid)}

theorem Accounted.removed_prefix {T : Type*} {es : List (QueueEvent T)} {q : BlockingQueue T}
    (h : Accounted es q) : removed es <+: admitted es :=
  ⟨q.queue, h.conserved⟩

/-- What the worker has taken is part of what was pushed. -/
theorem taken_sublist_pushed (h : Accounted (queueEvents history) s.queue) :
    (takenBatches history).flatten.Sublist (pushedValues (queueEvents history)) :=
  (taken_sublist_removed history).trans
    (h.removed_prefix.sublist.trans (admitted_sublist _))

/-- A record taken from the queue passed its checks in the same lifecycle. -/
theorem Ticketed.taken_checked (h : Ticketed history s)
    (hacc : Accounted (queueEvents history) s.queue) {entry : Entry Tid}
    (hentry : entry ∈ (takenBatches history).flatten) :
    Checked history entry.ticket entry.record.level := by
  have hadmitted : entry ∈ admitted (queueEvents history) :=
    hacc.removed_prefix.subset ((taken_sublist_removed history).subset hentry)
  obtain ⟨r, hpushed, hr⟩ := mem_admitted hadmitted
  exact h.accepted entry r hpushed hr

variable [Fintype Tid] [DecidableEq Tid]

/-! ## Order -/

omit [Fintype Tid] [DecidableEq Tid] in
theorem formatLines_append (xs ys : List (Entry Tid)) :
    formatLines host (xs ++ ys) = formatLines host xs ++ formatLines host ys := List.map_append

omit [Fintype Tid] [DecidableEq Tid] in
/-- The texts a sink has received are those of the records it has received. -/
theorem handed_texts {k : ℕ} (h : ∀ p ∈ handedTo k history, p.2 = formatLines host p.1) :
    ((handedTo k history).map Prod.snd).flatten = formatLines host (batchesTo k history).flatten := by
  unfold batchesTo
  generalize handedTo k history = handed at h
  induction handed with
  | nil => rfl
  | cons p handed ih =>
    obtain ⟨hp, hrest⟩ := List.forall_mem_cons.mp h
    rw [List.map_cons, List.map_cons, List.flatten_cons, List.flatten_cons, ih hrest, hp,
      formatLines_append]

omit [Fintype Tid] [DecidableEq Tid] in
theorem Delivery.missing {done last : List (List (Entry Tid))} {j i : ℕ}
    (h : Delivery history done last j) (hi : i < sinkCount history) :
    ∃ missing, takenBatches history = batchesTo i history ++ missing ∧ missing.length ≤ 1 := by
  rw [h.taken, h.handed i, if_neg (not_le.mpr hi)]
  split_ifs
  · exact ⟨[], by simp⟩
  · exact ⟨last, rfl, h.short⟩

omit [Fintype Tid] [DecidableEq Tid] in
theorem Delivery.earlier {done last : List (List (Entry Tid))} {j i k : ℕ}
    (h : Delivery history done last j) (hik : i ≤ k) :
    batchesTo k history <+: batchesTo i history := by
  rw [h.handed i, h.handed k]
  split_ifs <;> first | omega | simp

/-- Ordered, consistent fan-out. In every reachable state, `history` being the events of the
lifecycle and `R` the records that the worker has removed from the queue: the texts each
sink has received are a prefix of the formatted image of `R`, missing at most the last
batch; an earlier sink has received at least as much as a later one; every batch has
between one and `writeBatchSize` records; and the records of a thread are in `R` in the
order of its log calls, each at most once. -/
theorem ordered_fan_out (h : (loggerSystem host).Reaches .initial es s) :
    let history := lifecycle es
    let R := (takenBatches history).flatten
    (∀ i < sinkCount history, ∃ missing, missing.length ≤ 1 ∧
      takenBatches history = batchesTo i history ++ missing ∧
      formatLines host R =
        ((handedTo i history).map Prod.snd).flatten ++ formatLines host missing.flatten) ∧
    (∀ i k, i ≤ k → batchesTo k history <+: batchesTo i history) ∧
    (∀ i, ∀ batch ∈ batchesTo i history, ∃ config, configurations history = [config] ∧
      1 ≤ batch.length ∧ batch.length ≤ config.writeBatchSize) ∧
    R.Pairwise fun x y =>
      x.ticket ≠ y.ticket ∧ (x.record.threadId = y.record.threadId → x.ticket < y.ticket) := by
  obtain ⟨hfan, -⟩ := reaches_fanOut h
  obtain ⟨hticketed, -⟩ := reaches_ticketed h
  have hacc := lifecycle_accounted h
  obtain ⟨done, last, j, hd, -⟩ := hfan.delivery
  refine ⟨fun i hi => ?_, fun i k => hd.earlier, fun i batch hbatch => ?_, ?_⟩
  · obtain ⟨missing, htaken, hshort⟩ := hd.missing hi
    refine ⟨missing, hshort, htaken, ?_⟩
    rw [handed_texts fun p hp => (hfan.wellFormed i p hp).2.1, htaken, List.flatten_append,
      formatLines_append]
  · obtain ⟨p, hp, rfl⟩ := List.mem_map.mp hbatch
    obtain ⟨hne, -, config, hconfig, hsize⟩ := hfan.wellFormed i p hp
    exact ⟨config, hconfig, List.length_pos_of_ne_nil hne, hsize⟩
  · exact hticketed.ordered.sublist (taken_sublist_pushed hacc)

/-- A host whose clock shows the epoch, for two threads. -/
def epochHost : Host TwoThreads := ⟨fun _ => ⟨70, 0, 1, 0, 0, 0⟩, fun _ => 7⟩

/-- Two sinks of the user. -/
def twoSinks : LoggerConfig := { enableFileSink := false, additionalSinks := [some 0, some 1] }

/-- A thread runs `init` on a fresh logger, or on one that has been stopped. -/
def initSchedule (t : TwoThreads) (config : LoggerConfig) : List (LoggerAction TwoThreads) :=
  .begin t (.init config) :: List.replicate 6 (.app t true 0) ++
    .queue (.run (some t) true false) :: List.replicate 5 (.app t true 0)

/-- A thread comes as far in `log` as calling `push`. -/
def logSchedule (t : TwoThreads) : List (LoggerAction TwoThreads) :=
  .begin t (.log .INFO (some ['f']) 1 ['m']) :: List.replicate 5 (.app t true 0)

/-- A thread pushes its record into a queue with room and returns from `log`. -/
def pushSchedule (t : TwoThreads) : List (LoggerAction TwoThreads) :=
  [.queue (.run (some t) true false), .queue (.notify (some t) none), .app t true 0]

/-- Two records of one thread are taken in one batch, and the first sink throws. -/
def failingSchedule : List (LoggerAction TwoThreads) :=
  initSchedule .first twoSinks ++ logSchedule .second ++ pushSchedule .second ++
    logSchedule .second ++ pushSchedule .second ++
    [.work true 0, .work true 0, .queue (.run none true false), .queue (.notify none none)] ++
    List.replicate 5 (.work true 0) ++ [.work false 0]

theorem ordered_fan_out_failing :
    ∃ es s, (loggerSystem epochHost).Reaches .initial es s ∧
      (takenBatches (lifecycle es)).flatten.map Entry.ticket = [1, 2] ∧
      (batchesTo 0 (lifecycle es)).length = 1 ∧ batchesTo 1 (lifecycle es) = [] ∧
      batchesTo 1 (lifecycle es) <+: batchesTo 0 (lifecycle es) := by
  have hrun : (loggerSystem epochHost).Reaches .initial _ _ :=
    .of_schedule failingSchedule (by decide)
  exact ⟨_, _, hrun, by decide, by decide, by decide, (ordered_fan_out hrun).2.1 0 1 (by decide)⟩

/-! ## Isolation -/

omit [Fintype Tid] [DecidableEq Tid] in
theorem WorkerMove.hands {ok : Bool} {now : ℤ} {pc pc' : WorkerPc Tid} {effect : Effect Tid}
    (h : WorkerMove host s ok now pc pc' effect fs) {k : ℕ} {batch : List (Entry Tid)}
    {texts : List Text} (hw : .write k batch texts ∈ fs) :
    k < s.sinks.length ∧ ∃ nf flag, pc = .write nf k false batch texts flag := by
  cases h <;> simp at hw
  case write nf k' batch' texts' flag hk =>
    obtain ⟨rfl, rfl, rfl⟩ := hw
    exact ⟨hk, nf, flag, rfl⟩

omit [DecidableEq Tid] in
theorem AppMove.hands_nothing {t : Tid} {ok : Bool} {now : ℤ} {f f' : Frame Tid}
    {effect : Effect Tid} (h : AppMove s t ok now f f' effect fs) {k : ℕ}
    {batch : List (Entry Tid)} {texts : List Text} : .write k batch texts ∉ fs := by
  cases h <;> simp

/-- A push compares the generation it was given before it sleeps and after it wakes: if
that generation is over, its section returns `Closed` and leaves the queue alone. -/
theorem Outcome.stale {T : Type*} {q : BlockingQueue T} {alloc : Bool} {op : QueueOp T}
    {st : Stage T} {sec : Section T} (h : Outcome q alloc op st sec) (hfit : Fits op st) {g : ℕ}
    {v : T} (hop : op = .push (some g) v) (hg : g ≠ q.generation) :
    sec = ⟨q, .ret (.pushed .Closed), [.pushed v .Closed]⟩ := by
  have hstage : ∀ g', st = .notFullWait g' false → g' = g := by
    rintro g' rfl
    subst hop
    cases hfit with
    | notFullWait _ hown => exact (Option.some.inj (hown.resolve_left (by simp))).symm
  cases h with
  | rejected =>
    cases hop
    rfl
  | sleepsFull _ _ hst =>
    cases hop
    rcases hst with ⟨-, heq, -⟩ | heq
    · exact absurd heq hg
    · exact absurd (hstage _ heq).symm hg
  | enqueued _ _ hst | pushThrew _ _ hst =>
    cases hop
    rcases hst with ⟨-, heq⟩ | heq
    · exact absurd heq hg
    · exact absurd (hstage _ heq).symm hg
  | droppedNewest _ heq | droppedOldest _ heq | abandoned _ heq =>
    cases hop
    exact absurd heq hg
  | zeroBatch hbatch => rcases hbatch with rfl | ⟨timeout, rfl⟩ <;> cases hop
  | ended hmax | took hmax | popThrew hmax | sleepsEmpty hmax =>
    subst hop
    cases hmax
  | timedOut | closes | resets => cases hop

/-- Lifecycles are isolated. In every step of every run, whatever inits, stops and failures
lie behind it: a record that is handed to a sink, which is then one of the sinks of the
current lifecycle, has passed the two checks of its log call in this lifecycle: `running_`
was set, and the record's level was not below `minLevel_`. A push that carries the generation
of an earlier lifecycle goes on waiting until it runs its section, and then returns `Closed`
and leaves the queue as it is. -/
theorem lifecycle_isolation (h : (loggerSystem host).Reaches .initial es s)
    {a : LoggerAction Tid} (hstep : s.step host a = some (s', fs)) :
    (∀ k batch texts, .write k batch texts ∈ fs →
      (∃ config, configurations (lifecycle es) = [config] ∧ s.sinks = config.newSinks ∧
        k < config.newSinks.length) ∧
      ∀ entry ∈ batch, Checked (lifecycle es) entry.ticket entry.record.level) ∧
    ∀ t g entry, s.frames t = .logPush g entry → g < s.queue.generation →
      s.waits (some t) = true →
      ((∃ alloc expired, a = .queue (.run (some t) alloc expired)) ∧ s'.queue = s.queue ∧
        s'.call (some t) = some ⟨.push (some g) entry, .ret (.pushed .Closed)⟩) ∨
      s'.frames t = .logPush g entry ∧ g < s'.queue.generation ∧ s'.waits (some t) = true := by
  obtain ⟨hfan, hcoh⟩ := reaches_fanOut h
  obtain ⟨hticketed, -⟩ := reaches_ticketed h
  constructor
  · intro k batch texts hw
    cases loggerStep_move hstep with
    | begin request => split_ifs at hw <;> simp at hw
    | app hmove => exact absurd hw hmove.hands_nothing
    | queue =>
      obtain ⟨e, -, he⟩ := List.mem_map.mp hw
      cases he
    | work hmove =>
      obtain ⟨hk, nf, flag, hpc⟩ := hmove.hands hw
      obtain ⟨config, hconfig, -, hsinks, -⟩ := hfan.inForce (by rw [hpc]; rfl)
      refine ⟨⟨config, hconfig, hsinks, hsinks ▸ hk⟩, fun entry hentry => ?_⟩
      obtain ⟨done, last, j, hd, hp⟩ := hfan.delivery
      have hlast := hp (by rw [hpc]; rfl)
      rw [hpc] at hlast
      simp only [WorkerPc.pending, Prod.mk.injEq] at hlast
      obtain ⟨rfl, -⟩ := hlast
      refine hticketed.taken_checked (lifecycle_accounted h) ?_
      rw [hd.taken]
      simp [hentry]
  · intro t g entry ht hg hwaits
    have hcalm : ∀ {who s₁} {effect : Effect Tid}, s.apply who effect = some s₁ → who ≠ some t →
        g < s₁.queue.generation ∧ s₁.waits (some t) = true := by
      intro who s₁ effect heffect hwho
      have hqueue : s₁.queue = s.queue := (apply_queues heffect).1
      rw [hqueue]
      refine ⟨hg, ?_⟩
      unfold LoggerState.waits at hwaits ⊢
      rwa [apply_call_other heffect hwho.symm]
    cases loggerStep_move hstep with
    | @begin u request hidle =>
      have hne : t ≠ u := by
        rintro rfl
        rw [ht] at hidle
        cases hidle
      have hframe : Function.update s.frames u (request.frame s.tickets) t = .logPush g entry := by
        rw [Function.update_of_ne hne, ht]
      exact .inr ⟨hframe, hg, hwaits⟩
    | @app u ok now next effect fs s₁ hmove heffect =>
      by_cases hut : u = t
      · subst hut
        rw [ht] at hmove
        cases hmove with
        | logPush hret => simp [LoggerState.waits, hret, Call.waiting] at hwaits
      · have hframe : Function.update s₁.frames u next t = .logPush g entry := by
          rw [Function.update_of_ne (Ne.symm hut), apply_frames heffect, ht]
        have hnow := hcalm heffect (by simpa using hut)
        exact .inr ⟨hframe, hnow⟩
    | @work ok now next effect fs s₁ hmove heffect =>
      have hframe : s₁.frames t = .logPush g entry := by rw [apply_frames heffect, ht]
      have hnow := hcalm heffect (by simp)
      exact .inr ⟨hframe, hnow⟩
    | @queue a queues qes ha hqstep =>
      rcases still_waiting hqstep ha hwaits with ⟨alloc, expired, rfl⟩ | hwaits'
      · refine .inl ⟨⟨alloc, expired, rfl⟩, ?_⟩
        cases step_move hqstep with
        | @run _ _ _ c sec hc hsec =>
          have hop : c.op = .push (some g) entry := by
            have hframe := hcoh.op_frame hc
            rw [ht] at hframe
            exact (Option.some.inj hframe).symm
          have hsec' := hsec.stale (hcoh.fitting _ _ hc) hop hg.ne
          subst hsec'
          refine ⟨rfl, ?_⟩
          simp [LoggerState.call, hop]
      · exact .inr ⟨ht, hg.trans_le (generation_le hqstep), hwaits'⟩

/-- A thread runs `stop`, the worker waiting for its first batch or about to, with one sink. -/
def stopSchedule (t : TwoThreads) : List (LoggerAction TwoThreads) :=
  .begin t .stop :: List.replicate 3 (.app t true 0) ++
    [.queue (.run (some t) true false), .queue (.notify (some t) none),
      .queue (.notify (some t) none), .app t true 0, .work true 0, .work true 0,
      .queue (.run none true false)] ++
    List.replicate 6 (.work true 0) ++ List.replicate 3 (.app t true 0)

/-- One sink of the user. -/
def oneSink : LoggerConfig := { enableFileSink := false, additionalSinks := [some 0] }

/-- A thread is held up before its push while another one stops the logger and starts it
again. -/
def staleSchedule : List (LoggerAction TwoThreads) :=
  initSchedule .first oneSink ++ logSchedule .second ++ stopSchedule .first ++
    initSchedule .first oneSink

theorem lifecycle_isolation_stale :
    ∃ es s s' fs, (loggerSystem epochHost).Reaches .initial es s ∧
      s.step epochHost (.queue (.run (some .second) true false)) = some (s', fs) ∧
      s.queue.generation = 2 ∧ s'.queue = s.queue ∧
      ∃ entry, s'.call (some .second) = some ⟨.push (some 1) entry, .ret (.pushed .Closed)⟩ := by
  obtain ⟨es, s, s', fs, hrun, hstep, hgen, ⟨entry, hentry⟩, hbefore, hafter⟩ :
      ∃ es s s' fs, (loggerSystem epochHost).Reaches .initial es s ∧
        s.step epochHost (.queue (.run (some .second) true false)) = some (s', fs) ∧
        s.queue.generation = 2 ∧ (∃ entry, s.frames .second = .logPush 1 entry) ∧
        s.waits (some .second) = true ∧ s'.waits (some .second) = false :=
    ⟨_, _, _, _, .of_schedule staleSchedule (by decide), (Option.some_get (by decide)).symm,
      by decide, ⟨_, rfl⟩, by decide, by decide⟩
  rcases (lifecycle_isolation hrun hstep).2 .second 1 entry hentry (by omega) hbefore with
    ⟨-, hsame, hcall⟩ | ⟨-, -, hwaits⟩
  · exact ⟨es, s, s', fs, hrun, hstep, hgen, hsame, entry, hcall⟩
  · simp [hafter] at hwaits

end CppLogger
