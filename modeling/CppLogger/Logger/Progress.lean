import CppLogger.Logger.Delivery
import CppLogger.Logger.Join

/-!
# Deadlock freedom

Threads wait for the lifecycle lock, for the worker, and on the two condition variables of
the queue. Whoever waits, somebody else can move: the lock is held only by threads that can
go on, the worker is waited for only when the queue is closed, and a sleeper whose
predicate has become true has a notification on its way.
-/

namespace CppLogger

variable {Tid : Type*}

/-! ## Who can move -/

/-- Steps that a thread takes of its own accord: neither a new request nor a spurious wakeup
nor the end of a timed wait. -/
def LoggerAction.proceeds : LoggerAction Tid → Bool
  | .app _ _ _ | .work _ _ => true
  | .queue a => a.proceeds
  | .begin _ _ => false

/-- The frame waits for the lifecycle lock. -/
def Frame.locking : Frame Tid → Bool
  | .logEnter _ | .initEnter _ | .stopEnter => true
  | _ => false

/-- The frame waits for the worker to finish. -/
def Frame.joining : Frame Tid → Bool
  | .initJoin _ | .stopJoin => true
  | _ => false

/-- There is no worker, or it has finished. -/
def WorkerPc.ended : WorkerPc Tid → Bool
  | .absent | .finished _ => true
  | _ => false

variable {host : Host Tid} {s s' : LoggerState Tid} {t : Tid} {ok : Bool} {now : ℤ}
variable {f f' : Frame Tid} {pc pc' : WorkerPc Tid} {effect : Effect Tid}
variable {es fs : List (LoggerEvent Tid)} {who : Option Tid}
variable [Fintype Tid] [DecidableEq Tid]

/-- Some thread can take a step of its own accord. -/
def LoggerState.CanMove (host : Host Tid) (s : LoggerState Tid) : Prop :=
  ∃ a : LoggerAction Tid, a.proceeds = true ∧ (s.step host a).isSome = true

theorem apply_isSome (hcall : ∀ op, effect = .call op → s.call who = none)
    (hret : effect = .ret → ∃ op r, s.call who = some ⟨op, .ret r⟩) :
    (s.apply who effect).isSome = true := by
  cases effect with
  | call op =>
    have hnone : s.queues.calls who = none := hcall op rfl
    simp [LoggerState.apply, QueueState.step, hnone]
  | ret =>
    obtain ⟨op, r, hc⟩ := hret rfl
    have hcalls : s.queues.calls who = some ⟨op, .ret r⟩ := hc
    simp [LoggerState.apply, QueueState.step, hcalls]
  | _ => rfl

omit [DecidableEq Tid] in
/-- Operations of the queue begin outside it and end after their last stage. -/
theorem AppMove.applicable (h : AppMove s t ok now f f' effect es) :
    (∀ op, effect = .call op → f.queueOp = none) ∧
      (effect = .ret → ∃ op r, s.call (some t) = some ⟨op, .ret r⟩) := by
  cases h <;> simp_all [Frame.queueOp]

omit [Fintype Tid] [DecidableEq Tid] in
theorem WorkerMove.applicable (h : WorkerMove host s ok now pc pc' effect es) (n : ℕ) :
    (∀ op, effect = .call op → pc.queueOp n = none) ∧
      (effect = .ret → ∃ op r, s.call none = some ⟨op, .ret r⟩) := by
  cases h <;> simp_all [WorkerPc.queueOp]

omit [DecidableEq Tid] in
theorem sharable_of_available (h : s.available = true) : s.sharable = true :=
  decide_eq_true fun t => (of_decide_eq_true h t).1

omit [DecidableEq Tid] in
theorem appStep_isSome (hidle : s.frames t ≠ .idle)
    (hlock : (s.frames t).locking = true → s.available = true)
    (hjoin : (s.frames t).joining = true → s.worker.ended = true)
    (hop : (s.frames t).queueOp.isSome = true → ∃ op r, s.call (some t) = some ⟨op, .ret r⟩) :
    (s.appStep t true now).isSome = true := by
  have hended : s.worker.ended = true → s.worker = .absent ∨ ∃ failed, s.worker = .finished failed := by
    cases s.worker <;> simp [WorkerPc.ended]
  unfold LoggerState.appStep
  generalize s.frames t = f at hidle hlock hjoin hop
  cases f with
  | idle => exact absurd rfl hidle
  | logEnter => simp [sharable_of_available (hlock rfl)]
  | initEnter | stopEnter => simp [hlock rfl]
  | initJoin | stopJoin =>
    rcases hended (hjoin rfl) with hw | ⟨failed, hw⟩ <;> simp [hw]
  | logPush | initResetting | initClosing | stopClosing =>
    obtain ⟨op, r, hc⟩ := hop rfl
    simp [hc]
  | _ => first | rfl | (dsimp only; split_ifs <;> rfl)

omit [Fintype Tid] [DecidableEq Tid] in
theorem workerStep_isSome (hended : s.worker.ended = false)
    (hop : (s.worker.queueOp s.writeBatchSize).isSome = true →
      ∃ op r, s.call none = some ⟨op, .ret r⟩) :
    (s.workerStep host true now).isSome = true := by
  unfold LoggerState.workerStep
  generalize s.worker = pc at hended hop
  cases pc with
  | absent | finished => cases hended
  | popping nf timeout =>
    obtain ⟨op, r, hc⟩ := hop (by cases timeout <;> rfl)
    cases r <;> simp [hc]
  | closing =>
    obtain ⟨op, r, hc⟩ := hop rfl
    simp [hc]
  | flushing site k busy => cases busy <;> dsimp only <;> split_ifs <;> rfl
  | rearm site => cases site <;> rfl
  | write nf k busy => cases busy <;> dsimp only <;> split_ifs <;> rfl
  | format nf batch texts flag => dsimp only; split <;> rfl
  | _ => first | rfl | (dsimp only; split_ifs <;> rfl)

theorem queue_can_move {a : QueueAction (Entry Tid) (Option Tid)} (ha : a.proceeds = true)
    (h : (s.queues.step a).isSome = true) : (s.step host (.queue a)).isSome = true := by
  have hinternal : a.internal = true := by cases a <;> first | rfl | cases ha
  simp [LoggerState.step, hinternal, h]

theorem app_can_move (hcoh : Coherent s) (h : (s.appStep t true 0).isSome = true) :
    (s.step host (.app t true 0)).isSome = true := by
  obtain ⟨m, hm⟩ := Option.isSome_iff_exists.mp h
  obtain ⟨hcall, hret⟩ := (appStep_move hm).applicable
  have happly : (s.apply (some t) m.effect).isSome = true := by
    refine apply_isSome (fun op hop => ?_) hret
    have hlinked := hcoh.linked t
    rw [hcall op hop] at hlinked
    exact Option.map_eq_none_iff.mp hlinked
  simp [LoggerState.step, hm, happly]

theorem work_can_move (hcoh : Coherent s) (h : (s.workerStep host true 0).isSome = true) :
    (s.step host (.work true 0)).isSome = true := by
  obtain ⟨m, hm⟩ := Option.isSome_iff_exists.mp h
  obtain ⟨hcall, hret⟩ := (workerStep_move hm).applicable s.writeBatchSize
  have happly : (s.apply none m.effect).isSome = true := by
    refine apply_isSome (fun op hop => ?_) hret
    have hlinked := hcoh.workerLinked
    rw [hcall op hop] at hlinked
    exact Option.map_eq_none_iff.mp hlinked
  simp [LoggerState.step, hm, happly]

/-- A thread that waits neither for the lock nor for the worker nor asleep can move. -/
theorem Coherent.app_moves (hcoh : Coherent s) (hidle : s.frames t ≠ .idle)
    (hlock : (s.frames t).locking = true → s.available = true)
    (hjoin : (s.frames t).joining = true → s.worker.ended = true)
    (hasleep : ∀ c, s.call (some t) = some c → ¬ c.asleep) : s.CanMove host := by
  by_cases hop : (s.frames t).queueOp.isSome = true
  · have hlinked := hcoh.linked t
    rw [← hlinked, Option.isSome_map] at hop
    obtain ⟨c, hc⟩ := Option.isSome_iff_exists.mp hop
    rcases (hcoh.fitting _ c hc).can_proceed hc with hsleeps | ⟨r, hr⟩ | ⟨a, ha, -, hstep⟩
    · exact absurd hsleeps (hasleep c hc)
    · obtain ⟨op, st⟩ := c
      obtain rfl : st = .ret r := hr
      exact ⟨.app t true 0, rfl,
        app_can_move hcoh (appStep_isSome hidle hlock hjoin fun _ => ⟨op, r, hc⟩)⟩
    · exact ⟨.queue a, ha, queue_can_move ha hstep⟩
  · exact ⟨.app t true 0, rfl,
      app_can_move hcoh (appStep_isSome hidle hlock hjoin fun h => absurd h hop)⟩

/-- A worker that has not finished and is not asleep can move. -/
theorem Coherent.worker_moves (hcoh : Coherent s) (hended : s.worker.ended = false)
    (hasleep : ∀ c, s.call none = some c → ¬ c.asleep) :
    ∃ a : LoggerAction Tid, a.byWorker = true ∧ (s.step host a).isSome = true := by
  by_cases hop : (s.worker.queueOp s.writeBatchSize).isSome = true
  · have hlinked := hcoh.workerLinked
    rw [← hlinked, Option.isSome_map] at hop
    obtain ⟨c, hc⟩ := Option.isSome_iff_exists.mp hop
    rcases (hcoh.fitting _ c hc).can_proceed hc with hsleeps | ⟨r, hr⟩ | ⟨a, ha, hactor, hstep⟩
    · exact absurd hsleeps (hasleep c hc)
    · obtain ⟨op, st⟩ := c
      obtain rfl : st = .ret r := hr
      exact ⟨.work true 0, rfl, work_can_move hcoh (workerStep_isSome hended fun _ => ⟨op, r, hc⟩)⟩
    · exact ⟨.queue a, by simp [LoggerAction.byWorker, ha, hactor], queue_can_move ha hstep⟩
  · exact ⟨.work true 0, rfl,
      work_can_move hcoh (workerStep_isSome hended fun h => absurd h hop)⟩

omit [Fintype Tid] [DecidableEq Tid] in
theorem LoggerAction.proceeds_of_byWorker {a : LoggerAction Tid} (h : a.byWorker = true) :
    a.proceeds = true := by
  cases a with
  | work => rfl
  | queue a => exact (Bool.and_eq_true_iff.mp h).1
  | _ => cases h

/-! ## Who sleeps -/

omit [Fintype Tid] [DecidableEq Tid] in
/-- An application thread asleep is inside the push of a log call. -/
theorem Coherent.asleep_push (hcoh : Coherent s) {c : Call (Entry Tid)}
    (hc : s.call (some t) = some c) (hasleep : c.asleep) :
    ∃ g entry, s.frames t = .logPush g entry ∧ c = ⟨.push (some g) entry, .notFullWait g true⟩ := by
  have hfit := hcoh.fitting _ c hc
  have hop := Frame.queueOp_cases (hcoh.op_frame hc)
  rcases hfit.asleep_cases hasleep with ⟨e, v, g, rfl⟩ | ⟨htaken, -⟩
  · rcases hop with ⟨g', entry, hf, hop⟩ | ⟨config, -, hop⟩ | ⟨-, hop⟩ <;> cases hop
    cases hfit with
    | notFullWait _ hg =>
      obtain rfl := Option.some.inj (hg.resolve_left (by simp))
      exact ⟨_, _, hf, rfl⟩
  · rcases hop with ⟨g', entry, hf, hop⟩ | ⟨config, -, hop⟩ | ⟨-, hop⟩ <;>
      simp [hop, QueueOp.maxTaken] at htaken

omit [Fintype Tid] [DecidableEq Tid] in
/-- The worker asleep is inside its removal. -/
theorem Coherent.asleep_pop (hcoh : Coherent s) {c : Call (Entry Tid)} (hc : s.call none = some c)
    (hasleep : c.asleep) :
    (∃ nf timeout, s.worker = .popping nf timeout) ∧ c.stage = .notEmptyWait true := by
  rcases (hcoh.fitting _ c hc).asleep_cases hasleep with ⟨e, v, g, rfl⟩ | ⟨htaken, hst⟩ <;>
    rcases WorkerPc.queueOp_cases (hcoh.op_worker hc) with ⟨nf, timeout, hpc, htaken'⟩ |
      ⟨final, -, hop⟩
  · cases htaken'
  · cases hop
  · exact ⟨⟨nf, timeout, hpc⟩, hst⟩
  · simp [hop, QueueOp.maxTaken] at htaken

omit [Fintype Tid] [DecidableEq Tid] in
/-- A producer asleep is about to be woken, or the queue is open and full and there is a
worker to make room, which is itself awake or about to be woken. -/
theorem Coherent.producer_asleep (hcoh : Coherent s) (hattended : Attended s.queues)
    {c : Call (Entry Tid)} (hc : s.call (some t) = some c) (hasleep : c.asleep) :
    SendingAllFull s.queues.calls ∨
      s.queue.closed = false ∧ s.queue.size = s.queue.capacity ∧ s.worker.ended = false ∧
        (sleeps .notEmpty (s.call none) = true →
          Sending (.all .notEmpty) s.queues.calls ∨ Sending (.one .notEmpty) s.queues.calls) := by
  obtain ⟨g, entry, hf, rfl⟩ := hcoh.asleep_push hc hasleep
  have hsleeps : sleeps .notFull (s.queues.calls (some t)) = true := by
    rw [show s.queues.calls (some t) = _ from hc]
    rfl
  refine (hattended.producers _ hsleeps).imp_right fun ⟨hopen, hfull⟩ => ?_
  have hgen : g = s.queue.generation := hattended.current _ _ g hc
  have hsound := hcoh.frames t
  have hworker := hcoh.worker
  rw [hf] at hsound
  have hlive : s.worker.isAbsent = false := (hsound.2 hgen).resolve_right (by
    simp [LoggerState.view, LoggerState.queue, hopen])
  refine ⟨hopen, le_antisymm hattended.bounded hfull, ?_, fun hdozes => ?_⟩
  · generalize s.worker = pc at hlive hworker
    cases pc with
    | absent => cases hlive
    | finished =>
      have hclosed : s.queue.closed = true := hworker
      simp [LoggerState.queue, hopen] at hclosed
    | _ => rfl
  · refine (hattended.worker hdozes).imp_right fun hq => hq.2.resolve_left fun hempty => ?_
    have := s.queues.queue.capacity_pos
    simp only [BlockingQueue.size, hempty, List.length_nil] at hfull
    omega

/-! ## Nobody waits for ever -/

omit [Fintype Tid] [DecidableEq Tid] in
theorem Frame.stopping_exclusive (h : f.stopping = true) : f.exclusive = true := by
  cases f <;> first | rfl | cases h

/-- The worker sleeps in its removal, on an open and empty queue. -/
def LoggerState.Waiting (s : LoggerState Tid) : Prop :=
  (∃ nf timeout op, s.worker = .popping nf timeout ∧ s.call none = some ⟨op, .notEmptyWait true⟩) ∧
    s.queue.closed = false ∧ s.queue.queue = []

/-- In a state where nobody can move, a worker that has not finished sleeps on an open and
empty queue. -/
theorem Coherent.stuck_worker (hcoh : Coherent s) (hattended : Attended s.queues)
    (hstuck : ¬ s.CanMove host) (hended : s.worker.ended = false) : s.Waiting := by
  have hsleeper : ∃ c, s.call none = some c ∧ c.asleep := by
    by_contra hnone
    push Not at hnone
    obtain ⟨a, ha, hstep⟩ : ∃ a : LoggerAction Tid, a.byWorker = true ∧
        (s.step host a).isSome = true := hcoh.worker_moves hended hnone
    exact hstuck ⟨a, LoggerAction.proceeds_of_byWorker ha, hstep⟩
  obtain ⟨⟨op, st⟩, hc, hasleep⟩ := hsleeper
  obtain ⟨⟨nf, timeout, hpc⟩, hst⟩ := hcoh.asleep_pop hc hasleep
  obtain rfl : st = .notEmptyWait true := hst
  refine ⟨⟨nf, timeout, op, hpc, hc⟩, ?_⟩
  have hsleeps : sleeps .notEmpty (s.queues.calls none) = true := by
    rw [show s.queues.calls none = _ from hc]
    rfl
  have hquiet : ∀ sig, ¬ Sending sig s.queues.calls := by
    intro sig hsend
    obtain ⟨a, ha, hstep⟩ := Sending.can_proceed hsend
    exact hstuck ⟨.queue a, ha, queue_can_move ha hstep⟩
  obtain ⟨hopen, hq⟩ := (hattended.worker hsleeps).resolve_left (hquiet _)
  exact ⟨hopen, hq.resolve_right (hquiet _)⟩

omit [Fintype Tid] [DecidableEq Tid] in
/-- A thread that waits for the worker waits in a closed queue. -/
theorem Coherent.joining_closed (hcoh : Coherent s) (hjoin : (s.frames t).joining = true)
    (hlooping : s.worker.looping = true) : s.queue.closed = true := by
  have hsound := hcoh.frames t
  cases hf : s.frames t with
  | initJoin config =>
    rw [hf] at hsound
    by_contra hopen
    obtain ⟨u, hu⟩ := hcoh.loopingOpen hlooping hsound (by simpa using hopen)
    have hut : t ≠ u := by
      rintro rfl
      rw [hf] at hu
      cases hu
    have hnot := (hcoh.exclusion t u hut (by rw [hf]; rfl)).1
    simp [Frame.stopping_exclusive hu] at hnot
  | stopJoin =>
    rw [hf] at hsound
    exact hsound.2
  | _ => rw [hf] at hjoin; cases hjoin

omit [Fintype Tid] [DecidableEq Tid] in
/-- The holder of the lock does not sleep in the queue. -/
theorem Coherent.holder_awake (hcoh : Coherent s)
    (hf : (s.frames t).exclusive = true ∨ (s.frames t).shared = true) {c : Call (Entry Tid)}
    (hc : s.call (some t) = some c) : ¬ c.asleep := by
  intro hasleep
  obtain ⟨g, entry, hframe, -⟩ := hcoh.asleep_push hc hasleep
  rw [hframe] at hf
  simp [Frame.exclusive, Frame.shared] at hf

/-- Where nobody can move, every application call has returned, and there is no worker, it
has finished, or it waits on an open and empty queue. -/
theorem Coherent.stuck (hcoh : Coherent s) (hattended : Attended s.queues)
    (hstuck : ¬ s.CanMove host) :
    (∀ t, s.frames t = .idle) ∧
      (s.worker = .absent ∨ (∃ failed, s.worker = .finished failed) ∨ s.Waiting) := by
  have hworker : s.worker.ended = false → s.Waiting := hcoh.stuck_worker hattended hstuck
  have hjoins : ∀ t, (s.frames t).joining = true → s.worker.ended = true := by
    intro t ht
    by_contra hended
    obtain ⟨⟨nf, timeout, op, hpc, -⟩, hopen, -⟩ := hworker (by simpa using hended)
    have hclosed := hcoh.joining_closed ht (by rw [hpc]; rfl)
    simp [hopen] at hclosed
  -- the lock is free: whoever holds it could go on
  have hholder : ∀ t, (s.frames t).exclusive = false ∧ (s.frames t).shared = false := by
    intro t
    by_contra hf
    have hheld : (s.frames t).exclusive = true ∨ (s.frames t).shared = true := by
      by_contra hnot
      exact hf (by simpa using hnot)
    refine hstuck (hcoh.app_moves (t := t) ?_ ?_ (hjoins t) fun c => hcoh.holder_awake hheld)
    · intro hidle
      rw [hidle] at hheld
      simp [Frame.exclusive, Frame.shared] at hheld
    · intro hlocking
      generalize s.frames t = f at hheld hlocking
      cases f <;> simp [Frame.exclusive, Frame.shared, Frame.locking] at hheld hlocking
  have hfree : s.available = true := decide_eq_true hholder
  have hquiet : ∀ sig, ¬ Sending sig s.queues.calls := by
    intro sig hsend
    obtain ⟨a, ha, hstep⟩ := Sending.can_proceed hsend
    exact hstuck ⟨.queue a, ha, queue_can_move ha hstep⟩
  constructor
  · intro t
    by_contra hidle
    refine hstuck (hcoh.app_moves hidle (fun _ => hfree) (hjoins t) fun c hc hasleep => ?_)
    rcases hcoh.producer_asleep hattended hc hasleep with hsend | ⟨-, -, hended, hdozes⟩
    · obtain ⟨a, ha, hstep⟩ := hsend.can_proceed
      exact hstuck ⟨.queue a, ha, queue_can_move ha hstep⟩
    · obtain ⟨⟨nf, timeout, op, -, hcall⟩, -⟩ := hworker hended
      exact (hdozes (by rw [hcall]; rfl)).elim (hquiet _) (hquiet _)
  · cases hw : s.worker with
    | absent => exact .inl rfl
    | finished failed => exact .inr (.inl ⟨failed, rfl⟩)
    | _ => exact .inr (.inr (hworker (by rw [hw]; rfl)))

/-- What holds of every run with regard to waiting. -/
structure Lively (es : List (LoggerEvent Tid)) (s : LoggerState Tid) : Prop where
  coherent : Coherent s
  attended : Attended s.queues
  hushed : Hushed s
  dead : Died (lifecycle es) → s.Dead

theorem reaches_lively {P : LoggerState Tid → LoggerAction Tid → Prop}
    (h : (loggerSystem host).Run P .initial es s) : Lively es s := by
  have hattended : Attended s.queues :=
    reaches_attended (TransitionSystem.Run.project _ _ (logger_projects host P) h)
  have hinv : Coherent s ∧ Hushed s ∧ (Died (lifecycle es) → s.Dead) := by
    refine h.invariant (I := fun es s => Coherent s ∧ Hushed s ∧ (Died (lifecycle es) → s.Dead))
      ⟨.initial, .initial, by rintro ⟨⟩⟩ ?_
    rintro es s a s' fs ⟨hcoh, hush, hdead⟩ - hstep
    exact ⟨hcoh.step hstep, hush.step hcoh hstep, hush.died_step hcoh hdead hstep⟩
  exact ⟨hinv.1, hattended, hinv.2.1, hinv.2.2⟩

/-- Nobody waits for ever. In every reachable state some thread can take a step of its own
accord, unless every call of the application has returned and the worker is absent, finished
or waiting on an open and empty queue. A producer asleep is about to be woken, or the queue
is open and full and there is a worker which is awake or about to be woken. While `stop`
waits for the worker, the worker can go on and takes a bounded number of steps. And once the
worker has died of a failure, until `init` resets the queue, `running_` is false, the queue
is closed, nobody sleeps in it, and a push can only return `Closed`. -/
theorem deadlock_freedom (h : (loggerSystem host).Reaches .initial es s) :
    (s.CanMove host ∨ (∀ t, s.frames t = .idle) ∧
      (s.worker = .absent ∨ (∃ failed, s.worker = .finished failed) ∨ s.Waiting)) ∧
    (∀ t e v g, s.call (some t) = some ⟨.push e v, .notFullWait g true⟩ →
      SendingAllFull s.queues.calls ∨
        s.queue.closed = false ∧ s.queue.size = s.queue.capacity ∧ s.worker.ended = false ∧
          (sleeps .notEmpty (s.call none) = true →
            Sending (.all .notEmpty) s.queues.calls ∨ Sending (.one .notEmpty) s.queues.calls)) ∧
    (∀ t, s.frames t = .stopJoin →
      (s.worker.ended = true → (s.step host (.app t true 0)).isSome = true) ∧
      (s.worker.ended = false →
        ∃ a : LoggerAction Tid, a.byWorker = true ∧ (s.step host a).isSome = true) ∧
      ∀ as s' fs, (loggerSystem host).exec (fun s _ => s.frames t = .stopJoin) s as = some (s', fs) →
        s'.frames t = .stopJoin → as.countP LoggerAction.byWorker ≤ s.exitCost) ∧
    (Died (lifecycle es) → s.running = false ∧ s.queue.closed = true ∧
      (∀ who, sleeps .notFull (s.call who) = false) ∧
      ∀ t g entry alloc expired queues qes, s.frames t = .logPush g entry →
        s.queues.step (.run (some t) alloc expired) = some (queues, qes) →
        queues.queue = s.queue ∧ qes = [.pushed entry .Closed] ∧
          queues.calls (some t) = some ⟨.push (some g) entry, .ret (.pushed .Closed)⟩) := by
  obtain ⟨hcoh, hattended, hush, hdead⟩ := reaches_lively h
  refine ⟨?_, ?_, ?_, ?_⟩
  · by_cases hmove : s.CanMove host
    · exact .inl hmove
    · exact .inr (hcoh.stuck hattended hmove)
  · intro t e v g hc
    exact hcoh.producer_asleep hattended hc ⟨.notFull, rfl⟩
  · intro t ht
    have hsilent : s.Silent := hush.stopped t (by rw [ht]; rfl)
    refine ⟨fun hended => ?_, fun hended => ?_, fun as s' fs hexec ht' => ?_⟩
    · exact app_can_move hcoh (appStep_isSome (by simp [ht]) (by simp [ht, Frame.locking])
        (fun _ => hended) (by simp [ht, Frame.queueOp]))
    · refine hcoh.worker_moves hended fun c hc hasleep => ?_
      obtain ⟨cv, hcv⟩ := hasleep
      have hawake : sleeps cv (s.call none) = false := (hsilent cv).2 none
      simp [hc, sleeps, hcv] at hawake
    · exact (Nat.le_add_right _ _).trans (hush.join_bounded hcoh hexec ht')
  · intro hdied
    obtain ⟨hrunning, hsilent⟩ := hdead hdied
    refine ⟨hrunning, (hsilent .notFull).1, (hsilent .notFull).2, ?_⟩
    intro t g entry alloc expired queues qes hf hstep
    cases step_move hstep with
    | @run _ _ _ c sec hc hsec =>
      obtain ⟨op, st⟩ := c
      have hop := hcoh.op_frame hc
      rw [hf] at hop
      obtain rfl := Option.some.inj hop
      obtain rfl := hsec.closed_push (hsilent .notFull).1
      exact ⟨rfl, rfl, Function.update_self _ _ _⟩

/-- A second record finds the queue full and waits; the worker takes the first one and wakes
the producer, the sink throws, and the worker closes the queue and ends. -/
def dyingSchedule : List (LoggerAction TwoThreads) :=
  initSchedule .first { oneSink with queueCapacity := 1 } ++
    logSchedule .second ++ pushSchedule .second ++
    logSchedule .second ++ [.queue (.run (some .second) true false)] ++
    [.work true 0, .work true 0, .queue (.run none true false), .queue (.notify none none)] ++
    List.replicate 4 (.work true 0) ++ [.work false 0, .work true 0, .work true 0,
      .queue (.run none true false), .queue (.notify none none), .queue (.notify none none)] ++
    List.replicate 4 (.work true 0)

theorem deadlock_freedom_dying :
    ∃ es s queues qes entry, (loggerSystem epochHost).Reaches .initial es s ∧
      s.worker = .finished true ∧ s.running = false ∧ s.frames .second = .logPush 1 entry ∧
      s.queues.step (.run (some .second) true false) = some (queues, qes) ∧
      qes = [.pushed entry .Closed] := by
  obtain ⟨es, s, queues, qes, entry, hrun, hworker, hframe, hdied, hstep⟩ :
      ∃ es s queues qes entry, (loggerSystem epochHost).Reaches .initial es s ∧
        s.worker = .finished true ∧ s.frames .second = .logPush 1 entry ∧
        .workerFinished true ∈ lifecycle es ∧
        s.queues.step (.run (some .second) true false) = some (queues, qes) :=
    ⟨_, _, _, _, _, .of_schedule dyingSchedule (by decide), by decide, rfl, by decide,
      (Option.some_get (by decide)).symm⟩
  obtain ⟨hrunning, -, -, hpush⟩ := (deadlock_freedom hrun).2.2.2 hdied
  exact ⟨es, s, queues, qes, entry, hrun, hworker, hrunning, hframe, hstep,
    (hpush _ _ _ _ _ _ _ hframe hstep).2.1⟩

end CppLogger
