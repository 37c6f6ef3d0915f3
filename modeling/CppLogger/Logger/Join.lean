import CppLogger.Logger.Closing

/-!
# Waiting for the worker

While `stop` waits for the worker, the queue is closed and nobody sleeps in it, so the worker
is never held up, and what it still has to do only gets less: it drains the queue, flushes
the sinks and returns, whatever the sinks throw on the way.
-/

namespace CppLogger

variable {Tid : Type*}

/-! ## What the worker has still to do -/

/-- Steps of a loop over the sinks that has come to sink `k`. -/
def sweepCost (sinks k : ℕ) (busy : Bool) : ℕ :=
  if busy then 2 * (sinks - (k + 1)) + 2 else 2 * (sinks - k) + 1

/-- Enough steps to get `backlog` elements through all sinks. -/
def drainCost (sinks backlog : ℕ) : ℕ := (4 * sinks + 10) * backlog

/-- Steps of the worker from a stage of its call of `close` on, until it has returned. -/
def closeCost : Stage (Entry Tid) → ℕ
  | .ret _ => 1
  | .notifyFull => 2
  | .notify _ => 3
  | _ => 4

/-- Steps of the worker from a stage of its removal on. -/
def popCost (sinks backlog : ℕ) : Stage (Entry Tid) → ℕ
  | .ret (.values batch) => drainCost sinks backlog + 8 * sinks + 24 + batch.length
  | .notify (.values batch) => drainCost sinks backlog + 8 * sinks + 25 + batch.length
  | .ret _ => 4 * sinks + 16
  | .notify _ | .notifyFull => 4 * sinks + 17
  | _ => drainCost sinks backlog + 4 * sinks + 17

/-- Steps of the worker until it has finished, in a closed queue. -/
def WorkerPc.exitCost (sinks backlog : ℕ) (stage : Stage (Entry Tid)) : WorkerPc Tid → ℕ
  | .absent | .finished _ => 0
  | .closing true => closeCost stage
  | .closeQueue true => 5
  | .caught true => 6
  | .flushing (.last _) k busy => sweepCost sinks k busy + 6
  | .closing false => closeCost stage + 2 * sinks + 7
  | .checkClosed _ => 2 * sinks + 8
  | .rearm .idle => 2 * sinks + 9
  | .closeQueue false => 2 * sinks + 12
  | .caught false => 2 * sinks + 13
  | .flushing .idle k busy => sweepCost sinks k busy + 2 * sinks + 13
  | .idle _ => 4 * sinks + 15
  | .popping _ _ => popCost sinks backlog stage
  | .loop _ => drainCost sinks backlog + 4 * sinks + 18
  | .reserve | .rearm _ => drainCost sinks backlog + 4 * sinks + 19
  | .flushing (.batch _) k busy =>
    sweepCost sinks k busy + drainCost sinks backlog + 4 * sinks + 19
  | .written _ _ => drainCost sinks backlog + 6 * sinks + 21
  | .write _ k busy _ _ _ => sweepCost sinks k busy + drainCost sinks backlog + 6 * sinks + 21
  | .format _ batch formattedBatch _ =>
    drainCost sinks backlog + 8 * sinks + 23 + (batch.length - formattedBatch.length)

/-- The stage of a call, if there is one. -/
def stageOf (c : Option (Call (Entry Tid))) : Stage (Entry Tid) := c.elim .enter Call.stage

def LoggerState.exitCost (s : LoggerState Tid) : ℕ :=
  s.worker.exitCost s.sinks.length s.queue.size (stageOf (s.call none))

/-- Steps that the worker takes of its own accord. -/
def LoggerAction.byWorker : LoggerAction Tid → Bool
  | .work _ _ => true
  | .queue a => a.proceeds && a.actor.isNone
  | _ => false

variable {host : Host Tid} {s s' : LoggerState Tid} {t : Tid} {ok : Bool} {now : ℤ}
variable {f f' : Frame Tid} {pc pc' : WorkerPc Tid} {effect : Effect Tid}
variable {es : List (LoggerEvent Tid)}

/-- Sink `k` is called: one step less. -/
theorem sweepCost_call {sinks k : ℕ} (h : k < sinks) :
    sweepCost sinks k true < sweepCost sinks k false := by
  simp only [sweepCost, if_true, Bool.false_eq_true, if_false]
  omega

theorem sweepCost_next (sinks k : ℕ) : sweepCost sinks (k + 1) false < sweepCost sinks k true := by
  simp [sweepCost]

theorem sweepCost_pos (sinks k : ℕ) (busy : Bool) : 0 < sweepCost sinks k busy := by
  unfold sweepCost
  split_ifs <;> omega

theorem sweepCost_start (sinks : ℕ) : sweepCost sinks 0 false = 2 * sinks + 1 := rfl

/-- A step of the worker outside the queue brings it nearer to its end. -/
theorem WorkerMove.cost (h : WorkerMove host s ok now pc pc' effect es)
    (hclosed : s.queue.closed = true) (backlog : ℕ) (stage : Stage (Entry Tid))
    (hstage : ∀ op, effect = .call op → stage = .enter) :
    pc'.exitCost s.sinks.length backlog stage <
      pc.exitCost s.sinks.length backlog (stageOf (s.call none)) := by
  cases h with
  | notClosed hopen => simp [hclosed] at hopen
  | popBatchFor | popBatch =>
    rw [hstage _ rfl]
    simp [WorkerPc.exitCost, popCost]
  | @caught final => cases final <;> simp [WorkerPc.exitCost]
  | @closeQueue final =>
    rw [hstage _ rfl]
    cases final <;> simp only [WorkerPc.exitCost, closeCost] <;> omega
  | took hc | popThrew hc => simp [WorkerPc.exitCost, popCost, stageOf, hc] <;> omega
  | @tookNothing nf timeout op r hc hr hthrew =>
    cases r <;> simp_all [WorkerPc.exitCost, popCost, stageOf]
  | closing hc | closingFinal hc =>
    simp [WorkerPc.exitCost, closeCost, stageOf, hc, sweepCost_start]
  | @flush site k hk =>
    have := sweepCost_call hk
    cases site <;> simp only [WorkerPc.exitCost] <;> omega
  | @flushed site k =>
    have := sweepCost_next s.sinks.length k
    cases site <;> simp only [WorkerPc.exitCost] <;> omega
  | @flushThrew site k _ hsite =>
    have := sweepCost_pos s.sinks.length k true
    cases site with
    | last failed => exact absurd rfl (hsite failed)
    | _ => simp only [WorkerPc.exitCost]; omega
  | @write nf k batch texts flag hk =>
    have := sweepCost_call hk
    simp only [WorkerPc.exitCost]
    omega
  | @wrote nf k =>
    have := sweepCost_next s.sinks.length k
    simp only [WorkerPc.exitCost]
    omega
  | @rearm site hsite =>
    cases site <;> first | exact absurd rfl hsite | simp [WorkerPc.exitCost]
  | @format nf batch texts flag entry hentry =>
    have := (List.getElem?_eq_some_iff.mp hentry).1
    simp only [WorkerPc.exitCost, List.length_append, List.length_singleton]
    omega
  | _ => simp [WorkerPc.exitCost, sweepCost] <;> omega

section Sections

variable {q : BlockingQueue (Entry Tid)} {alloc : Bool} {op : QueueOp (Entry Tid)}
variable {st : Stage (Entry Tid)} {sec : Section (Entry Tid)}

/-- An element that is taken pays for its way through the sinks. -/
theorem drainCost_take (sinks n : ℕ) (xs : List (Entry Tid)) (hn : 0 < n) (hne : xs ≠ []) :
    drainCost sinks (xs.drop n).length + 8 * sinks + 25 + (xs.take n).length <
      drainCost sinks xs.length + 4 * sinks + 17 := by
  have hlen := List.length_pos_of_ne_nil hne
  have hsplit : xs.length = (xs.drop n).length + (xs.take n).length := by
    rw [List.length_drop, List.length_take]
    omega
  have htake : 0 < (xs.take n).length := by
    rw [List.length_take]
    omega
  have hcost : (4 * sinks + 9) * 1 ≤ (4 * sinks + 9) * (xs.take n).length :=
    Nat.mul_le_mul_left _ htake
  unfold drainCost
  rw [hsplit]
  nlinarith

/-- A section of a removal in a closed queue finds something to take, or nothing at all. -/
theorem Outcome.popCost (h : Outcome q alloc op st sec) (hfit : Fits op st)
    (hclosed : q.closed = true) (htaken : op.maxTaken.isSome = true) (sinks : ℕ) :
    popCost sinks sec.queue.size sec.stage < popCost sinks q.size st := by
  cases h with
  | zeroBatch => simp only [CppLogger.popCost]; omega
  | ended _ hst | popThrew _ hst =>
    rcases hst with ⟨rfl, -⟩ | rfl <;> simp only [CppLogger.popCost] <;> omega
  | took hop hst hne =>
    have hcost := drainCost_take sinks _ q.queue (hfit.maxTaken_pos hop hst) hne
    rcases hst with ⟨rfl, -⟩ | rfl <;> exact hcost
  | timedOut hopen => simp [hclosed] at hopen
  | sleepsEmpty _ _ hopen => simp [hclosed] at hopen
  | _ => cases htaken

theorem Outcome.closeCost (h : Outcome q alloc .close st sec) : closeCost sec.stage < closeCost st := by
  cases h with
  | closes => simp [CppLogger.closeCost]
  | zeroBatch hop => simp at hop
  | ended hop | took hop | popThrew hop | sleepsEmpty hop => cases hop

/-- Whoever does not remove elements leaves a closed queue as long as it is. -/
theorem Outcome.closed_size (h : Outcome q alloc op st sec) (hclosed : q.closed = true)
    (htaken : op.maxTaken = none) (hreset : ∀ capacity policy, op ≠ .reset capacity policy) :
    sec.queue.size = q.size := by
  cases h with
  | rejected | closes => rfl
  | resets capacity policy => exact absurd rfl (hreset capacity policy)
  | sleepsFull hopen | enqueued hopen | pushThrew hopen | droppedNewest hopen
  | droppedOldest hopen | abandoned hopen => simp [hclosed] at hopen
  | timedOut => cases htaken
  | zeroBatch hop => rcases hop with rfl | ⟨timeout, rfl⟩ <;> cases htaken
  | ended hop | took hop | popThrew hop | sleepsEmpty hop => simp [htaken] at hop

/-- Sending a notification is a step towards the end of an operation. -/
theorem Call.signal_cost {c : Call (Entry Tid)} {sig : Signal} {stage : Stage (Entry Tid)}
    (hsig : c.signal = some (sig, stage)) (sinks backlog : ℕ) :
    (c.op.maxTaken.isSome = true → popCost sinks backlog stage < popCost sinks backlog c.stage) ∧
      (c.op = .close → closeCost stage < closeCost c.stage) := by
  rcases Call.signal_cases hsig with ⟨e, v, r, rfl, -, rfl⟩ | ⟨r, rfl, -, rfl⟩ |
    ⟨op, n, r, rfl, hop, -, rfl⟩ | ⟨r, rfl, -, rfl⟩ | ⟨rfl, -, rfl⟩
  · simp [QueueOp.maxTaken]
  · exact ⟨fun _ => by cases r <;> simp [popCost], fun hclose => by cases hclose⟩
  · exact ⟨fun _ => by cases r <;> simp [popCost], fun hclose : op = .close => by simp [hclose] at hop⟩
  · simp [QueueOp.maxTaken, closeCost]
  · simp [QueueOp.maxTaken, closeCost]

end Sections

/-! ## The steps of a waiting `stop` -/

variable [Fintype Tid] [DecidableEq Tid]
variable {a : QueueAction (Entry Tid) (Option Tid)}
variable {queues : QueueState (Entry Tid) (Option Tid)} {qes : List (QueueEvent (Entry Tid))}

/-- A step of the worker inside the queue. -/
theorem Coherent.queue_cost (hcoh : Coherent s) (hclosed : s.queue.closed = true)
    (hproceeds : a.proceeds = true) (hactor : a.actor = none)
    (hstep : s.queues.step a = some (queues, qes)) :
    LoggerState.exitCost { s with queues := queues } < s.exitCost := by
  have hcost : ∀ {c : Call (Entry Tid)} (st : Stage (Entry Tid)) (backlog : ℕ),
      s.call none = some c →
      (c.op.maxTaken.isSome = true →
        popCost s.sinks.length backlog st < popCost s.sinks.length s.queue.size c.stage) →
      (c.op = .close → closeCost st < closeCost c.stage) →
      s.worker.exitCost s.sinks.length backlog st < s.exitCost := by
    intro c st backlog hc hpop hclose
    unfold LoggerState.exitCost stageOf
    rw [hc]
    rcases WorkerPc.queueOp_cases (hcoh.op_worker hc) with ⟨nf, timeout, hpc, htaken⟩ |
      ⟨final, hpc, hop⟩ <;> rw [hpc]
    · exact hpop (by simp [htaken])
    · have := hclose hop
      cases final <;> simp only [WorkerPc.exitCost, Option.elim_some] <;> omega
  cases step_move hstep with
  | @run t alloc expired c sec hc hsec =>
    obtain rfl : t = none := hactor
    have hfit := hcoh.fitting none c hc
    have hnew := hcost sec.stage sec.queue.size hc
      (hsec.popCost hfit hclosed · s.sinks.length) (fun hop => by
        obtain ⟨op, st⟩ := c
        obtain rfl : op = .close := hop
        exact hsec.closeCost)
    simpa [LoggerState.exitCost, LoggerState.queue, LoggerState.call, stageOf] using hnew
  | @notify t target c sig stage calls hc hsig hcalls =>
    obtain rfl : t = none := hactor
    have hsigcost := Call.signal_cost hsig s.sinks.length s.queue.size
    have hnew := hcost stage s.queue.size hc hsigcost.1 hsigcost.2
    simpa [LoggerState.exitCost, LoggerState.queue, LoggerState.call, stageOf] using hnew
  | _ => cases hproceeds

/-- A step of another thread inside the queue does not concern the worker. -/
theorem LoggerState.Silent.queue_cost (hsilent : s.Silent) (ha : a.internal = true)
    (hactor : a.actor ≠ none) (hcoh : Coherent s) (hreset : .reset ∉ qes)
    (hstep : s.queues.step a = some (queues, qes)) :
    LoggerState.exitCost { s with queues := queues } = s.exitCost := by
  have hcall : queues.calls none = s.call none := by
    rcases step_stirred hstep (Ne.symm hactor) with heq | ⟨d, hd, ⟨cv, hcv⟩, -⟩
    · exact heq
    · have := (hsilent cv).2 none
      simp [hd, sleeps, hcv] at this
  have hsize : queues.queue.size = s.queue.size := by
    cases step_move hstep with
    | call | ret => cases ha
    | @run t alloc expired c sec hc hsec =>
      obtain ⟨u, rfl⟩ := Option.ne_none_iff_exists'.mp hactor
      refine hsec.closed_size (hsilent .notFull).1 ?_ ?_
      · rcases Frame.queueOp_cases (hcoh.op_frame hc) with ⟨g, entry, -, hop⟩ | ⟨config, -, hop⟩ |
          ⟨-, hop⟩ <;> rw [hop] <;> rfl
      · intro capacity policy hop
        rw [hop] at hsec
        exact hreset (by simp [hsec.of_reset])
    | notify | wake | timeout => rfl
  simp only [LoggerState.exitCost, LoggerState.queue, LoggerState.call] at *
  rw [hcall, hsize]

/-- The worker moves in the queue only by steps of its own. -/
theorem LoggerState.Silent.proceeds (hsilent : s.Silent) (ha : a.internal = true)
    (hactor : a.actor = none) (hstep : s.queues.step a = some (queues, qes)) :
    a.proceeds = true := by
  have hawake : ∀ {cv : CondVar} {c : Call (Entry Tid)}, s.queues.calls none = some c →
      c.sleepsOn cv = false := fun {cv c} hc => by simpa [hc, sleeps] using (hsilent cv).2 none
  cases step_move hstep with
  | call | ret => cases ha
  | run | notify => rfl
  | @wake t c hc hs =>
    obtain rfl : t = none := hactor
    simp [hawake hc] at hs
  | @timeout t c hc hs =>
    obtain rfl : t = none := hactor
    have := Call.sleepsOn_of_isTimed hs
    simp [hawake hc] at this

/-- While `stop` waits for the worker, no step takes the worker further from its end, and
each of its own brings it nearer. -/
theorem Hushed.join_step (hush : Hushed s) (hcoh : Coherent s) {b : LoggerAction Tid}
    (ht : s.frames t = .stopJoin) (hstep : s.step host b = some (s', es))
    (ht' : s'.frames t = .stopJoin) :
    s'.exitCost ≤ s.exitCost ∧ (b.byWorker = true → s'.exitCost < s.exitCost) := by
  have hsilent : s.Silent := hush.stopped t (by rw [ht]; rfl)
  have hclosed : s.queue.closed = true := (hsilent .notFull).1
  have hex : (s.frames t).exclusive = true := by rw [ht]; rfl
  cases loggerStep_move hstep with
  | begin => exact ⟨le_rfl, by rintro ⟨⟩⟩
  | @app u ok now next effect es s₁ hmove heffect =>
    refine ⟨le_of_eq ?_, by rintro ⟨⟩⟩
    have hut : u ≠ t := by
      rintro rfl
      dsimp only at ht'
      rw [Function.update_self] at ht'
      rw [ht] at hmove
      cases hmove <;> cases ht'
    have hnot := (hcoh.exclusion t u (Ne.symm hut) hex).1
    have hqueue : s₁.queue = s.queue := (apply_queues heffect).1
    have hworker := apply_worker heffect
    have hcall : s₁.call none = s.call none := apply_call_other heffect (by simp)
    have hkeeps : effect.keepsSettings = true ∧ effect.onWorker s.worker = s.worker := by
      generalize s.frames u = f at hmove hnot
      cases hmove <;> first | exact ⟨rfl, rfl⟩ | cases hnot
    have hsinks := (apply_sameSettings heffect hkeeps.1).sinks
    change s₁.worker.exitCost s₁.sinks.length s₁.queue.size (stageOf (s₁.call none)) = _
    rw [hworker, hkeeps.2, hsinks, hqueue, hcall]
    rfl
  | @work ok now next effect es s₁ hmove heffect =>
    have hqueue : s₁.queue = s.queue := (apply_queues heffect).1
    have hkeeps : effect.keepsSettings = true := by
      generalize s.worker = pc at hmove
      cases hmove <;> rfl
    have hsinks := (apply_sameSettings heffect hkeeps).sinks
    have hcost := hmove.cost hclosed s.queue.size (stageOf (s₁.call none)) (fun op hop => by
      subst hop
      rw [apply_call_self heffect]
      rfl)
    have hlt : LoggerState.exitCost { s₁ with worker := next } < s.exitCost := by
      change next.exitCost s₁.sinks.length s₁.queue.size (stageOf (s₁.call none)) < _
      rw [hsinks, hqueue]
      exact hcost
    exact ⟨hlt.le, fun _ => hlt⟩
  | @queue a queues qes ha hqstep =>
    by_cases hactor : a.actor = none
    · have hlt := hcoh.queue_cost hclosed (hsilent.proceeds ha hactor hqstep) hactor hqstep
      exact ⟨hlt.le, fun _ => hlt⟩
    · have hreset : .reset ∉ qes := by
        rcases hcoh.queue_cases ha hqstep with ⟨-, -, u, config, -, hu⟩ | ⟨hreset, -⟩ |
          ⟨vs, -, rfl, -⟩
        · have hut : t ≠ u := by
            rintro rfl
            rw [hu] at ht
            cases ht
          have hnot := (hcoh.exclusion t u hut hex).1
          rw [hu] at hnot
          cases hnot
        · exact hreset
        · simp
      exact ⟨(hsilent.queue_cost ha hactor hcoh hreset hqstep).le,
        fun hby => absurd hby (by simp [LoggerAction.byWorker, hactor])⟩

/-- For as long as `stop` waits, the worker takes no more steps than it has left. -/
theorem Hushed.join_bounded (hush : Hushed s) (hcoh : Coherent s) {as : List (LoggerAction Tid)}
    (h : (loggerSystem host).exec (fun s _ => s.frames t = .stopJoin) s as = some (s', es))
    (ht' : s'.frames t = .stopJoin) :
    as.countP LoggerAction.byWorker + s'.exitCost ≤ s.exitCost := by
  induction as generalizing s es with
  | nil =>
    cases h
    simp
  | cons a as ih =>
    simp only [TransitionSystem.exec] at h
    split_ifs at h with ht
    cases hstep : s.step host a with
    | none => simp [loggerSystem, hstep] at h
    | some r =>
      obtain ⟨s₁, fs⟩ := r
      simp only [loggerSystem, hstep, Option.map_eq_some_iff] at h
      obtain ⟨⟨s₂, gs⟩, hrest, hs₂⟩ := h
      cases hs₂
      have ht₁ : s₁.frames t = .stopJoin := by
        cases as with
        | nil =>
          cases hrest
          exact ht'
        | cons b bs =>
          simp only [TransitionSystem.exec] at hrest
          split_ifs at hrest with ht₁
          exact ht₁
      have hle := ih (hush.step hcoh hstep) (hcoh.step hstep) hrest
      obtain ⟨hkeep, hless⟩ := hush.join_step hcoh ht hstep ht₁
      rw [List.countP_cons]
      split_ifs with hby
      · have := hless hby
        omega
      · omega

end CppLogger
