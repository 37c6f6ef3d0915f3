import CppLogger.Logger.Answers
import CppLogger.Logger.Settings

/-!
# Draining on stop

When no sink throws and no allocation fails, the worker leaves its loop from one place,
the test of `queue_.closed()` after a removal that came back empty-handed. If the queue is
empty at that test, it is empty when `stop` returns and every sink has got everything. Under
the flush policy `Periodic` the removal may have timed out, and a push followed by `close`
may come between it and the test.
-/

namespace CppLogger

variable {Tid : Type*}

/-! ## What is assumed of a step -/

/-- The worker is about to test whether the queue is closed. -/
def WorkerPc.checking : WorkerPc Tid → Bool
  | .checkClosed _ => true
  | _ => false

/-- Under `Periodic`, the worker does not test whether the queue is closed while it is
closed and holds elements. -/
def Attentive (s : LoggerState Tid) : LoggerAction Tid → Prop
  | .work _ _ => s.worker.checking = true → s.flushPolicy = .Periodic →
      s.queue.closed = true → s.queue.queue = []
  | _ => True

instance [DecidableEq Tid] (s : LoggerState Tid) (a : LoggerAction Tid) : Decidable (Attentive s a) :=
  match a with
  | .work _ _ => inferInstanceAs (Decidable (_ → _ → _ → _))
  | .begin _ _ | .app _ _ _ | .queue _ => .isTrue trivial

/-! ## The way out of the loop -/

/-- Nothing is in the queue, and nothing can come in. -/
def BlockingQueue.Drained {T : Type*} (q : BlockingQueue T) : Prop :=
  q.closed = true ∧ q.queue = []

/-- What is known of the queue on the worker's way out. A removal without a timeout that
came back empty-handed has found the queue closed and empty. -/
def WorkerPc.Leaves (q : BlockingQueue (Entry Tid)) (flushPolicy : FlushPolicy)
    (call : Option (Call (Entry Tid))) : WorkerPc Tid → Prop
  | .absent => q.queue = []
  | .popping _ timeout =>
    (∀ op, call ≠ some ⟨op, .ret .threw⟩) ∧ (timeout ≠ none → flushPolicy = .Periodic) ∧
      (timeout = none → ∀ op, call = some ⟨op, .ret .none⟩ → q.Drained)
  | .idle _ | .flushing .idle _ _ | .rearm .idle | .checkClosed _ =>
    flushPolicy ≠ .Periodic → q.Drained
  | .flushing (.last failed) _ _ | .finished failed => failed = false ∧ q.Drained
  | .caught _ | .closeQueue _ | .closing _ => False
  | _ => True

def LoggerState.Leaves (s : LoggerState Tid) : Prop :=
  s.worker.Leaves s.queue s.flushPolicy (s.call none)

variable {history : List (LoggerEvent Tid)} {host : Host Tid} {s s' : LoggerState Tid}
variable {t : Tid} {ok : Bool} {now : ℤ} {f f' : Frame Tid} {pc pc' : WorkerPc Tid}
variable {effect : Effect Tid} {es fs : List (LoggerEvent Tid)}
variable [Fintype Tid] [DecidableEq Tid]

omit [Fintype Tid] [DecidableEq Tid] in
theorem leaves_initial : (LoggerState.initial : LoggerState Tid).Leaves :=
  (rfl : (LoggerState.initial : LoggerState Tid).queue.queue = [])

theorem LoggerState.Leaves.app (h : s.Leaves) (hcoh : Coherent s)
    (hmove : AppMove s t ok now (s.frames t) f' effect es)
    (heffect : s.apply (some t) effect = some s') :
    LoggerState.Leaves { s' with frames := Function.update s'.frames t f' } := by
  have hqueue : s'.queue = s.queue := (apply_queues heffect).1
  have hworker := apply_worker heffect
  have hsettings := apply_settings heffect
  change s'.worker.Leaves s'.queue s'.flushPolicy (s'.call none)
  rw [hqueue, hworker, apply_call_other heffect (by simp)]
  have hsound := hcoh.frames t
  unfold LoggerState.Leaves at h
  generalize s.frames t = f at hmove hsound
  cases hmove with
  | initConfigure =>
    rw [WorkerPc.eq_absent (show s.worker.isAbsent = true from hsound.2.1)] at h ⊢
    exact h
  | initJoin hw | stopJoin hw =>
    rw [hw] at h
    exact h.2.2
  | initSpawn => trivial
  | _ =>
    rw [(hsettings (by simp)).2]
    exact h

omit [Fintype Tid] [DecidableEq Tid] in
/-- A removal of the worker comes back with a batch, with nothing, or with an exception. -/
theorem Coherent.popped (hcoh : Coherent s) {nf : ℤ} {timeout : Option ℤ}
    (hpc : s.worker = .popping nf timeout) {op : QueueOp (Entry Tid)}
    {r : QueueReturn (Entry Tid)} (hc : s.call none = some ⟨op, .ret r⟩) :
    (∃ batch, r = .values batch) ∨ r = .none ∨ r = .threw := by
  have hop := hcoh.op_worker hc
  have hfit := hcoh.fitting none _ hc
  rw [hpc] at hop
  cases hfit with
  | values => exact .inl ⟨_, rfl⟩
  | none => exact .inr (.inl rfl)
  | popThrew => exact .inr (.inr rfl)
  | _ => cases timeout <;> cases hop

theorem LoggerState.Leaves.work (h : s.Leaves) (hcoh : Coherent s)
    (hmove : WorkerMove host s ok now s.worker pc' effect es) (hok : ok = true)
    (hattentive : s.worker.checking = true → s.flushPolicy = .Periodic →
      s.queue.closed = true → s.queue.queue = [])
    (heffect : s.apply none effect = some s') :
    LoggerState.Leaves { s' with worker := pc' } := by
  have hqueue : s'.queue = s.queue := (apply_queues heffect).1
  have hsettings := (apply_settings heffect (hmove.onView s.view).2.2.2.2).2
  have hpopped : ∀ nf timeout, s.worker = .popping nf timeout → ∀ op r,
      s.call none = some ⟨op, .ret r⟩ → (∃ batch, r = .values batch) ∨ r = .none ∨ r = .threw :=
    fun nf timeout hpc op r => hcoh.popped hpc
  change pc'.Leaves s'.queue s'.flushPolicy (s'.call none)
  rw [hqueue, hsettings]
  unfold LoggerState.Leaves at h
  generalize s.worker = pc at hmove h hattentive hpopped
  cases hmove with
  | popBatchFor hp =>
    rw [apply_call_self heffect]
    exact ⟨by simp, fun _ => hp, by simp⟩
  | popBatch =>
    rw [apply_call_self heffect]
    exact ⟨by simp, by simp, by simp⟩
  | popThrew hc => exact absurd hc (h.1 _)
  | @tookNothing nf timeout op r hc hr hthrew =>
    rcases hpopped nf timeout rfl op r hc with ⟨batch, rfl⟩ | rfl | rfl
    · exact absurd rfl (hr batch)
    · intro hp
      cases timeout with
      | none => exact h.2.2 rfl op hc
      | some timeout => exact absurd (h.2.1 (by simp)) hp
    · exact absurd rfl hthrew
  | idleFlush hp => exact fun hne => absurd hp.1 hne
  | idle | idleFlushed | rearmIdle => exact h
  | @flush site | @flushed site => cases site <;> exact h
  | closed hclosed =>
    refine ⟨rfl, hclosed, ?_⟩
    by_cases hp : s.flushPolicy = .Periodic
    · exact hattentive rfl hp hclosed
    · exact (h hp).2
  | lastFlushed => exact h
  | reserveThrew hfail | flushThrew hfail | lastFlushThrew hfail | formatThrew _ hfail
  | writeThrew hfail => simp [hok] at hfail
  | caught | closeQueue | closing | closingFinal => exact h.elim
  | _ => trivial

section QueueSteps

variable {a : QueueAction (Entry Tid) (Option Tid)}
variable {queues : QueueState (Entry Tid) (Option Tid)} {qes : List (QueueEvent (Entry Tid))}

/-- A drained queue stays drained until it is reset. -/
theorem Outcome.drained_stays {T : Type*} {q : BlockingQueue T} {alloc : Bool} {op : QueueOp T}
    {st : Stage T} {sec : Section T} (h : Outcome q alloc op st sec) (hq : q.Drained)
    (hreset : ∀ capacity policy, op ≠ .reset capacity policy) : sec.queue.Drained := by
  obtain ⟨hclosed, hempty⟩ := hq
  cases h with
  | sleepsFull hopen | enqueued hopen | pushThrew hopen | droppedNewest hopen
  | droppedOldest hopen | abandoned hopen | timedOut hopen => simp [hclosed] at hopen
  | sleepsEmpty _ _ hopen => simp [hclosed] at hopen
  | took _ _ hne | popThrew _ _ hne => exact absurd hempty hne
  | closes => exact ⟨rfl, hempty⟩
  | resets capacity policy => exact absurd rfl (hreset capacity policy)
  | _ => exact ⟨hclosed, hempty⟩

/-- Only a push into an open queue of its own generation adds an element. -/
theorem Outcome.stays_empty {T : Type*} {q : BlockingQueue T} {alloc : Bool} {op : QueueOp T}
    {st : Stage T} {sec : Section T} (h : Outcome q alloc op st sec) (hfit : Fits op st)
    (hempty : q.queue = [])
    (hpush : ∀ g v, op = .push (some g) v → g = q.generation → q.closed = true)
    (hown : ∀ e v, op = .push e v → ∃ g, e = some g) : sec.queue.queue = [] := by
  cases h with
  | @enqueued e v st hopen _ hst =>
    obtain ⟨g, rfl⟩ := hown e v rfl
    have hg : g = q.generation := by
      rcases hst with ⟨-, hg⟩ | rfl
      · exact hg
      · cases hfit with
        | notFullWait _ hg => exact Option.some.inj (hg.resolve_left (by simp))
    simp [hpush g v rfl hg] at hopen
  | droppedOldest _ _ _ hfull | abandoned _ _ _ hfull =>
    have := q.capacity_pos
    simp [BlockingQueue.size, hempty] at hfull
    omega
  | took _ _ hne => exact absurd hempty hne
  | resets => rfl
  | _ => exact hempty

omit [Fintype Tid] [DecidableEq Tid] in
/-- Without a worker nothing gets into the queue. -/
theorem Coherent.empty_stays (hcoh : Coherent s) (habsent : s.worker = .absent)
    {who : Option Tid} {c : Call (Entry Tid)} (hc : s.call who = some c) {alloc : Bool}
    {sec : Section (Entry Tid)} (hsec : Outcome s.queue alloc c.op c.stage sec)
    (hempty : s.queue.queue = []) : sec.queue.queue = [] := by
  cases who with
  | none =>
    have hop := hcoh.op_worker hc
    rw [habsent] at hop
    cases hop
  | some t =>
    have hsound := hcoh.frames t
    have hop := Frame.queueOp_cases (hcoh.op_frame hc)
    refine hsec.stays_empty (hcoh.fitting _ _ hc) hempty ?_ ?_
    · rintro g v hpush hg
      rcases hop with ⟨g', entry, hf, hop⟩ | ⟨config, -, hop⟩ | ⟨-, hop⟩ <;> rw [hpush] at hop <;>
        cases hop
      rw [hf] at hsound
      exact (hsound.2 hg).resolve_left (by simp [LoggerState.view, habsent, WorkerPc.isAbsent])
    · rintro e v hpush
      rcases hop with ⟨g', entry, hf, hop⟩ | ⟨config, -, hop⟩ | ⟨-, hop⟩ <;> rw [hpush] at hop <;>
        cases hop
      exact ⟨g', rfl⟩

/-- A drained queue stays drained over the steps of a lifecycle. -/
theorem drained_step (hstep : s.queues.step a = some (queues, qes)) (hq : s.queue.Drained)
    (hreset : .reset ∉ qes) : queues.queue.Drained := by
  rcases step_queue hstep with ⟨heq, -⟩ | ⟨alloc, op, st, sec, hsec, heq, hes⟩
  · rw [heq]
    exact hq
  · rw [heq]
    refine hsec.drained_stays hq ?_
    rintro capacity policy rfl
    exact hreset (by simp [hes, hsec.of_reset])

/-- A removal without a timeout comes back empty-handed from a drained queue. -/
theorem LoggerState.Leaves.popping_step (hcoh : Coherent s) (hsize : 0 < s.writeBatchSize) {nf : ℤ}
    {timeout : Option ℤ} (hpc : s.worker = .popping nf timeout)
    (h : s.worker.Leaves s.queue s.flushPolicy (s.call none)) (ha : a.internal = true)
    (halloc : a.allocates = true) (hstep : s.queues.step a = some (queues, qes))
    (hreset : .reset ∉ qes) :
    s.worker.Leaves queues.queue s.flushPolicy (queues.calls none) := by
  have hop : ∀ c, s.call none = some c → s.worker.queueOp s.writeBatchSize = some c.op :=
    fun c hc => hcoh.op_worker hc
  have hsame := (internal_step hstep ha none).1
  rw [hpc] at h hop ⊢
  obtain ⟨hthrew, hpolicy, hnone⟩ := h
  refine ⟨not_threw_step hcoh.fitting hstep (fun alloc expired hrun => ?_) hthrew, hpolicy,
    fun htimeout op hc => ?_⟩
  · subst hrun
    exact halloc
  by_cases hnew : s.queues.calls none = queues.calls none
  · exact drained_step hstep (hnone htimeout op (hnew.trans hc)) hreset
  · rcases returns_cases hstep hc hnew with ⟨alloc, expired, st, sec, rfl, hsec, hst, hq⟩ |
      ⟨-, c, sig, hc, hsig⟩
    · rw [hc] at hsame
      obtain ⟨c, hcall, hcop⟩ := Option.map_eq_some_iff.mp hsame.symm
      have hbatch : op = .popBatch s.writeBatchSize := by
        have := hop c hcall
        rw [htimeout, hcop] at this
        exact (Option.some.inj this).symm
      exact drained_step hstep (hsec.drained hst (.inr ⟨_, hsize, hbatch⟩)) hreset
    · exact absurd rfl ((hcoh.fitting _ _ hc).signal_result hsig).1

theorem LoggerState.Leaves.queue_step (h : s.Leaves) (hcoh : Coherent s) (hfan : FanOut host history s)
    (ha : a.internal = true) (halloc : a.allocates = true)
    (hstep : s.queues.step a = some (queues, qes)) :
    LoggerState.Leaves { s with queues := queues } := by
  change s.worker.Leaves queues.queue s.flushPolicy (queues.calls none)
  unfold LoggerState.Leaves at h
  by_cases habsent : s.worker = .absent
  · rw [habsent] at h ⊢
    cases step_move hstep with
    | call | ret => cases ha
    | run hc hsec => exact hcoh.empty_stays habsent hc hsec h
    | notify | wake | timeout => exact h
  · have hreset : .reset ∉ qes := by
      rcases hcoh.queue_cases ha hstep with ⟨-, hw, -⟩ | ⟨hreset, -⟩ | ⟨vs, -, rfl, -⟩
      · exact absurd hw habsent
      · exact hreset
      · simp
    have hdrained : s.queue.Drained → queues.queue.Drained := (drained_step hstep · hreset)
    have hlive : s.worker.isAbsent = false := by
      revert habsent
      cases s.worker <;> simp [WorkerPc.isAbsent]
    obtain ⟨config, -, haccepted, -, hsize, -⟩ := hfan.inForce hlive
    have hpos : 0 < s.writeBatchSize := hsize ▸ config.writeBatchSize_pos haccepted
    cases hpc : s.worker with
    | popping nf timeout =>
      have hstill := LoggerState.Leaves.popping_step hcoh hpos hpc h ha halloc hstep hreset
      rwa [hpc] at hstill
    | flushing site k busy =>
      rw [hpc] at h
      cases site with
      | last => exact ⟨h.1, hdrained h.2⟩
      | idle => exact fun hp => hdrained (h hp)
      | batch => trivial
    | rearm site =>
      rw [hpc] at h
      cases site with
      | idle => exact fun hp => hdrained (h hp)
      | _ => trivial
    | _ =>
      rw [hpc] at h
      first
        | trivial
        | exact fun hp => hdrained (h hp)
        | exact ⟨h.1, hdrained h.2⟩

end QueueSteps

/-! ## Nothing is held back -/

/-- Every sink has got every batch. -/
def Complete (history : List (LoggerEvent Tid)) : Prop :=
  ∀ i < sinkCount history, batchesTo i history = takenBatches history

variable {history' : List (LoggerEvent Tid)}

omit [Fintype Tid] [DecidableEq Tid] in
theorem Complete.congr (h : Complete history) (hh : Agrees history history') :
    Complete history' := by
  unfold Complete batchesTo sinkCount
  simp only [hh.taken, hh.handed, hh.configurations]
  exact h

omit [Fintype Tid] [DecidableEq Tid] in
theorem Untouched.complete (h : Untouched history) : Complete history := by
  intro i _
  unfold batchesTo
  rw [h.1, h.2]
  rfl

omit [Fintype Tid] [DecidableEq Tid] in
theorem Delivery.complete_nil {done : List (List (Entry Tid))} {j : ℕ}
    (h : Delivery history done [] j) : Complete history := by
  intro i hi
  rw [h.handed i, h.taken, if_neg (not_le.mpr hi)]
  split_ifs <;> simp

omit [Fintype Tid] [DecidableEq Tid] in
/-- The worker leaves its loop with nothing in hand. -/
theorem WorkerMove.exits (h : WorkerMove host s ok now pc pc' effect es) (hok : ok = true)
    (hleaves : pc.Leaves s.queue s.flushPolicy (s.call none)) (hl : pc'.looping = false) :
    (∀ k, handedTo k es = []) ∧ (pc.looping = false ∨ ∃ nf, pc = .checkClosed nf) := by
  cases h with
  | reserveThrew hfail | flushThrew hfail | lastFlushThrew hfail | formatThrew _ hfail
  | writeThrew hfail => simp [hok] at hfail
  | popThrew hc => exact absurd hc (hleaves.1 _)
  | closed => exact ⟨fun _ => rfl, .inr ⟨_, rfl⟩⟩
  | @flush site | @flushed site =>
    cases site <;> first | exact ⟨fun _ => rfl, .inl rfl⟩ | cases hl
  | lastFlushed | caught | closeQueue | closing | closingFinal =>
    exact ⟨fun _ => rfl, .inl rfl⟩
  | _ => cases hl

/-- What holds of a run that nothing disturbs. -/
structure Draining (history : List (LoggerEvent Tid)) (s : LoggerState Tid) : Prop where
  leaves : s.Leaves
  complete : s.worker.looping = false → Complete history

theorem Draining.app (h : Draining history s) (hcoh : Coherent s) (hfan : FanOut host history s)
    (hmove : AppMove s t ok now (s.frames t) f' effect es)
    (heffect : s.apply (some t) effect = some s') :
    Draining (history ++ es) { s' with frames := Function.update s'.frames t f' } := by
  refine ⟨h.leaves.app hcoh hmove heffect, fun hl => ?_⟩
  change s'.worker.looping = false at hl
  have hworker := apply_worker heffect
  have hlaunch := hfan.launch_update hcoh hmove heffect t
  rw [Function.update_self] at hlaunch
  obtain ⟨-, htaken, hhanded, -⟩ := hmove.queueEvents
  rcases hmove.fanOut_cases (hcoh.frames t) with ⟨config, -, rfl, rfl, rfl, -⟩ | ⟨hconfig, hcases⟩
  · exact hlaunch.1.complete
  · have hh : Agrees history (history ++ es) := agrees_append htaken hhanded hconfig
    rcases hcases with ⟨-, rfl⟩ | rfl | ⟨rfl, habsent, -⟩ | ⟨-, hkeeps⟩
    · rw [hworker] at hl
      cases hl
    · obtain ⟨failed, hw⟩ := hmove.joins
      exact (h.complete (by rw [hw]; rfl)).congr hh
    · exact (h.complete (by rw [habsent]; rfl)).congr hh
    · rw [hworker, hkeeps] at hl
      exact (h.complete hl).congr hh

theorem Draining.work (h : Draining history s) (hcoh : Coherent s) (hfan : FanOut host history s)
    (hmove : WorkerMove host s ok now s.worker pc' effect es) (hok : ok = true)
    (hattentive : s.worker.checking = true → s.flushPolicy = .Periodic →
      s.queue.closed = true → s.queue.queue = [])
    (heffect : s.apply none effect = some s') :
    Draining (history ++ es) { s' with worker := pc' } := by
  refine ⟨h.leaves.work hcoh hmove hok hattentive heffect, fun hl => ?_⟩
  obtain ⟨-, htaken, hconfig, -⟩ := hmove.queueEvents
  obtain ⟨hhanded, hexit⟩ := hmove.exits hok h.leaves hl
  refine Complete.congr ?_ (agrees_append htaken hhanded hconfig)
  rcases hexit with hout | ⟨nf, hpc⟩
  · exact h.complete hout
  · obtain ⟨done, last, j, hd, hp⟩ := hfan.delivery
    have hlast := hp (by rw [hpc]; rfl)
    rw [hpc] at hlast
    simp only [WorkerPc.pending, Prod.mk.injEq] at hlast
    obtain ⟨rfl, -⟩ := hlast
    exact hd.complete_nil

theorem Draining.step (h : Draining history s) (hcoh : Coherent s) (hfan : FanOut host history s)
    {a : LoggerAction Tid} (hundisturbed : Undisturbed s a) (hattentive : Attentive s a)
    (hstep : s.step host a = some (s', es)) :
    Draining (es.foldl afterLoggerEvent history) s' := by
  cases loggerStep_move hstep with
  | @begin t request hidle =>
    rw [foldl_afterLoggerEvent (by split_ifs <;> simp [LoggerEvent.isReset])]
    refine ⟨h.leaves, fun hl => (h.complete hl).congr (agrees_append ?_ ?_ ?_)⟩ <;> split_ifs <;>
      simp [takenBatches, handedTo, configurations]
  | app hmove heffect =>
    rw [foldl_afterLoggerEvent hmove.queueEvents.2.2.2]
    exact h.app hcoh hfan hmove heffect
  | work hmove heffect =>
    rw [foldl_afterLoggerEvent hmove.queueEvents.2.2.2]
    exact h.work hcoh hfan hmove hundisturbed hattentive heffect
  | @queue a queues qes ha hqstep =>
    have halloc : a.allocates = true := by
      cases a <;> first | rfl | exact hundisturbed
    refine ⟨h.leaves.queue_step hcoh hfan ha halloc hqstep, fun hl => ?_⟩
    rcases hcoh.queue_cases ha hqstep with ⟨rfl, -⟩ | ⟨hreset, htaken, -⟩ | ⟨vs, -, -, -, hafter⟩
    · exact Untouched.complete ⟨rfl, fun _ => rfl⟩
    · rw [foldl_afterLoggerEvent (queue_events_isReset hreset)]
      exact (h.complete hl).congr (queue_events_agree htaken)
    · revert hl hafter
      cases s.worker <;> simp [WorkerPc.pending, WorkerPc.looping]

end CppLogger
