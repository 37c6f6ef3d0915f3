import CppLogger.Logger.Drain

/-!
# What `stop` leaves behind

When `stop` returns, the queue is empty, every record that was admitted and not evicted has
been handed once to every sink, and the log calls add up: each of them is delivered or
counted as dropped. All of this holds as long as the worker does not test for a closed queue
at the wrong moment.
-/

namespace CppLogger

variable {Tid : Type*} {history : List (LoggerEvent Tid)} {host : Host Tid}
variable {s s' : LoggerState Tid} {t : Tid} {f f' : Frame Tid} {es fs : List (LoggerEvent Tid)}
variable [Fintype Tid] [DecidableEq Tid]

/-! ## Runs that nothing disturbs -/

/-- A ticket that no thread has any more. -/
def LoggerState.Spent (s : LoggerState Tid) (ticket : ℕ) : Prop :=
  ticket < s.tickets ∧ ∀ t, (s.frames t).ticket ≠ some ticket

/-- What holds of a run that nothing disturbs and of its current lifecycle. -/
structure Steady (host : Host Tid) (es : List (LoggerEvent Tid)) (s : LoggerState Tid) : Prop where
  coherent : Coherent s
  fanOut : FanOut host (lifecycle es) s
  ticketed : Ticketed (lifecycle es) s
  answered : Answered (lifecycle es) s
  draining : Draining (lifecycle es) s
  spent : ∀ τ, .logReturned τ ∈ es → s.Spent τ

omit [Fintype Tid] in
theorem spent_update {τ : ℕ} (h : s.Spent τ)
    (hf : f'.ticket = none ∨ f'.ticket = (s.frames t).ticket ∨ f'.ticket = some s.tickets) (u : Tid) :
    (Function.update s.frames t f' u).ticket ≠ some τ := by
  obtain ⟨hlt, hnot⟩ := h
  by_cases hut : u = t
  · subst hut
    rw [Function.update_self]
    rcases hf with hnone | hsame | hnew
    · simp [hnone]
    · rw [hsame]
      exact hnot u
    · rw [hnew, ne_eq, Option.some.injEq]
      omega
  · rw [Function.update_of_ne hut]
    exact hnot u

/-- A spent ticket is never used again. -/
theorem spent_step {a : LoggerAction Tid} {τ : ℕ} (h : s.Spent τ)
    (hstep : s.step host a = some (s', es)) : s'.Spent τ := by
  cases loggerStep_move hstep with
  | begin request =>
    refine ⟨h.1.trans (Nat.lt_succ_self _), spent_update h ?_⟩
    rcases (Request.frame_ticket Tid request s.tickets).1 with hnone | hsome
    · exact .inl hnone
    · exact .inr (.inr hsome)
  | @app _ _ _ next _ _ s₁ hmove heffect =>
    refine ⟨(apply_tickets heffect).symm ▸ h.1, ?_⟩
    change ∀ u, (Function.update s₁.frames _ next u).ticket ≠ some τ
    rw [apply_frames heffect]
    exact spent_update h (hmove.callStep.ticket.imp_right .inl)
  | @work _ _ _ _ _ s₁ hmove heffect =>
    have htickets : s₁.tickets = s.tickets := apply_tickets heffect
    have hframes : s₁.frames = s.frames := apply_frames heffect
    exact ⟨htickets ▸ h.1, hframes ▸ h.2⟩
  | queue => exact h

/-- A log call that returns gives its ticket up. -/
theorem Ticketed.returns (h : Ticketed history s) {a : LoggerAction Tid} {τ : ℕ}
    (hstep : s.step host a = some (s', es)) (hτ : .logReturned τ ∈ es) : s'.Spent τ := by
  cases loggerStep_move hstep with
  | begin request => split_ifs at hτ <;> simp at hτ
  | @app t _ _ next _ _ s₁ hmove heffect =>
    obtain ⟨hticket, hnone⟩ := hmove.callStep.returned τ hτ
    have htickets : s₁.tickets = s.tickets := apply_tickets heffect
    refine ⟨htickets ▸ h.fresh t τ hticket, fun u hu => ?_⟩
    dsimp only at hu
    rw [apply_frames heffect] at hu
    obtain rfl := h.unique u t τ (ticket_update hmove.callStep.ticket hu) hticket
    rw [Function.update_self, hnone] at hu
    cases hu
  | work hmove => exact absurd hτ (hmove.callEvents.2 τ)
  | @queue a queues qes => exact absurd hτ ((queue_callEvents a.actor qes).2 τ)

omit [Fintype Tid] [DecidableEq Tid] in
theorem LoggerState.Leaves.not_closing (h : s.Leaves) (final : Bool) :
    s.worker ≠ .closing final := by
  intro hpc
  unfold LoggerState.Leaves at h
  rw [hpc] at h
  exact h

theorem reaches_steady
    (h : (loggerSystem host).Run (fun s a => Undisturbed s a ∧ Attentive s a) .initial es s) :
    Steady host es s := by
  refine h.invariant ⟨.initial, .initial, .initial, .initial,
    ⟨leaves_initial, fun _ => Untouched.complete ⟨rfl, fun _ => rfl⟩⟩, by simp⟩ ?_
  rintro es s a s' fs hsteady ⟨hundisturbed, hattentive⟩ hstep
  obtain ⟨hcoh, hfan, hticketed, hanswered, hdraining, hspent⟩ := hsteady
  refine ⟨hcoh.step hstep, ?_, ?_, ?_, ?_, ?_⟩
  · exact lifecycle_append es fs ▸ hfan.step hcoh hstep
  · exact lifecycle_append es fs ▸ hticketed.step hcoh hstep
  · exact lifecycle_append es fs ▸
      hanswered.step hcoh hticketed hundisturbed hdraining.leaves.not_closing hstep
  · exact lifecycle_append es fs ▸ hdraining.step hcoh hfan hundisturbed hattentive hstep
  · intro τ hτ
    rcases List.mem_append.mp hτ with hold | hnew
    · exact spent_step (hspent τ hold) hstep
    · exact hticketed.returns hstep hnew

/-- A step belongs to the current lifecycle, or begins a new one. -/
theorem Coherent.lifecycle_cases (hcoh : Coherent s) (es : List (LoggerEvent Tid))
    {a : LoggerAction Tid}
    (hstep : s.step host a = some (s', fs)) :
    lifecycle (es ++ fs) = [] ∨ lifecycle (es ++ fs) = lifecycle es ++ fs := by
  rw [lifecycle_append]
  cases loggerStep_move hstep with
  | begin request => exact .inr (foldl_afterLoggerEvent (by split_ifs <;> simp [LoggerEvent.isReset]))
  | app hmove => exact .inr (foldl_afterLoggerEvent hmove.queueEvents.2.2.2)
  | work hmove => exact .inr (foldl_afterLoggerEvent hmove.queueEvents.2.2.2)
  | queue ha hqstep =>
    rcases hcoh.queue_cases ha hqstep with ⟨rfl, -⟩ | ⟨hreset, -⟩ | ⟨vs, -, rfl, -⟩
    · exact .inl rfl
    · exact .inr (foldl_afterLoggerEvent (queue_events_isReset hreset))
    · exact .inr (foldl_afterLoggerEvent (queue_events_isReset (by simp)))

theorem passed_step {a : LoggerAction Tid} {τ : ℕ} (hstep : s.step host a = some (s', fs))
    (hτ : τ ∈ passedTickets fs) : ∃ u, (s.frames u).ticket = some τ := by
  cases loggerStep_move hstep with
  | begin request =>
    split_ifs at hτ <;> simp [passedTickets] at hτ
  | @app t _ _ _ _ _ _ hmove =>
    rcases hmove.passes with hnone | ⟨τ', heq, hticket, -⟩
    · rw [hnone] at hτ
      cases hτ
    · rw [heq, List.mem_singleton] at hτ
      exact ⟨t, hτ ▸ hticket⟩
  | work hmove =>
    rw [hmove.callEvents.1] at hτ
    cases hτ
  | @queue a queues qes =>
    rw [(queue_callEvents a.actor qes).1] at hτ
    cases hτ

/-- A `stop` that closes the queue goes on until it returns. -/
theorem closes_step {a : LoggerAction Tid} {u : Tid} (hstep : s.step host a = some (s', fs))
    (hu : (s.frames u).closes = true) : (s'.frames u).closes = true ∨ .stopReturned u ∈ fs := by
  cases loggerStep_move hstep with
  | @begin t request hidle =>
    have hne : u ≠ t := by
      rintro rfl
      rw [hidle] at hu
      cases hu
    dsimp only
    rw [Function.update_of_ne hne]
    exact .inl hu
  | @app t _ _ next _ _ s₁ hmove heffect =>
    change (Function.update s₁.frames t next u).closes = true ∨ _
    by_cases hut : u = t
    · subst hut
      rw [Function.update_self]
      exact hmove.closes hu
    · rw [Function.update_of_ne hut, apply_frames heffect]
      exact .inl hu
  | @work _ _ _ _ _ s₁ hmove heffect =>
    have hframes : s₁.frames = s.frames := apply_frames heffect
    exact .inl (hframes ▸ hu)
  | queue => exact .inl hu

theorem stopCalled_step {a : LoggerAction Tid} {mid after : List (LoggerEvent Tid)}
    (hstep : s.step host a = some (s', fs)) (hfs : fs = mid ++ .stopCalled t :: after) :
    s.frames t = .idle ∧ mid = [] ∧ after = [] := by
  have hmem : .stopCalled t ∈ fs := by simp [hfs]
  cases loggerStep_move hstep with
  | begin request hidle =>
    split_ifs at hfs hmem
    · have hlen := congrArg List.length hfs
      simp only [List.length_append, List.length_cons, List.length_nil] at hlen
      obtain rfl : mid = [] := List.length_eq_zero_iff.mp (by omega)
      obtain rfl : after = [] := List.length_eq_zero_iff.mp (by omega)
      obtain rfl := LoggerEvent.stopCalled.inj (List.cons.inj hfs).1
      exact ⟨hidle, rfl, rfl⟩
    · cases hmem
  | @app u _ _ _ _ _ _ hmove =>
    generalize s.frames u = f at hmove
    cases hmove <;> simp at hmem
  | work hmove =>
    generalize s.worker = pc at hmove
    cases hmove <;> simp at hmem
  | queue =>
    obtain ⟨e, -, he⟩ := List.mem_map.mp hmem
    cases he

/-- A call of `stop` lies in the past, or is the step. -/
theorem stopCalled_cases {a : LoggerAction Tid} {before after : List (LoggerEvent Tid)}
    (hstep : s.step host a = some (s', fs)) (hes : es ++ fs = before ++ .stopCalled t :: after) :
    (∃ after', es = before ++ .stopCalled t :: after') ∨
      before = es ∧ fs = [.stopCalled t] ∧ s.frames t = .idle := by
  rcases List.append_eq_append_iff.mp hes with ⟨mid, rfl, hfs⟩ | ⟨mid, rfl, hafter⟩
  · obtain ⟨hidle, rfl, rfl⟩ := stopCalled_step hstep hfs
    exact .inr ⟨List.append_nil es, hfs, hidle⟩
  · cases mid with
    | nil =>
      have hfs : fs = [] ++ .stopCalled t :: after := hafter.symm
      obtain ⟨hidle, -, rfl⟩ := stopCalled_step hstep hfs
      exact .inr ⟨(List.append_nil before).symm, hafter.symm, hidle⟩
    | cons e mid =>
      obtain ⟨rfl, -⟩ := List.cons.inj hafter
      exact .inl ⟨mid, rfl⟩

omit [Fintype Tid] [DecidableEq Tid] in
/-- Everything that has passed is answered once it has returned. -/
theorem Steady.answers (h : Steady host es s)
    (hreturned : ∀ τ ∈ passedTickets (lifecycle es), .logReturned τ ∈ es) :
    ∀ τ ∈ passedTickets (lifecycle es), HasAnswer (lifecycle es) s.queue.closed τ := by
  intro τ hτ
  rcases h.answered.answered τ hτ with ⟨u, hticket, -⟩ | hanswer
  · exact absurd hticket ((h.spent τ (hreturned τ hτ)).2 u)
  · exact hanswer

/-- When every log call that has passed its checks in this lifecycle had returned before
`stop` was called, then the queue answered all of them while it was open, or another
`stop` came first. -/
theorem stop_settles
    (h : (loggerSystem host).Run (fun s a => Undisturbed s a ∧ Attentive s a) .initial es s)
    {before after : List (LoggerEvent Tid)} (hes : es = before ++ .stopCalled t :: after)
    (hreturned : ∀ τ ∈ passedTickets (lifecycle es), .logReturned τ ∈ before) :
    (∃ u, .stopReturned u ∈ lifecycle es) ∨ (∃ u, u ≠ t ∧ (s.frames u).closes = true) ∨
      ∀ τ ∈ passedTickets (lifecycle es), HasAnswer (lifecycle es) false τ := by
  suffices hinv : Steady host es s ∧ ∀ before after, es = before ++ .stopCalled t :: after →
      (∀ τ ∈ passedTickets (lifecycle es), .logReturned τ ∈ before) →
      (∃ u, .stopReturned u ∈ lifecycle es) ∨ (∃ u, u ≠ t ∧ (s.frames u).closes = true) ∨
        ∀ τ ∈ passedTickets (lifecycle es), HasAnswer (lifecycle es) false τ from
    hinv.2 before after hes hreturned
  clear hes hreturned
  induction h with
  | refl => exact ⟨reaches_steady .refl, by simp⟩
  | @tail es fs s s' a hrun hp hstep ih =>
    obtain ⟨hsteady, hsettled⟩ := ih
    refine ⟨reaches_steady (.tail hrun hp hstep), fun before after hes hreturned => ?_⟩
    rcases hsteady.coherent.lifecycle_cases es hstep with hnil | hlife
    · rw [hnil]
      exact .inr (.inr (by simp [passedTickets]))
    rw [hlife] at hreturned ⊢
    have hclosing : ∀ u, u ≠ t → (s.frames u).closes = true →
        (∃ u, .stopReturned u ∈ lifecycle es ++ fs) ∨ ∃ u, u ≠ t ∧ (s'.frames u).closes = true := by
      intro u hut hu
      rcases closes_step hstep hu with hstill | hreturn
      · exact .inr ⟨u, hut, hstill⟩
      · exact .inl ⟨u, List.mem_append_right _ hreturn⟩
    rcases stopCalled_cases hstep hes with ⟨after', hpast⟩ | ⟨rfl, rfl, hidle⟩
    · have hpassed : ∀ τ ∈ passedTickets (lifecycle es ++ fs), τ ∈ passedTickets (lifecycle es) := by
        intro τ hτ
        have hτ' := hτ
        rw [passedTickets_append, List.mem_append] at hτ'
        refine hτ'.resolve_right fun hnew => ?_
        obtain ⟨u, hu⟩ := passed_step hstep hnew
        refine (hsteady.spent τ ?_).2 u hu
        rw [hpast]
        exact List.mem_append_left _ (hreturned τ hτ)
      rcases hsettled before after' hpast fun τ hτ => hreturned τ (by simp [hτ]) with
        ⟨u, hu⟩ | ⟨u, hut, hu⟩ | hanswers
      · exact .inl ⟨u, List.mem_append_left _ hu⟩
      · exact or_assoc.mp (.inl (hclosing u hut hu))
      · exact .inr (.inr fun τ hτ => (hanswers τ (hpassed τ hτ)).mono subset_append_left id)
    · have hpassed : passedTickets (lifecycle before ++ [.stopCalled t]) =
          passedTickets (lifecycle before) := by simp [passedTickets]
      rw [hpassed] at hreturned ⊢
      have hanswers := hsteady.answers hreturned
      cases hclosed : s.queue.closed with
      | false =>
        rw [hclosed] at hanswers
        exact .inr (.inr fun τ hτ => (hanswers τ hτ).mono subset_append_left id)
      | true =>
        rcases hsteady.answered.closers hclosed with ⟨u, hu⟩ | ⟨u, hu⟩ | ⟨-, -, hnone⟩
        · exact .inl ⟨u, List.mem_append_left _ hu⟩
        · refine or_assoc.mp (.inl (hclosing u ?_ hu))
          rintro rfl
          rw [hidle] at hu
          cases hu
        · exact .inr (.inr (by simp [hnone]))

/-! ## Counting -/

section Counting

variable {T : Type*}

/-- The values of the pushes that found the queue open. -/
def acceptedValues (es : List (QueueEvent T)) : List T :=
  es.filterMap fun
    | .pushed v r => if r = .Closed then none else some v
    | _ => none

theorem mem_acceptedValues {es : List (QueueEvent T)} {x : T} :
    x ∈ acceptedValues es ↔ ∃ r, .pushed x r ∈ es ∧ r ≠ .Closed := by
  constructor
  · intro h
    obtain ⟨e, he, hx⟩ := List.mem_filterMap.mp h
    rcases e with ⟨v, r⟩ | _ | _ | _ | _ | _ | _ | _ | _
    case pushed =>
      dsimp only at hx
      split_ifs at hx with hr
      cases hx
      exact ⟨r, he, hr⟩
    all_goals cases hx
  · rintro ⟨r, he, hr⟩
    exact List.mem_filterMap.mpr ⟨_, he, by simp [hr]⟩

theorem accepted_sublist (es : List (QueueEvent T)) :
    (acceptedValues es).Sublist (pushedValues es) := by
  induction es with
  | nil => exact List.Sublist.refl _
  | cons e es ih =>
    rcases e with ⟨v, r⟩ | _ | _ | _ | _ | _ | _ | _ | _ <;> try cases r
    case pushed.Closed => exact ih.cons v
    case pushed.Enqueued | pushed.DroppedOldest | pushed.DroppedNewest => exact ih.cons_cons v
    all_goals exact ih

@[simp] theorem acceptedValues_append (es fs : List (QueueEvent T)) :
    acceptedValues (es ++ fs) = acceptedValues es ++ acceptedValues fs := List.filterMap_append

theorem length_by_result (e : QueueEvent T) :
    (acceptedValues [e]).length =
        results .Enqueued [e] + results .DroppedNewest [e] + results .DroppedOldest [e] ∧
      (admitted [e]).length = results .Enqueued [e] + results .DroppedOldest [e] := by
  rcases e with ⟨v, r⟩ | _ | _ | _ | _ | _ | _ | _ | _ <;> try cases r
  all_goals exact ⟨rfl, rfl⟩

/-- Each result is counted once. -/
theorem lengths_by_result (es : List (QueueEvent T)) :
    (acceptedValues es).length =
        results .Enqueued es + results .DroppedNewest es + results .DroppedOldest es ∧
      (admitted es).length = results .Enqueued es + results .DroppedOldest es := by
  induction es with
  | nil => exact ⟨rfl, rfl⟩
  | cons e es ih =>
    obtain ⟨haccepted, hadmitted⟩ := ih
    obtain ⟨haccepted', hadmitted'⟩ := length_by_result e
    rw [← List.singleton_append]
    simp only [acceptedValues_append, admitted_append, results_append, List.length_append]
    omega

end Counting

omit [Fintype Tid] [DecidableEq Tid] in
/-- What has left the queue was evicted or taken. -/
theorem removed_perm (history : List (LoggerEvent Tid)) :
    (removed (queueEvents history)).Perm
      (evicted (queueEvents history) ++ (takenBatches history).flatten) := by
  induction history with
  | nil => exact List.Perm.refl _
  | cons e history ih =>
    rcases e with _ | _ | _ | _ | _ | _ | _ | _ | _ | _ | _ | _ | _ | ⟨who, qe⟩
    case queue =>
      cases qe with
      | taken vs => exact (ih.append_left vs).trans (List.perm_append_comm_assoc _ _ _)
      | evicted vs =>
        have := ih.append_left vs
        rw [← List.append_assoc] at this
        exact this
      | _ => exact ih
    all_goals exact ih

omit [Fintype Tid] [DecidableEq Tid] in
theorem Ticketed.nodup (h : Ticketed history s) {xs : List (Entry Tid)}
    (hxs : xs.Sublist (pushedValues (queueEvents history))) : (xs.map Entry.ticket).Nodup := by
  refine List.pairwise_map.mpr ((h.ordered.sublist hxs).imp ?_)
  exact fun hne => hne.1

omit [Fintype Tid] [DecidableEq Tid] in
/-- The calls that have passed and been answered by an open queue are those whose push
found it open. -/
theorem Ticketed.passed_length (h : Ticketed history s)
    (hanswers : ∀ τ ∈ passedTickets history, HasAnswer history false τ) :
    (passedTickets history).length = (acceptedValues (queueEvents history)).length := by
  have hperm : (passedTickets history).Perm
      ((acceptedValues (queueEvents history)).map Entry.ticket) := by
    refine (List.perm_ext_iff_of_nodup h.passedOnce (h.nodup (accepted_sublist _))).mpr
      fun τ => ⟨fun hτ => ?_, fun hτ => ?_⟩
    · obtain ⟨entry, r, hpushed, rfl, hr⟩ := hanswers τ hτ
      exact List.mem_map_of_mem (mem_acceptedValues.mpr ⟨r, hpushed, by rintro rfl; simp at hr⟩)
    · obtain ⟨entry, hentry, rfl⟩ := List.mem_map.mp hτ
      obtain ⟨r, hpushed, hr⟩ := mem_acceptedValues.mp hentry
      obtain ⟨-, minLevel, hpassed, -⟩ := h.accepted entry r hpushed hr
      exact List.mem_filterMap.mpr ⟨_, hpassed, rfl⟩
  rw [hperm.length_eq, List.length_map]

omit [Fintype Tid] [DecidableEq Tid] in
/-- Once the queue is empty: what was admitted has been evicted or taken. -/
theorem admitted_perm (hacc : Accounted (queueEvents history) s.queue)
    (hempty : s.queue.queue = []) :
    (admitted (queueEvents history)).Perm
      (evicted (queueEvents history) ++ (takenBatches history).flatten) := by
  have hall : removed (queueEvents history) = admitted (queueEvents history) := by
    have := hacc.conserved
    rwa [hempty, List.append_nil] at this
  rw [← hall]
  exact removed_perm history

/-- Where `stop` returns from: no worker, and a closed queue. -/
theorem stopReturned_step {a : LoggerAction Tid} (hcoh : Coherent s)
    (hstep : s.step host a = some (s', fs)) (hret : .stopReturned t ∈ fs) :
    s.worker = .absent ∧ s'.queue = s.queue ∧ ∀ u, (s.frames u).closes = true → u = t := by
  cases loggerStep_move hstep with
  | begin request => split_ifs at hret <;> simp at hret
  | @app u _ _ next _ _ s₁ hmove heffect =>
    have hqueue : s₁.queue = s.queue := (apply_queues heffect).1
    have hsound := hcoh.frames u
    have hexclusion := hcoh.exclusion u
    generalize hf : s.frames u = f at hmove hsound hexclusion
    cases hmove <;> simp at hret
    subst hret
    refine ⟨WorkerPc.eq_absent hsound.2.1, hqueue, fun v hv => ?_⟩
    by_contra hne
    have := (hexclusion v (Ne.symm hne) rfl).1
    revert hv this
    cases s.frames v <;> simp [Frame.closes, Frame.exclusive]
  | work hmove =>
    generalize s.worker = pc at hmove
    cases hmove <;> simp at hret
  | queue =>
    obtain ⟨e, -, he⟩ := List.mem_map.mp hret
    cases he

/-- Draining on `stop`. In every run without exceptions in which the worker never tests for a
closed queue while a `Periodic` one is closed and not empty: when a `stop` returns, the queue
is empty and every record admitted in this lifecycle and not evicted has been handed exactly
once to every sink. If no other `stop` has returned in this lifecycle, and every log call
that has passed its checks had returned before this one was called, the number of these
calls is the number of delivered records plus the dropped ones. -/
theorem drain_on_stop
    (h : (loggerSystem host).Run (fun s a => Undisturbed s a ∧ Attentive s a) .initial es s)
    {a : LoggerAction Tid} (hstep : s.step host a = some (s', fs))
    (hret : .stopReturned t ∈ fs) :
    let history := lifecycle es
    s'.queue.queue = [] ∧
    (∀ entry ∈ admitted (queueEvents history), entry ∉ evicted (queueEvents history) →
      ∀ i < sinkCount history, (batchesTo i history).flatten.count entry = 1) ∧
    ∀ before after, es = before ++ .stopCalled t :: after →
      (∀ u, .stopReturned u ∉ history) →
      (∀ τ ∈ passedTickets history, .logReturned τ ∈ before) →
      ∀ i < sinkCount history, ∃ dropped,
        (passedTickets history).length = (batchesTo i history).flatten.length + dropped ∧
        s'.queue.droppedCount = word64 dropped := by
  have hsteady := reaches_steady h
  have hacc := lifecycle_accounted h
  obtain ⟨habsent, hqueue, honly⟩ := stopReturned_step hsteady.coherent hstep hret
  have hempty : s.queue.queue = [] := by
    have hleaves := hsteady.draining.leaves
    unfold LoggerState.Leaves at hleaves
    rwa [habsent] at hleaves
  have hcomplete : Complete (lifecycle es) :=
    hsteady.draining.complete (by rw [habsent]; rfl)
  have hperm := admitted_perm hacc hempty
  refine ⟨by rw [hqueue, hempty], fun entry hentry hkept i hi => ?_, ?_⟩
  · have hnodup : (admitted (queueEvents (lifecycle es))).Nodup :=
      (hsteady.ticketed.nodup (admitted_sublist _)).of_map Entry.ticket
    have hcount := hperm.count_eq entry
    rw [List.count_append, List.count_eq_one_of_mem hnodup hentry,
      List.count_eq_zero_of_not_mem hkept, Nat.zero_add] at hcount
    rw [hcomplete i hi, ← hcount]
  · intro before after hes hfirst hreturned i hi
    have hanswers : ∀ τ ∈ passedTickets (lifecycle es), HasAnswer (lifecycle es) false τ := by
      rcases stop_settles h hes hreturned with ⟨u, hu⟩ | ⟨u, hut, hu⟩ | hanswers
      · exact absurd hu (hfirst u)
      · exact absurd (honly u hu) hut
      · exact hanswers
    refine ⟨losses (queueEvents (lifecycle es)), ?_, by rw [hqueue, hacc.dropped]⟩
    obtain ⟨haccepted, hadmitted⟩ := lengths_by_result (queueEvents (lifecycle es))
    have hlength := hperm.length_eq
    have hevictions := hacc.evictions
    rw [List.length_append] at hlength
    rw [hsteady.ticketed.passed_length hanswers, hcomplete i hi]
    unfold losses
    omega

/-- A record comes in, `stop` closes the queue, and the worker drains it. -/
def drainSchedule : List (LoggerAction TwoThreads) :=
  initSchedule .first oneSink ++ logSchedule .second ++ pushSchedule .second ++
    .begin .first .stop :: List.replicate 3 (.app .first true 0) ++
    [.queue (.run (some .first) true false), .queue (.notify (some .first) none),
      .queue (.notify (some .first) none), .app .first true 0, .work true 0, .work true 0,
      .queue (.run none true false), .queue (.notify none none)] ++
    List.replicate 8 (.work true 0) ++ .queue (.run none true false) ::
    List.replicate 6 (.work true 0) ++ List.replicate 2 (.app .first true 0)

theorem drain_on_stop_one :
    ∃ es s s' fs entry, (loggerSystem epochHost).Reaches .initial es s ∧
      s.step epochHost (.app .first true 0) = some (s', fs) ∧ s'.queue.queue = [] ∧
      entry ∈ admitted (queueEvents (lifecycle es)) ∧
      (batchesTo 0 (lifecycle es)).flatten.count entry = 1 := by
  obtain ⟨es, s, s', fs, entry, hrun, hstep, hret, hadmitted, hkept, hsinks⟩ :
      ∃ es s s' fs entry,
        (loggerSystem epochHost).Run (fun s a => Undisturbed s a ∧ Attentive s a) .initial es s ∧
        s.step epochHost (.app .first true 0) = some (s', fs) ∧ .stopReturned .first ∈ fs ∧
        admitted (queueEvents (lifecycle es)) = [entry] ∧
        evicted (queueEvents (lifecycle es)) = [] ∧ sinkCount (lifecycle es) = 1 :=
    ⟨_, _, _, _, _, .of_schedule drainSchedule (by decide), (Option.some_get (by decide)).symm,
      by decide, rfl, by decide, by decide⟩
  have hmem : entry ∈ admitted (queueEvents (lifecycle es)) := by simp [hadmitted]
  obtain ⟨hempty, honce, -⟩ := drain_on_stop hrun hstep hret
  exact ⟨es, s, s', fs, entry, hrun.reaches, hstep, hempty, hmem,
    honce entry hmem (by simp [hkept]) 0 (by omega)⟩

/-- The worker's wait times out on an empty queue; before it looks again, a record comes in
and `stop` closes the queue. -/
def lateSchedule : List (LoggerAction TwoThreads) :=
  initSchedule .first oneSink ++
    [.work true 0, .work true 0, .queue (.run none true false), .queue (.timeout none),
      .queue (.run none true true), .work true 0, .work true 0] ++
    logSchedule .second ++ pushSchedule .second ++
    .begin .first .stop :: List.replicate 3 (.app .first true 0) ++
    [.queue (.run (some .first) true false), .queue (.notify (some .first) none),
      .queue (.notify (some .first) none), .app .first true 0] ++
    List.replicate 4 (.work true 0) ++ List.replicate 2 (.app .first true 0)

/-- Under `Periodic` a record can be lost: nothing throws, `stop` returns, and the record is
still in the queue. -/
theorem late_record_lost :
    ∃ es s s' fs, (loggerSystem epochHost).Run Undisturbed .initial es s ∧
      s.step epochHost (.app .first true 0) = some (s', fs) ∧ .stopReturned .first ∈ fs ∧
      s'.queue.queue ≠ [] ∧ admitted (queueEvents (lifecycle es)) = s'.queue.queue ∧
      batchesTo 0 (lifecycle es) = [] ∧ (passedTickets (lifecycle es)).length = 1 ∧
      s'.queue.droppedCount = 0 :=
  ⟨_, _, _, _, .of_schedule lateSchedule (by decide), (Option.some_get (by decide)).symm,
    by decide, by decide, by decide, by decide, by decide, by decide⟩

end CppLogger
