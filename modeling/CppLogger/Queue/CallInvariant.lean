import CppLogger.Queue.QueueSystem

/-!
# Where the threads inside the queue can be

Which stages an operation passes through, and how a step of one thread affects the
others: it can only wake them.
-/

namespace CppLogger

variable {T Tid : Type*}

/-- The stages of an operation. A push compares one generation throughout, a removal
hands out between one and `maxTaken` elements. -/
inductive Fits : QueueOp T → Stage T → Prop
  | enter (op : QueueOp T) : Fits op .enter
  | notFullWait {e v g} (asleep : Bool) (h : e = none ∨ e = some g) :
      Fits (.push e v) (.notFullWait g asleep)
  | admitted {e v r} (h : r = .Enqueued ∨ r = .DroppedOldest) :
      Fits (.push e v) (.notify (.pushed r))
  | pushed {e v} (r : QueuePushResult) : Fits (.push e v) (.ret (.pushed r))
  | pushThrew {e v} : Fits (.push e v) (.ret .threw)
  | notEmptyWait {op : QueueOp T} {n : ℕ} (asleep : Bool) (hop : op.maxTaken = some n)
      (hn : 0 < n) : Fits op (.notEmptyWait asleep)
  | took {op : QueueOp T} {n : ℕ} {vs : List T} (hop : op.maxTaken = some n) (hne : vs ≠ [])
      (hlen : vs.length ≤ n) : Fits op (.notify (.values vs))
  | values {op : QueueOp T} {n : ℕ} {vs : List T} (hop : op.maxTaken = some n) (hne : vs ≠ [])
      (hlen : vs.length ≤ n) : Fits op (.ret (.values vs))
  | none {op : QueueOp T} {n : ℕ} (hop : op.maxTaken = some n) : Fits op (.ret .none)
  | popThrew {op : QueueOp T} {n : ℕ} (hop : op.maxTaken = some n) : Fits op (.ret .threw)
  | closed : Fits .close (.notify .done)
  | closedFull : Fits .close .notifyFull
  | closeDone : Fits .close (.ret .done)
  | resetDone (capacity : ℕ) (overflowPolicy : OverflowPolicy) :
      Fits (.reset capacity overflowPolicy) (.ret .done)

/-- A batch cannot be larger than what was asked for, nor empty. -/
theorem fits_took {op : QueueOp T} {n : ℕ} {xs : List T} (hop : op.maxTaken = some n)
    (hn : 0 < n) (hne : xs ≠ []) : Fits op (.notify (.values (xs.take n))) := by
  refine .took hop ?_ (List.length_take_le n xs)
  simpa [List.take_eq_nil_iff, hne] using hn.ne'

/-- A section ends at a stage of its operation. -/
theorem Outcome.fits {q : BlockingQueue T} {alloc : Bool} {op : QueueOp T} {st : Stage T}
    {sec : Section T} (h : Outcome q alloc op st sec) (hst : Fits op st) : Fits op sec.stage := by
  cases h with
  | rejected => exact .pushed _
  | @sleepsFull e v st _ _ hwhere =>
    rcases hwhere with ⟨-, hgen, -⟩ | rfl
    · refine .notFullWait true ?_
      cases e <;> simp_all
    · cases hst with
      | notFullWait _ h => exact .notFullWait true h
  | enqueued => exact .admitted (.inl rfl)
  | pushThrew => exact .pushThrew
  | droppedNewest => exact .pushed _
  | droppedOldest => exact .admitted (.inr rfl)
  | abandoned => exact .pushThrew
  | zeroBatch hop => rcases hop with rfl | ⟨timeout, rfl⟩ <;> exact .none rfl
  | ended hop => exact .none hop
  | @took op st n hop hwhere hne =>
    refine fits_took hop ?_ hne
    rcases hwhere with ⟨-, hn⟩ | rfl
    · exact hn
    · cases hst with
      | notEmptyWait _ hop' hn => exact Option.some.inj (hop.symm.trans hop') ▸ hn
  | popThrew hop => exact .popThrew hop
  | timedOut => exact .none rfl
  | @sleepsEmpty op st n hop hwhere =>
    refine .notEmptyWait true hop ?_
    rcases hwhere with ⟨-, hn⟩ | rfl
    · exact hn
    · cases hst with
      | notEmptyWait _ hop' hn => exact Option.some.inj (hop.symm.trans hop') ▸ hn
  | closes => exact .closed
  | resets => exact .resetDone _ _

/-- Only `close` and `reset` open and close the queue, only `reset` starts a generation. -/
theorem Outcome.closed_generation {q : BlockingQueue T} {alloc : Bool} {op : QueueOp T}
    {st : Stage T} {sec : Section T} (h : Outcome q alloc op st sec) :
    (op = .close ∧ sec.queue.closed = true ∧ sec.queue.generation = q.generation) ∨
      (∃ capacity policy, op = .reset capacity policy ∧ sec.queue.closed = false ∧
        sec.queue.generation = q.generation + 1) ∨
      op ≠ .close ∧ (∀ capacity policy, op ≠ .reset capacity policy) ∧
        sec.queue.closed = q.closed ∧ sec.queue.generation = q.generation := by
  cases h with
  | closes => exact .inl ⟨rfl, rfl, rfl⟩
  | resets capacity policy => exact .inr (.inl ⟨capacity, policy, rfl, rfl, rfl⟩)
  | zeroBatch hop =>
    rcases hop with rfl | ⟨timeout, rfl⟩ <;> exact .inr (.inr ⟨by simp, by simp, rfl, rfl⟩)
  | ended hop | took hop | popThrew hop | sleepsEmpty hop =>
    refine .inr (.inr ⟨?_, ?_, rfl, rfl⟩)
    · rintro rfl
      cases hop
    · rintro capacity policy rfl
      cases hop
  | _ => exact .inr (.inr ⟨by simp, by simp, rfl, rfl⟩)

/-- A section begins before the operation has taken effect. -/
theorem Outcome.waiting {q : BlockingQueue T} {alloc : Bool} {op : QueueOp T} {st : Stage T}
    {sec : Section T} (h : Outcome q alloc op st sec) :
    st = .enter ∨ (∃ g, st = .notFullWait g false) ∨ st = .notEmptyWait false := by
  cases h with
  | rejected _ _ hst | enqueued _ _ hst | pushThrew _ _ hst =>
    rcases hst with ⟨rfl, -⟩ | rfl
    · exact .inl rfl
    · exact .inr (.inl ⟨_, rfl⟩)
  | sleepsFull _ _ hst =>
    rcases hst with ⟨rfl, -⟩ | rfl
    · exact .inl rfl
    · exact .inr (.inl ⟨_, rfl⟩)
  | ended _ hst | took _ hst | popThrew _ hst | sleepsEmpty _ hst =>
    rcases hst with ⟨rfl, -⟩ | rfl
    · exact .inl rfl
    · exact .inr (.inr rfl)
  | timedOut => exact .inr (.inr rfl)
  | _ => exact .inl rfl

theorem Outcome.not_threw {q : BlockingQueue T} {op : QueueOp T} {st : Stage T} {sec : Section T}
    (h : Outcome q true op st sec) : sec.stage ≠ .ret .threw := by
  cases h with
  | pushThrew _ _ _ halloc | abandoned _ _ _ _ halloc | popThrew _ _ _ halloc => cases halloc
  | _ => simp

/-- Elements are handed out by the sections that take them, and only there. -/
theorem Outcome.taken {q : BlockingQueue T} {alloc : Bool} {op : QueueOp T} {st : Stage T}
    {sec : Section T} (h : Outcome q alloc op st sec) :
    (∃ n, op.maxTaken = some n ∧ sec.events = [.taken (q.queue.take n)] ∧
        sec.stage = .notify (.values (q.queue.take n))) ∨
      (∀ vs, .taken vs ∉ sec.events) ∧
        ∀ vs, sec.stage ≠ .notify (.values vs) ∧ sec.stage ≠ .ret (.values vs) := by
  cases h with
  | took hop => exact .inl ⟨_, hop, rfl, rfl⟩
  | _ => exact .inr ⟨by simp, by simp⟩

theorem Outcome.of_reset {q : BlockingQueue T} {alloc : Bool} {st : Stage T} {sec : Section T}
    {capacity : ℕ} {policy : OverflowPolicy}
    (h : Outcome q alloc (.reset capacity policy) st sec) : sec.events = [.reset] := by
  cases h with
  | resets => rfl
  | zeroBatch hop => simp at hop
  | ended hop | took hop | popThrew hop | sleepsEmpty hop => cases hop

theorem Outcome.reset_events {q : BlockingQueue T} {alloc : Bool} {op : QueueOp T} {st : Stage T}
    {sec : Section T} (h : Outcome q alloc op st sec) :
    (∃ capacity policy, op = .reset capacity policy ∧ sec.events = [.reset]) ∨
      .reset ∉ sec.events := by
  cases h with
  | resets capacity policy => exact .inl ⟨capacity, policy, rfl, rfl⟩
  | _ => exact .inr (by simp)

/-- A push falls asleep on a full, open queue, in its own generation. -/
theorem Outcome.sleeps_full {q : BlockingQueue T} {alloc : Bool} {op : QueueOp T} {st : Stage T}
    {sec : Section T} {g : ℕ} (h : Outcome q alloc op st sec)
    (hst : sec.stage = .notFullWait g true) :
    sec.queue = q ∧ q.closed = false ∧ q.capacity ≤ q.size ∧ g = q.generation := by
  cases h <;> simp_all

/-- A removal falls asleep on an empty, open queue. -/
theorem Outcome.sleeps_empty {q : BlockingQueue T} {alloc : Bool} {op : QueueOp T} {st : Stage T}
    {sec : Section T} (h : Outcome q alloc op st sec) (hst : sec.stage = .notEmptyWait true) :
    sec.queue = q ∧ q.closed = false ∧ q.queue = [] := by
  cases h <;> simp_all

theorem Call.woken_op (c : Call T) : c.woken.op = c.op := by
  rcases c with ⟨op, st⟩
  cases st <;> rfl

theorem Fits.woken {c : Call T} (h : Fits c.op c.stage) : Fits c.woken.op c.woken.stage := by
  rcases c with ⟨op, st⟩
  cases h with
  | notFullWait _ h => exact .notFullWait false h
  | notEmptyWait _ hop hn => exact .notEmptyWait false hop hn
  | enter => exact .enter op
  | admitted h => exact .admitted h
  | pushed r => exact .pushed r
  | pushThrew => exact .pushThrew
  | took hop hne hlen => exact .took hop hne hlen
  | values hop hne hlen => exact .values hop hne hlen
  | none hop => exact .none hop
  | popThrew hop => exact .popThrew hop
  | closed => exact .closed
  | closedFull => exact .closedFull
  | closeDone => exact .closeDone
  | resetDone => exact .resetDone _ _

theorem Fits.signal {c : Call T} {sig : Signal} {stage : Stage T} (h : Fits c.op c.stage)
    (hsig : c.signal = some (sig, stage)) : Fits c.op stage := by
  rcases c with ⟨op, st⟩
  cases h with
  | admitted =>
    simp only [Call.signal, Option.some.injEq, Prod.mk.injEq] at hsig
    exact hsig.2 ▸ .pushed _
  | @took _ n vs hop hne hlen =>
    have hstage : stage = .ret (.values vs) := by
      cases op <;> simp_all [Call.signal, QueueOp.maxTaken]
    exact hstage ▸ .values hop hne hlen
  | closed =>
    simp only [Call.signal, Option.some.injEq, Prod.mk.injEq] at hsig
    exact hsig.2 ▸ .closedFull
  | closedFull =>
    simp only [Call.signal, Option.some.injEq, Prod.mk.injEq] at hsig
    exact hsig.2 ▸ .closeDone
  | _ => first | cases op <;> cases hsig | cases hsig

/-! ## The other threads -/

def Call.asleep (c : Call T) : Prop := ∃ cv, c.sleepsOn cv = true

theorem Call.sleepsOn_of_isTimed {c : Call T} (h : c.isTimed = true) :
    c.sleepsOn .notEmpty = true := by
  unfold Call.isTimed at h
  split at h
  · rfl
  · cases h

theorem Call.not_asleep_woken (c : Call T) : ¬ c.woken.asleep := by
  rintro ⟨cv, h⟩
  rcases c with ⟨op, st⟩
  cases cv <;> cases st <;> simp [Call.woken, Call.sleepsOn] at h

theorem sleeps_cases {cv : CondVar} {c : Option (Call T)} (h : sleeps cv c = true) :
    (∃ op, cv = .notEmpty ∧ c = some ⟨op, .notEmptyWait true⟩) ∨
      ∃ op g, cv = .notFull ∧ c = some ⟨op, .notFullWait g true⟩ := by
  rcases c with _ | ⟨op, st⟩
  · cases h
  · simp only [sleeps, Option.any_some] at h
    unfold Call.sleepsOn at h
    split at h <;> simp_all

/-- `notify_all` leaves nobody asleep on its condition variable. -/
theorem sleeps_wakeAll (cv : CondVar) (calls : Tid → Option (Call T)) (t : Tid) :
    sleeps cv (wakeAll cv calls t) = false := by
  unfold wakeAll
  split_ifs with h
  · rcases sleeps_cases h with ⟨op, rfl, hc⟩ | ⟨op, g, rfl, hc⟩ <;>
      simp [hc, sleeps, Call.woken, Call.sleepsOn]
  · simpa using h

/-- What a step of another thread does to a call: nothing, or it wakes the thread. -/
def Stirred (c c' : Option (Call T)) : Prop :=
  c' = c ∨ ∃ d, c = some d ∧ d.asleep ∧ c' = some d.woken

theorem Stirred.trans {c c' c'' : Option (Call T)} (h : Stirred c c') (h' : Stirred c' c'') :
    Stirred c c'' := by
  rcases h with rfl | ⟨d, hc, hd, hc'⟩
  · exact h'
  · rcases h' with rfl | ⟨d', hd', hasleep, -⟩
    · exact .inr ⟨d, hc, hd, hc'⟩
    · obtain rfl := Option.some.inj (hc'.symm.trans hd')
      exact absurd hasleep (Call.not_asleep_woken d)

theorem stirred_of_sleeps {cv : CondVar} {c : Option (Call T)} (h : sleeps cv c = true) :
    Stirred c (c.map Call.woken) := by
  cases c with
  | none => simp [sleeps] at h
  | some d => exact .inr ⟨d, rfl, ⟨cv, by simpa [sleeps] using h⟩, rfl⟩

theorem wakeAll_stirred (cv : CondVar) (calls : Tid → Option (Call T)) (u : Tid) :
    Stirred (calls u) (wakeAll cv calls u) := by
  unfold wakeAll
  split_ifs with h
  · exact stirred_of_sleeps h
  · exact .inl rfl

theorem notifyInside_stirred (op : QueueOp T) (calls : Tid → Option (Call T)) (u : Tid) :
    Stirred (calls u) (op.notifyInside calls u) := by
  cases op with
  | reset => exact (wakeAll_stirred .notEmpty calls u).trans (wakeAll_stirred .notFull _ u)
  | _ => exact .inl rfl

def QueueAction.actor : QueueAction T Tid → Tid
  | .call t _ | .run t _ _ | .notify t _ | .wake t | .timeout t | .ret t => t

/-- Allocations in this step succeed. -/
def QueueAction.allocates : QueueAction T Tid → Bool
  | .run _ alloc _ => alloc
  | _ => true

variable [Fintype Tid] [DecidableEq Tid]

theorem deliver_stirred {sig : Signal} {target : Option Tid}
    {calls calls' : Tid → Option (Call T)} (h : sig.deliver target calls = some calls')
    (u : Tid) : Stirred (calls u) (calls' u) := by
  cases sig with
  | all cv =>
    cases h
    exact wakeAll_stirred cv calls u
  | one cv =>
    cases target with
    | none =>
      simp only [Signal.deliver] at h
      split_ifs at h
      cases h
      exact .inl rfl
    | some v =>
      simp only [Signal.deliver] at h
      split_ifs at h with hs
      cases h
      by_cases huv : u = v
      · subst huv
        rw [Function.update_self]
        exact stirred_of_sleeps hs
      · rw [Function.update_of_ne huv]
        exact .inl rfl

variable {s s' : QueueState T Tid} {a : QueueAction T Tid} {es : List (QueueEvent T)}

/-- A step only stirs the threads that do not take it. -/
theorem step_stirred (h : s.step a = some (s', es)) {u : Tid} (hu : u ≠ a.actor) :
    Stirred (s.calls u) (s'.calls u) := by
  cases step_move h with
  | call | wake | timeout | ret =>
    simp only [QueueAction.actor] at hu
    simp only [Function.update_of_ne hu]
    exact .inl rfl
  | @run t _ _ c =>
    simp only [QueueAction.actor] at hu
    simp only [Function.update_of_ne hu]
    exact notifyInside_stirred c.op s.calls u
  | notify _ _ hcalls =>
    simp only [QueueAction.actor] at hu
    simp only [Function.update_of_ne hu]
    exact deliver_stirred hcalls u

/-- A thread found asleep was asleep before, or has just run the section that put it to
sleep. -/
theorem asleep_step (h : s.step a = some (s', es)) {u : Tid} {c : Call T}
    (hu : s'.calls u = some c) (hc : c.asleep) :
    s.calls u = some c ∨ ∃ alloc expired st, a = .run u alloc expired ∧
      s.calls u = some ⟨c.op, st⟩ ∧ Outcome s.queue alloc c.op st ⟨s'.queue, c.stage, es⟩ := by
  by_cases hactor : u = a.actor
  · obtain ⟨cv, hcv⟩ := hc
    subst hactor
    cases step_move h with
    | call op' =>
      simp only [QueueAction.actor, Function.update_self, Option.some.injEq] at hu
      subst hu
      cases cv <;> cases hcv
    | @run t alloc expired c' sec hc' hsec =>
      simp only [QueueAction.actor, Function.update_self, Option.some.injEq] at hu
      subst hu
      exact .inr ⟨alloc, expired, c'.stage, rfl, hc', hsec⟩
    | @notify t _ c' sig stage _ hc' hsig =>
      simp only [QueueAction.actor, Function.update_self, Option.some.injEq] at hu
      subst hu
      unfold Call.signal at hsig
      split at hsig <;> cases hsig <;> cases cv <;> cases hcv
    | @wake t c' | @timeout t c' =>
      simp only [QueueAction.actor, Function.update_self, Option.some.injEq] at hu
      exact absurd ⟨cv, hu ▸ hcv⟩ (Call.not_asleep_woken c')
    | ret => simp [QueueAction.actor] at hu
  · rcases step_stirred h hactor with heq | ⟨d, -, -, heq⟩
    · exact .inl (heq ▸ hu)
    · obtain rfl := Option.some.inj (heq.symm.trans hu)
      exact absurd hc (Call.not_asleep_woken d)

/-- Steps that are not the beginning or the end of an operation. -/
def QueueAction.internal : QueueAction T Tid → Bool
  | .call _ _ | .ret _ => false
  | _ => true

/-- The operation has run a section. -/
def Call.entered : Call T → Bool
  | ⟨_, .enter⟩ => false
  | _ => true

theorem Call.entered_woken (c : Call T) : c.woken.entered = c.entered := by
  rcases c with ⟨op, st⟩
  cases st <;> rfl

theorem Outcome.entered {q : BlockingQueue T} {alloc : Bool} {op : QueueOp T} {st : Stage T}
    {sec : Section T} (h : Outcome q alloc op st sec) : Call.entered ⟨op, sec.stage⟩ = true := by
  cases h <;> rfl

theorem Call.signal_cases {c : Call T} {sig : Signal} {stage : Stage T}
    (h : c.signal = some (sig, stage)) :
    (∃ e v r, c = ⟨.push e v, .notify r⟩ ∧ sig = .one .notEmpty ∧ stage = .ret r) ∨
    (∃ r, c = ⟨.pop, .notify r⟩ ∧ sig = .one .notFull ∧ stage = .ret r) ∨
    (∃ op n r, c = ⟨op, .notify r⟩ ∧ (op = .popBatch n ∨ ∃ d, op = .popBatchFor n d) ∧
      sig = .all .notFull ∧ stage = .ret r) ∨
    (∃ r, c = ⟨.close, .notify r⟩ ∧ sig = .all .notEmpty ∧ stage = .notifyFull) ∨
    c = ⟨.close, .notifyFull⟩ ∧ sig = .all .notFull ∧ stage = .ret .done := by
  unfold Call.signal at h
  split at h <;> simp_all

theorem Call.entered_signal {c : Call T} {sig : Signal} {stage : Stage T}
    (h : c.signal = some (sig, stage)) :
    c.entered = true ∧ Call.entered ⟨c.op, stage⟩ = true := by
  unfold Call.signal at h
  split at h <;> cases h <;> exact ⟨rfl, rfl⟩

/-- Between its first and its last step a call keeps its operation, and enters it by
running its first section. -/
theorem internal_step (h : s.step a = some (s', es)) (ha : a.internal = true) (u : Tid) :
    (s'.calls u).map Call.op = (s.calls u).map Call.op ∧
      ((s'.calls u).any Call.entered = (s.calls u).any Call.entered ∨
        (∃ alloc expired, a = .run u alloc expired) ∧
          (s'.calls u).any Call.entered = true) := by
  by_cases hactor : u = a.actor
  · cases step_move h with
    | call | ret => cases ha
    | @run t alloc expired c sec hc hsec =>
      simp only [QueueAction.actor] at hactor
      subst hactor
      exact ⟨by simp [hc], .inr ⟨⟨alloc, expired, rfl⟩, by simp [hsec.entered]⟩⟩
    | notify hc hsig =>
      simp only [QueueAction.actor] at hactor
      subst hactor
      obtain ⟨hold, hnew⟩ := Call.entered_signal hsig
      exact ⟨by simp [hc], .inl (by simp [hc, hold, hnew])⟩
    | wake hc | timeout hc =>
      simp only [QueueAction.actor] at hactor
      subst hactor
      exact ⟨by simp [hc, Call.woken_op], .inl (by simp [hc, Call.entered_woken])⟩
  · rcases step_stirred h hactor with heq | ⟨d, hd, -, hd'⟩
    · rw [heq]
      exact ⟨rfl, .inl rfl⟩
    · rw [hd, hd']
      exact ⟨by simp [Call.woken_op], .inl (by simp [Call.entered_woken])⟩

/-- The operation has not taken effect yet. -/
def Call.waiting : Call T → Bool
  | ⟨_, .enter⟩ | ⟨_, .notFullWait _ _⟩ | ⟨_, .notEmptyWait _⟩ => true
  | _ => false

theorem Call.waiting_of_asleep {c : Call T} (h : c.asleep) : c.waiting = true := by
  obtain ⟨cv, hcv⟩ := h
  rcases c with ⟨op, st⟩
  cases cv <;> cases st <;> first | rfl | cases hcv

/-- An operation that has taken effect has done so for good. -/
theorem internal_waiting (h : s.step a = some (s', es)) (ha : a.internal = true) (u : Tid)
    (hu : (s'.calls u).any Call.waiting = true) : (s.calls u).any Call.waiting = true := by
  by_cases hactor : u = a.actor
  · cases step_move h with
    | call | ret => cases ha
    | @run t alloc expired c sec hc hsec =>
      obtain ⟨op, st⟩ := c
      simp only [QueueAction.actor] at hactor
      subst hactor
      rw [hc]
      rcases hsec.waiting with hst | ⟨g, hst⟩ | hst <;> simp only at hst <;> subst hst <;> rfl
    | @notify t target c sig stage calls hc hsig =>
      simp only [QueueAction.actor] at hactor
      subst hactor
      simp only [Function.update_self, Option.any_some] at hu
      rcases Call.signal_cases hsig with ⟨e, v, r, rfl, -, rfl⟩ | ⟨r, rfl, -, rfl⟩ |
        ⟨op, n, r, rfl, -, -, rfl⟩ | ⟨r, rfl, -, rfl⟩ | ⟨rfl, -, rfl⟩ <;> cases hu
    | wake hc hs =>
      simp only [QueueAction.actor] at hactor
      subst hactor
      rw [hc]
      exact Call.waiting_of_asleep (hs.elim (⟨_, ·⟩) (⟨_, ·⟩))
    | timeout hc hs =>
      simp only [QueueAction.actor] at hactor
      subst hactor
      rw [hc]
      exact Call.waiting_of_asleep ⟨_, Call.sleepsOn_of_isTimed hs⟩
  · rcases step_stirred h hactor with heq | ⟨d, hd, hasleep, -⟩
    · rwa [heq] at hu
    · rw [hd]
      exact Call.waiting_of_asleep hasleep

omit [Fintype Tid] [DecidableEq Tid] in
theorem Call.waiting_woken {c : Call T} (h : c.waiting = true) : c.woken.waiting = true := by
  rcases c with ⟨op, st⟩
  cases st <;> first | rfl | cases h

/-- An operation takes effect in a section of its own. -/
theorem still_waiting (h : s.step a = some (s', es)) (ha : a.internal = true) {u : Tid}
    (hu : (s.calls u).any Call.waiting = true) :
    (∃ alloc expired, a = .run u alloc expired) ∨ (s'.calls u).any Call.waiting = true := by
  by_cases hactor : u = a.actor
  · cases step_move h with
    | call | ret => cases ha
    | @run t alloc expired =>
      simp only [QueueAction.actor] at hactor
      subst hactor
      exact .inl ⟨alloc, expired, rfl⟩
    | @notify t target c sig stage calls hc hsig =>
      simp only [QueueAction.actor] at hactor
      subst hactor
      rw [hc] at hu
      rcases Call.signal_cases hsig with ⟨e, v, r, rfl, -⟩ | ⟨r, rfl, -⟩ | ⟨op, n, r, rfl, -⟩ |
        ⟨r, rfl, -⟩ | ⟨rfl, -⟩ <;> cases hu
    | wake hc | timeout hc =>
      simp only [QueueAction.actor] at hactor
      subst hactor
      rw [hc] at hu
      exact .inr (by simpa using Call.waiting_woken (by simpa using hu))
  · rcases step_stirred h hactor with heq | ⟨d, hd, -, hd'⟩
    · exact .inr (heq ▸ hu)
    · rw [hd] at hu
      rw [hd']
      exact .inr (by simpa using Call.waiting_woken (by simpa using hu))

/-- A generation is never gone back to. -/
theorem generation_le (h : s.step a = some (s', es)) :
    s.queue.generation ≤ s'.queue.generation := by
  rcases step_queue h with ⟨hq, -⟩ | ⟨alloc, op, st, sec, hsec, hq, -⟩
  · rw [hq]
  · rw [hq]
    rcases hsec.closed_generation with ⟨-, -, hgen⟩ | ⟨-, -, -, -, hgen⟩ | ⟨-, -, -, hgen⟩ <;> omega

/-- Every thread inside the queue is at a stage of its operation. -/
def Fitting (s : QueueState T Tid) : Prop := ∀ t c, s.calls t = some c → Fits c.op c.stage

omit [Fintype Tid] [DecidableEq Tid] in
theorem fitting_initial : Fitting (QueueState.initial : QueueState T Tid) := by
  intro t c hc
  cases hc

theorem fitting_step (hs : Fitting s) (h : s.step a = some (s', es)) : Fitting s' := by
  intro u c' hu
  by_cases hactor : u = a.actor
  · cases step_move h with
    | call op hc =>
      simp only [QueueAction.actor] at hactor
      subst hactor
      simp only [Function.update_self, Option.some.injEq] at hu
      exact hu ▸ .enter op
    | run hc hsec =>
      simp only [QueueAction.actor] at hactor
      subst hactor
      simp only [Function.update_self, Option.some.injEq] at hu
      exact hu ▸ hsec.fits (hs _ _ hc)
    | notify hc hsig =>
      simp only [QueueAction.actor] at hactor
      subst hactor
      simp only [Function.update_self, Option.some.injEq] at hu
      exact hu ▸ (hs _ _ hc).signal hsig
    | wake hc | timeout hc =>
      simp only [QueueAction.actor] at hactor
      subst hactor
      simp only [Function.update_self, Option.some.injEq] at hu
      exact hu ▸ (hs _ _ hc).woken
    | ret hc =>
      simp only [QueueAction.actor] at hactor
      subst hactor
      simp at hu
  · rcases step_stirred h hactor with heq | ⟨d, hd, -, hd'⟩
    · exact hs u c' (heq ▸ hu)
    · obtain rfl := Option.some.inj (hd'.symm.trans hu)
      exact (hs u d hd).woken

/-! ## Timed waits -/

/-- A thread that has only to return is let alone. -/
theorem ret_stays (h : s.step a = some (s', es)) (ha : a.internal = true) {u : Tid}
    {op : QueueOp T} {r : QueueReturn T} (hu : s.calls u = some ⟨op, .ret r⟩) :
    s'.calls u = some ⟨op, .ret r⟩ := by
  by_cases hactor : u = a.actor
  · subst hactor
    cases step_move h with
    | call | ret => cases ha
    | run hc hsec =>
      obtain rfl := Option.some.inj (hu.symm.trans hc)
      rcases hsec.waiting with hst | ⟨g, hst⟩ | hst <;> cases hst
    | notify hc hsig =>
      obtain rfl := Option.some.inj (hu.symm.trans hc)
      simp [Call.signal] at hsig
    | wake hc hs =>
      obtain rfl := Option.some.inj (hu.symm.trans hc)
      rcases hs with hs | hs <;> cases hs
    | timeout hc hs =>
      obtain rfl := Option.some.inj (hu.symm.trans hc)
      simp [Call.isTimed] at hs
  · rcases step_stirred h hactor with heq | ⟨d, hd, ⟨cv, hasleep⟩, -⟩
    · exact heq.trans hu
    · obtain rfl := Option.some.inj (hu.symm.trans hd)
      cases cv <;> cases hasleep

/-- A wait times out only when its time is over. -/
theorem criticalSection_timedOut {q : BlockingQueue T} {alloc expired : Bool} {op : QueueOp T}
    {st : Stage T} {sec : Section T} (h : op.criticalSection st q alloc expired = some sec)
    (hout : .timedOut ∈ sec.events) :
    expired = true ∧ sec.stage = .ret .none ∧ sec.events = [.timedOut] ∧
      st = .notEmptyWait false ∧ ∃ n timeout, op = .popBatchFor n timeout := by
  have houtcome := criticalSection_outcome h
  cases houtcome with
  | timedOut hopen hempty =>
    refine ⟨?_, rfl, rfl, rfl, _, _, rfl⟩
    by_contra hexpired
    simp [QueueOp.criticalSection, BlockingQueue.waitNotEmpty, hopen, hempty, hexpired] at h
  | _ => simp at hout

theorem timedOut_step (h : s.step a = some (s', es)) (hout : .timedOut ∈ es) :
    ∃ t alloc n timeout, a = .run t alloc true ∧ es = [.timedOut] ∧
      s.calls t = some ⟨.popBatchFor n timeout, .notEmptyWait false⟩ ∧
      s'.calls t = some ⟨.popBatchFor n timeout, .ret .none⟩ := by
  cases a with
  | run t alloc expired =>
    simp only [QueueState.step, Option.bind_eq_some_iff, Option.map_eq_some_iff] at h
    obtain ⟨⟨op, st⟩, hc, sec, hsec, h⟩ := h
    cases h
    obtain ⟨rfl, hstage, hevents, rfl, n, timeout, rfl⟩ := criticalSection_timedOut hsec hout
    exact ⟨t, alloc, n, timeout, rfl, hevents, hc, by simp [hstage]⟩
  | _ =>
    have hnil : es = [] := by
      cases step_move h
      rfl
    simp [hnil] at hout
end CppLogger
