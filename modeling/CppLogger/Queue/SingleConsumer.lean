import CppLogger.Queue.Wakeups

/-!
# A queue with one consumer

The logger has one consumer, thread `none`, which removes elements in batches. For this
discipline the account of wakeups needs no counting, and it holds when allocations fail as
well: a sleeper whose predicate is true always has a notification on its way. The last
section says which threads can move at all.
-/

namespace CppLogger

variable {T Tid : Type*}

/-- Only thread `none` removes elements, and only in batches. -/
def Disciplined (_ : QueueState T (Option Tid)) : QueueAction T (Option Tid) → Prop
  | .call who op => op.maxTaken.isSome = true → who = none ∧ op ≠ .pop
  | _ => True

/-- Some call has this notification to send. -/
def Sending (sig : Signal) (calls : Tid → Option (Call T)) : Prop :=
  ∃ u, sends sig (calls u) = true

/-- A notification to all producers is on its way. -/
def SendingAllFull (calls : Tid → Option (Call T)) : Prop := ∃ u, sendsAllFull (calls u) = true

/-- Nobody sleeps on `cv`. -/
def Awake (cv : CondVar) (calls : Tid → Option (Call T)) : Prop := ∀ u, sleeps cv (calls u) = false

/-- What holds in every state of a queue with a single consumer. -/
structure Attended (s : QueueState T (Option Tid)) : Prop where
  fitting : Fitting s
  bounded : Bounded s.queue
  current : SleepersCurrent s
  consumer : ∀ t c, s.calls t = some c → c.op.maxTaken.isSome = true → t = none ∧ c.op ≠ .pop
  patient : ∀ t op g asleep, s.calls t = some ⟨op, .notFullWait g asleep⟩ →
    g ≤ s.queue.generation ∧ (g = s.queue.generation → s.queue.overflowPolicy = .Block)
  producers : ∀ t, sleeps .notFull (s.calls t) = true → SendingAllFull s.calls ∨
    s.queue.closed = false ∧ s.queue.capacity ≤ s.queue.size
  worker : sleeps .notEmpty (s.calls none) = true → Sending (.all .notEmpty) s.calls ∨
    s.queue.closed = false ∧ (s.queue.queue = [] ∨ Sending (.one .notEmpty) s.calls)

theorem Attended.initial : Attended (QueueState.initial : QueueState T (Option Tid)) where
  fitting := fitting_initial
  bounded := Nat.zero_le _
  current := by rintro t op g ⟨⟩
  consumer := by rintro t c ⟨⟩
  patient := by rintro t op g asleep ⟨⟩
  producers := by rintro t ⟨⟩
  worker := by rintro ⟨⟩

/-! ## Pending notifications -/

section Pending

variable [Fintype Tid] [DecidableEq Tid] {s s' : QueueState T Tid} {a : QueueAction T Tid}
variable {es : List (QueueEvent T)} {u : Tid} {sig : Signal}

/-- Sleepers have nothing to send. -/
theorem signal_asleep {c : Call T} (h : c.asleep) : c.signal = none := by
  obtain ⟨op, st⟩ := c
  obtain ⟨cv, hcv⟩ := h
  cases cv <;> cases st <;> first | simp | simp [Call.sleepsOn] at hcv

theorem sends_iff {c : Call T} : sends sig (some c) = true ↔ ∃ stage, c.signal = some (sig, stage) := by
  unfold sends
  cases hsig : c.signal with
  | none => simp [hsig]
  | some r => simp [hsig, Prod.ext_iff]

/-- A call that has a notification to send runs no section. -/
theorem Outcome.not_signal {q : BlockingQueue T} {alloc : Bool} {c : Call T} {sec : Section T}
    (h : Outcome q alloc c.op c.stage sec) : c.signal = none := by
  obtain ⟨op, st⟩ := c
  rcases h.waiting with hst | ⟨g, hst⟩ | hst <;> dsimp only at hst <;> subst hst <;> simp

/-- A notification stays pending until it is sent. -/
theorem sends_step (h : s.step a = some (s', es)) {c : Call T} {stage : Stage T}
    (hu : s.calls u = some c) (hsig : c.signal = some (sig, stage)) :
    s'.calls u = some c ∨ ∃ target calls, sig.deliver target s.calls = some calls ∧
      s'.calls = Function.update calls u (some ⟨c.op, stage⟩) := by
  by_cases hactor : u = a.actor
  · subst hactor
    cases step_move h with
    | call op hc => simp [QueueAction.actor, hc] at hu
    | run hc hsec =>
      obtain rfl := Option.some.inj (hc.symm.trans hu)
      simp [hsec.not_signal] at hsig
    | @notify t target c' sig' stage' calls hc hsig' hcalls =>
      obtain rfl := Option.some.inj (hc.symm.trans hu)
      cases hsig.symm.trans hsig'
      exact .inr ⟨target, calls, hcalls, rfl⟩
    | @wake t c' hc hs =>
      obtain rfl : c' = c := Option.some.inj (hc.symm.trans hu)
      simp [signal_asleep (hs.elim (⟨_, ·⟩) (⟨_, ·⟩))] at hsig
    | @timeout t c' hc hs =>
      obtain rfl : c' = c := Option.some.inj (hc.symm.trans hu)
      simp [signal_asleep ⟨_, Call.sleepsOn_of_isTimed hs⟩] at hsig
    | ret hc =>
      obtain rfl := Option.some.inj (hc.symm.trans hu)
      simp at hsig
  · rcases step_stirred h hactor with heq | ⟨d, hd, hasleep, -⟩
    · exact .inl (heq.trans hu)
    · obtain rfl := Option.some.inj (hd.symm.trans hu)
      simp [signal_asleep hasleep] at hsig

omit [Fintype Tid] in
theorem awake_update {cv : CondVar} {calls : Tid → Option (Call T)} {x : Option (Call T)}
    (h : Awake cv calls) (hx : sleeps cv x = false) : Awake cv (Function.update calls u x) := by
  intro v
  by_cases hv : v = u
  · subst hv
    rwa [Function.update_self]
  · rw [Function.update_of_ne hv]
    exact h v

theorem sleeps_signal {c : Call T} {stage : Stage T} (cv : CondVar)
    (hsig : c.signal = some (sig, stage)) : sleeps cv (some ⟨c.op, stage⟩) = false := by
  rcases Call.signal_cases hsig with ⟨e, v, r, rfl, -, rfl⟩ | ⟨r, rfl, -, rfl⟩ |
    ⟨op, n, r, rfl, -, -, rfl⟩ | ⟨r, rfl, -, rfl⟩ | ⟨rfl, -, rfl⟩ <;>
    cases cv <;> simp [sleeps, Call.sleepsOn]

/-- A pending notification to all stays pending, or nobody sleeps any more. -/
theorem sending_all_step {cv : CondVar} (h : s.step a = some (s', es))
    (hsend : Sending (.all cv) s.calls) : Sending (.all cv) s'.calls ∨ Awake cv s'.calls := by
  obtain ⟨u, hu⟩ := hsend
  cases hc : s.calls u with
  | none => simp [hc, sends] at hu
  | some c =>
    rw [hc] at hu
    obtain ⟨stage, hsig⟩ := sends_iff.mp hu
    rcases sends_step h hc hsig with hkept | ⟨target, calls, hcalls, hs'⟩
    · exact .inl ⟨u, hkept ▸ hu⟩
    · cases hcalls
      exact .inr (hs' ▸ awake_update (sleeps_wakeAll cv s.calls) (sleeps_signal cv hsig))

theorem sending_all_full_step (h : s.step a = some (s', es)) (hsend : SendingAllFull s.calls) :
    SendingAllFull s'.calls ∨ Awake .notFull s'.calls := by
  obtain ⟨u, hu⟩ := hsend
  simp only [sendsAllFull, Bool.or_eq_true] at hu
  rcases hu with hu | hu
  · refine (sending_all_step h ⟨u, hu⟩).imp_left ?_
    rintro ⟨v, hv⟩
    exact ⟨v, by simp [sendsAllFull, hv]⟩
  · -- `close` has its notification to the consumers to send first
    unfold closing at hu
    split at hu
    · rename_i r hc
      rcases sends_step h hc rfl with hkept | ⟨target, calls, -, hs'⟩
      · exact .inl ⟨u, by simp [hkept, sendsAllFull, closing]⟩
      · exact .inl ⟨u, by simp [hs', sendsAllFull, sends, Call.signal]⟩
    · cases hu

/-- A pending notification to one consumer stays pending, or finds the only one asleep. -/
theorem sending_one_step {cv : CondVar} {w : Tid} (h : s.step a = some (s', es))
    (honly : ∀ t, sleeps cv (s.calls t) = true → t = w) (hsend : Sending (.one cv) s.calls) :
    Sending (.one cv) s'.calls ∨ sleeps cv (s'.calls w) = false := by
  obtain ⟨u, hu⟩ := hsend
  cases hc : s.calls u with
  | none => simp [hc, sends] at hu
  | some c =>
    rw [hc] at hu
    obtain ⟨stage, hsig⟩ := sends_iff.mp hu
    rcases sends_step h hc hsig with hkept | ⟨target, calls, hcalls, hs'⟩
    · exact .inl ⟨u, hkept ▸ hu⟩
    · refine .inr ?_
      rw [hs']
      suffices hawake : Awake cv calls from awake_update hawake (sleeps_signal cv hsig) w
      intro v
      cases target with
      | none =>
        simp only [Signal.deliver] at hcalls
        split_ifs at hcalls with hnobody
        cases hcalls
        exact hnobody v
      | some x =>
        simp only [Signal.deliver] at hcalls
        split_ifs at hcalls with hx
        cases hcalls
        by_cases hv : v = x
        · subst hv
          rw [Function.update_self]
          rcases sleeps_cases hx with ⟨op, rfl, hcall⟩ | ⟨op, g, rfl, hcall⟩ <;>
            simp [hcall, sleeps, Call.woken, Call.sleepsOn]
        · rw [Function.update_of_ne hv]
          by_contra hsleeps
          exact hv ((honly v (by simpa using hsleeps)).trans (honly x hx).symm)

/-! ## A closed queue -/

/-- The queue is closed and nobody sleeps on `cv`. -/
def QueueState.Quiet (s : QueueState T Tid) (cv : CondVar) : Prop :=
  s.queue.closed = true ∧ Awake cv s.calls

/-- Only `reset` opens a closed queue. -/
theorem closed_step (h : s.step a = some (s', es)) (hclosed : s.queue.closed = true)
    (hreset : .reset ∉ es) : s'.queue.closed = true := by
  rcases step_queue h with ⟨hq, -⟩ | ⟨alloc, op, st, sec, hsec, hq, rfl⟩
  · exact hq ▸ hclosed
  · rw [hq]
    rcases hsec.closed_generation with ⟨-, hc, -⟩ | ⟨capacity, policy, rfl, -⟩ | ⟨-, -, hc, -⟩
    · exact hc
    · exact absurd (by simp [hsec.of_reset]) hreset
    · rw [hc, hclosed]

/-- Nobody goes to sleep in a closed queue. -/
theorem quiet_step {cv : CondVar} (h : s.step a = some (s', es)) (hquiet : s.Quiet cv)
    (hreset : .reset ∉ es) : s'.Quiet cv := by
  obtain ⟨hclosed, hawake⟩ := hquiet
  constructor
  · exact closed_step h hclosed hreset
  · intro u
    by_contra hu
    have hu : sleeps cv (s'.calls u) = true := by simpa using hu
    rcases sleeps_cases hu with ⟨op, rfl, hc⟩ | ⟨op, g, rfl, hc⟩
    · rcases asleep_step h hc ⟨.notEmpty, rfl⟩ with hold | ⟨alloc, expired, st, -, -, hsec⟩
      · simpa [hold, sleeps, Call.sleepsOn] using hawake u
      · simp [(hsec.sleeps_empty rfl).2.1] at hclosed
    · rcases asleep_step h hc ⟨.notFull, rfl⟩ with hold | ⟨alloc, expired, st, -, -, hsec⟩
      · simpa [hold, sleeps, Call.sleepsOn] using hawake u
      · simp [(hsec.sleeps_full rfl).2.1] at hclosed

/-- A sleeper is inside a push or a removal. -/
theorem Fits.asleep_cases {c : Call T} (h : Fits c.op c.stage) (hc : c.asleep) :
    (∃ e v g, c = ⟨.push e v, .notFullWait g true⟩) ∨
      c.op.maxTaken.isSome = true ∧ c.stage = .notEmptyWait true := by
  obtain ⟨op, st⟩ := c
  obtain ⟨cv, hcv⟩ := hc
  have hsleeps : sleeps cv (some ⟨op, st⟩) = true := by simpa [sleeps] using hcv
  rcases sleeps_cases hsleeps with ⟨op', -, hc⟩ | ⟨op', g, -, hc⟩ <;> cases hc
  · cases h with
    | notEmptyWait _ hop => exact .inr ⟨by simp [hop], rfl⟩
  · cases h with
    | @notFullWait e v => exact .inl ⟨e, v, g, rfl⟩

theorem Fits.not_asleep_close {c : Call T} (h : Fits c.op c.stage) (hop : c.op = .close) :
    ¬ c.asleep := by
  intro hc
  rcases h.asleep_cases hc with ⟨e, v, g, rfl⟩ | ⟨htaken, -⟩
  · cases hop
  · simp [hop, QueueOp.maxTaken] at htaken

/-- How `close` gets to its second notification, and past it. -/
theorem close_step (hfit : Fitting s) (h : s.step a = some (s', es)) {st : Stage T}
    (hu : s'.calls u = some ⟨.close, st⟩) :
    s.calls u = some ⟨.close, st⟩ ∨ st = .enter ∨ (∃ r, st = .notify r) ∨
      (st = .notifyFull ∧ (∃ r, s.calls u = some ⟨.close, .notify r⟩) ∧ Awake .notEmpty s'.calls) ∨
      s.calls u = some ⟨.close, .notifyFull⟩ ∧ Awake .notFull s'.calls := by
  by_cases hactor : u = a.actor
  · subst hactor
    cases step_move h with
    | call op =>
      simp only [QueueAction.actor, Function.update_self, Option.some.injEq, Call.mk.injEq] at hu
      exact .inr (.inl hu.2.symm)
    | @run t alloc expired c sec hc hsec =>
      simp only [QueueAction.actor, Function.update_self, Option.some.injEq, Call.mk.injEq] at hu
      obtain ⟨op, st'⟩ := c
      obtain ⟨rfl, rfl⟩ := hu
      cases hsec with
      | closes => exact .inr (.inr (.inl ⟨_, rfl⟩))
      | zeroBatch hop => simp at hop
      | ended hop | took hop | popThrew hop | sleepsEmpty hop => cases hop
    | @notify t target c sig stage calls hc hsig hcalls =>
      simp only [QueueAction.actor, Function.update_self, Option.some.injEq, Call.mk.injEq] at hu
      obtain ⟨hop, rfl⟩ := hu
      rcases Call.signal_cases hsig with ⟨e, v, r, rfl, -, -⟩ | ⟨r, rfl, -, -⟩ |
        ⟨op, n, r, rfl, hop', -, -⟩ | ⟨r, rfl, rfl, rfl⟩ | ⟨rfl, rfl, rfl⟩
      · cases hop
      · cases hop
      · dsimp only at hop
        subst hop
        simp at hop'
      · cases hcalls
        exact .inr (.inr (.inr (.inl ⟨rfl, ⟨r, hc⟩,
          awake_update (sleeps_wakeAll .notEmpty s.calls) rfl⟩)))
      · cases hcalls
        exact .inr (.inr (.inr (.inr ⟨hc, awake_update (sleeps_wakeAll .notFull s.calls) rfl⟩)))
    | @wake t c hc hs | @timeout t c hc hs =>
      simp only [QueueAction.actor, Function.update_self, Option.some.injEq] at hu
      have hop : c.op = .close := (Call.woken_op c).symm.trans (congrArg Call.op hu)
      refine absurd ?_ ((hfit t c hc).not_asleep_close hop)
      first
        | exact hs.elim (⟨_, ·⟩) (⟨_, ·⟩)
        | exact ⟨_, Call.sleepsOn_of_isTimed hs⟩
    | ret => simp [QueueAction.actor] at hu
  · rcases step_stirred h hactor with heq | ⟨d, hd, hasleep, heq⟩
    · exact .inl (heq ▸ hu)
    · have hop : d.op = .close :=
        (Call.woken_op d).symm.trans (congrArg Call.op (Option.some.inj (heq.symm.trans hu)))
      exact absurd hasleep ((hfit u d hd).not_asleep_close hop)

end Pending

/-! ## Who can move -/

/-- Steps that a thread takes of its own accord inside an operation. -/
def QueueAction.proceeds : QueueAction T Tid → Bool
  | .run _ _ _ | .notify _ _ => true
  | _ => false

section Enabled

variable [Fintype Tid] [DecidableEq Tid] {s : QueueState T Tid} {t : Tid} {c : Call T}

/-- A notification can always be sent: `notify_one` finds a sleeper, or there is none. -/
theorem can_deliver (sig : Signal) (calls : Tid → Option (Call T)) :
    ∃ target, (sig.deliver target calls).isSome = true := by
  cases sig with
  | all cv => exact ⟨none, rfl⟩
  | one cv =>
    by_cases hnobody : ∀ u, sleeps cv (calls u) = false
    · exact ⟨none, by simp [Signal.deliver, hnobody]⟩
    · push Not at hnobody
      obtain ⟨u, hu⟩ := hnobody
      exact ⟨some u, by simp [Signal.deliver, hu]⟩

theorem can_notify (hc : s.calls t = some c) (hsig : c.signal.isSome = true) :
    ∃ target, (s.step (.notify t target)).isSome = true := by
  obtain ⟨⟨sig, stage⟩, hsig⟩ := Option.isSome_iff_exists.mp hsig
  obtain ⟨target, hcalls⟩ := can_deliver sig s.calls
  exact ⟨target, by simp [QueueState.step, hc, hsig, hcalls]⟩

theorem can_run (hc : s.calls t = some c) {alloc expired : Bool}
    (hsec : (c.op.criticalSection c.stage s.queue alloc expired).isSome = true) :
    (s.step (.run t alloc expired)).isSome = true := by
  simp [QueueState.step, hc, hsec]

/-- A thread inside an operation sleeps, has only to return, or can go on. -/
theorem Fits.can_proceed (hfit : Fits c.op c.stage) (hc : s.calls t = some c) :
    c.asleep ∨ (∃ r, c.stage = .ret r) ∨
      ∃ a : QueueAction T Tid, a.proceeds = true ∧ a.actor = t ∧ (s.step a).isSome = true := by
  have hrun : (c.op.criticalSection c.stage s.queue true false).isSome = true →
      ∃ a : QueueAction T Tid, a.proceeds = true ∧ a.actor = t ∧ (s.step a).isSome = true :=
    fun hsec => ⟨.run t true false, rfl, rfl, can_run hc hsec⟩
  have hnotify : c.signal.isSome = true →
      ∃ a : QueueAction T Tid, a.proceeds = true ∧ a.actor = t ∧ (s.step a).isSome = true :=
    fun hsig => (can_notify hc hsig).elim fun target h => ⟨.notify t target, rfl, rfl, h⟩
  obtain ⟨op, st⟩ := c
  cases hfit with
  | enter => exact .inr (.inr (hrun (by cases op <;> rfl)))
  | @notFullWait e v g asleep =>
    cases asleep
    · exact .inr (.inr (hrun rfl))
    · exact .inl ⟨.notFull, rfl⟩
  | notEmptyWait asleep hop =>
    cases asleep
    · exact .inr (.inr (hrun (by cases op <;> first | rfl | cases hop)))
    · exact .inl ⟨.notEmpty, rfl⟩
  | took hop => exact .inr (.inr (hnotify (by cases op <;> first | rfl | cases hop)))
  | admitted | closed | closedFull => exact .inr (.inr (hnotify rfl))
  | _ => exact .inr (.inl ⟨_, rfl⟩)

/-- A thread that has a notification to send can move. -/
theorem Sending.can_proceed {sig : Signal} (h : Sending sig s.calls) :
    ∃ a : QueueAction T Tid, a.proceeds = true ∧ (s.step a).isSome = true := by
  obtain ⟨u, hu⟩ := h
  cases hc : s.calls u with
  | none => simp [hc, sends] at hu
  | some c =>
    rw [hc] at hu
    obtain ⟨stage, hsig⟩ := sends_iff.mp hu
    obtain ⟨target, hstep⟩ := can_notify hc (by simp [hsig])
    exact ⟨.notify u target, rfl, hstep⟩

theorem SendingAllFull.can_proceed (h : SendingAllFull s.calls) :
    ∃ a : QueueAction T Tid, a.proceeds = true ∧ (s.step a).isSome = true := by
  obtain ⟨u, hu⟩ := h
  simp only [sendsAllFull, Bool.or_eq_true] at hu
  rcases hu with hu | hu
  · exact Sending.can_proceed ⟨u, hu⟩
  · unfold closing at hu
    split at hu
    · rename_i r hc
      have hsending : Sending (.all .notEmpty) s.calls := ⟨u, by simp [hc, sends, Call.signal]⟩
      exact hsending.can_proceed
    · cases hu

end Enabled

/-! ## Steps -/

variable [Fintype Tid] [DecidableEq Tid] {s s' : QueueState T (Option Tid)}
variable {a : QueueAction T (Option Tid)} {es : List (QueueEvent T)}

omit [Fintype Tid] [DecidableEq Tid] in
theorem Attended.only_worker (h : Attended s) (t : Option Tid)
    (ht : sleeps .notEmpty (s.calls t) = true) : t = none := by
  rcases sleeps_cases ht with ⟨op, -, hc⟩ | ⟨op, g, hcv, -⟩
  · cases h.fitting t _ hc with
    | notEmptyWait _ hop => exact (h.consumer t _ hc (by simp [hop])).1
  · cases hcv

/-- The operation of a call is the one it was begun with. -/
theorem op_step (hstep : s.step a = some (s', es)) {t : Option Tid} {c : Call T}
    (hc : s'.calls t = some c) :
    (∃ d, s.calls t = some d ∧ d.op = c.op) ∨ a = .call t c.op ∧ c.stage = .enter := by
  by_cases hinternal : a.internal = true
  · have hop := (internal_step hstep hinternal t).1
    rw [hc] at hop
    obtain ⟨d, hd, hdop⟩ := Option.map_eq_some_iff.mp hop.symm
    exact .inl ⟨d, hd, hdop⟩
  · by_cases hactor : t = a.actor
    · subst hactor
      cases step_move hstep with
      | call op =>
        simp only [QueueAction.actor, Function.update_self, Option.some.injEq] at hc
        subst hc
        exact .inr ⟨rfl, rfl⟩
      | ret => simp [QueueAction.actor] at hc
      | _ => exact absurd rfl hinternal
    · rcases step_stirred hstep hactor with heq | ⟨d, hd, -, heq⟩
      · exact .inl ⟨c, heq ▸ hc, rfl⟩
      · obtain rfl := Option.some.inj (heq.symm.trans hc)
        exact .inl ⟨d, hd, (Call.woken_op d).symm⟩

/-- A push waits with the generation it was found waiting with, or has just begun to. -/
theorem notFullWait_step (hstep : s.step a = some (s', es)) {t : Option Tid} {op : QueueOp T}
    {g : ℕ} {asleep : Bool} (hc : s'.calls t = some ⟨op, .notFullWait g asleep⟩) :
    (∃ asleep', s.calls t = some ⟨op, .notFullWait g asleep'⟩) ∨
      ∃ alloc expired st, a = .run t alloc expired ∧ s.calls t = some ⟨op, st⟩ ∧
        Outcome s.queue alloc op st ⟨s'.queue, .notFullWait g true, es⟩ := by
  by_cases hactor : t = a.actor
  · subst hactor
    cases step_move hstep with
    | call => simp [QueueAction.actor] at hc
    | @run t alloc expired c sec hcall hsec =>
      obtain ⟨op', st⟩ := c
      obtain ⟨queue, stage, events⟩ := sec
      simp only [QueueAction.actor, Function.update_self, Option.some.injEq, Call.mk.injEq] at hc
      obtain ⟨rfl, rfl⟩ := hc
      cases asleep with
      | true => exact .inr ⟨alloc, expired, st, rfl, hcall, hsec⟩
      | false => cases hsec
    | @notify t target c sig stage calls hcall hsig =>
      simp only [QueueAction.actor, Function.update_self, Option.some.injEq, Call.mk.injEq] at hc
      obtain ⟨-, rfl⟩ := hc
      rcases Call.signal_cases hsig with ⟨e, v, r, -, -, h⟩ | ⟨r, -, -, h⟩ |
        ⟨op, n, r, -, -, -, h⟩ | ⟨r, -, -, h⟩ | ⟨-, -, h⟩ <;> cases h
    | @wake t c hcall | @timeout t c hcall =>
      obtain ⟨op', st⟩ := c
      simp only [QueueAction.actor, Function.update_self, Option.some.injEq] at hc
      cases st <;> simp only [Call.woken, Call.mk.injEq, Stage.notFullWait.injEq, reduceCtorEq,
        and_false] at hc
      obtain ⟨rfl, rfl, -⟩ := hc
      exact .inl ⟨_, hcall⟩
    | ret => simp [QueueAction.actor] at hc
  · rcases step_stirred hstep hactor with heq | ⟨⟨op', st⟩, hd, -, heq⟩
    · exact .inl ⟨asleep, heq ▸ hc⟩
    · rw [heq] at hc
      cases st <;> simp only [Call.woken, Option.some.injEq, Call.mk.injEq,
        Stage.notFullWait.injEq, reduceCtorEq, and_false] at hc
      obtain ⟨rfl, rfl, -⟩ := hc
      exact .inl ⟨_, hd⟩

omit [Fintype Tid] [DecidableEq Tid] in
theorem Outcome.policy {q : BlockingQueue T} {alloc : Bool} {op : QueueOp T} {st : Stage T}
    {sec : Section T} (h : Outcome q alloc op st sec) :
    sec.queue.generation = q.generation + 1 ∨
      sec.queue.generation = q.generation ∧ sec.queue.overflowPolicy = q.overflowPolicy := by
  cases h with
  | resets => exact .inl rfl
  | _ => exact .inr ⟨rfl, rfl⟩

omit [Fintype Tid] [DecidableEq Tid] in
/-- A push goes to sleep under `Block`, or goes on sleeping. -/
theorem Outcome.sleeps_patient {q q' : BlockingQueue T} {alloc : Bool} {op : QueueOp T}
    {st : Stage T} {g : ℕ} {asleep : Bool} {es : List (QueueEvent T)}
    (h : Outcome q alloc op st ⟨q', .notFullWait g asleep, es⟩) :
    q' = q ∧ g = q.generation ∧ (q.overflowPolicy = .Block ∨ st = .notFullWait g false) := by
  cases h with
  | sleepsFull _ _ hst =>
    refine ⟨rfl, rfl, ?_⟩
    rcases hst with ⟨-, -, hpolicy⟩ | hst
    · exact .inl hpolicy
    · exact .inr hst

theorem Attended.patient_step (h : Attended s) (hstep : s.step a = some (s', es)) {t : Option Tid}
    {op : QueueOp T} {g : ℕ} {asleep : Bool} (hc : s'.calls t = some ⟨op, .notFullWait g asleep⟩) :
    g ≤ s'.queue.generation ∧
      (g = s'.queue.generation → s'.queue.overflowPolicy = .Block) := by
  rcases notFullWait_step hstep hc with ⟨asleep', hold⟩ | ⟨alloc, expired, st, -, hold, hsec⟩
  · obtain ⟨hle, hblock⟩ := h.patient t op g asleep' hold
    rcases step_queue hstep with ⟨hq, -⟩ | ⟨alloc, op, st, sec, hsec, hq, -⟩
    · exact hq ▸ ⟨hle, hblock⟩
    · rw [hq]
      rcases hsec.policy with hgen | ⟨hgen, hpolicy⟩
      · exact ⟨by omega, by omega⟩
      · rw [hgen, hpolicy]
        exact ⟨hle, hblock⟩
  · obtain ⟨hq, rfl, hpolicy⟩ := hsec.sleeps_patient
    rw [hq]
    refine ⟨le_rfl, fun _ => ?_⟩
    rcases hpolicy with hpolicy | rfl
    · exact hpolicy
    · exact (h.patient t op _ false hold).2 rfl

omit [Fintype Tid] [DecidableEq Tid] in
/-- A section that leaves a full queue with room owes the producers a notification, unless
the policy lets nobody wait. -/
theorem Outcome.keeps_full {q : BlockingQueue T} {alloc : Bool} {op : QueueOp T} {st : Stage T}
    {sec : Section T} (h : Outcome q alloc op st sec) (hpop : op ≠ .pop)
    (hreset : ∀ capacity policy, op ≠ .reset capacity policy) (hpolicy : q.overflowPolicy = .Block)
    (hopen : q.closed = false) (hfull : q.capacity ≤ q.size) :
    sendsAllFull (some ⟨op, sec.stage⟩) = true ∨
      sec.queue.closed = false ∧ sec.queue.capacity ≤ sec.queue.size := by
  cases h with
  | enqueued _ hroom => omega
  | droppedOldest _ _ hp | abandoned _ _ hp => exact absurd hpolicy hp.1
  | took hop hst hne =>
    left
    cases op <;> cases hop
    · exact absurd rfl hpop
    all_goals simp [sendsAllFull, sends, Call.signal]
  | closes => exact .inl (by simp [sendsAllFull, closing])
  | resets capacity policy => exact absurd rfl (hreset capacity policy)
  | _ => exact .inr ⟨hopen, hfull⟩

/-- A producer asleep has no room, or a notification is on its way. -/
theorem Attended.producers_step (h : Attended s) (hstep : s.step a = some (s', es)) {t : Option Tid}
    (ht : sleeps .notFull (s'.calls t) = true) : SendingAllFull s'.calls ∨
      s'.queue.closed = false ∧ s'.queue.capacity ≤ s'.queue.size := by
  rcases sleeps_cases ht with ⟨op, hcv, -⟩ | ⟨op, g, -, hc⟩
  · cases hcv
  rcases asleep_step hstep hc ⟨.notFull, rfl⟩ with hold | ⟨alloc, expired, st, -, -, hsec⟩
  · have hgen := h.current t op g hold
    rcases h.producers t (by simp [hold, sleeps, Call.sleepsOn]) with hsend | ⟨hopen, hfull⟩
    · refine (sending_all_full_step hstep hsend).imp_right fun hawake => ?_
      simp [hawake t] at ht
    · cases step_move hstep with
      | @run u alloc expired c sec hcall hsec =>
        by_cases hreset : ∀ capacity policy, c.op ≠ .reset capacity policy
        · have hpop : c.op ≠ .pop := by
            intro hop
            exact (h.consumer u c hcall (by simp [hop, QueueOp.maxTaken])).2 hop
          have hpolicy := (h.patient t op g true hold).2 hgen
          refine (hsec.keeps_full hpop hreset hpolicy hopen hfull).imp_left fun hsend => ⟨u, ?_⟩
          dsimp only
          rwa [Function.update_self]
        · push Not at hreset
          obtain ⟨capacity, policy, hreset⟩ := hreset
          have hawake := reset_nobody (t := u) .notFull s.calls hreset hsec t
          exact absurd ht (by simpa using hawake)
      | _ => exact .inr ⟨hopen, hfull⟩
  · obtain ⟨hq, hopen, hfull, -⟩ := hsec.sleeps_full rfl
    dsimp only at hq
    exact .inr (hq ▸ ⟨hopen, hfull⟩)

omit [Fintype Tid] [DecidableEq Tid] in
/-- A section of another thread that adds an element owes the consumer a notification. -/
theorem Outcome.keeps_empty {q : BlockingQueue T} {alloc : Bool} {op : QueueOp T} {st : Stage T}
    {sec : Section T} (h : Outcome q alloc op st sec) (htaken : op.maxTaken = none)
    (hreset : ∀ capacity policy, op ≠ .reset capacity policy) (hopen : q.closed = false)
    {pending : Prop} (hq : q.queue = [] ∨ pending) :
    sends (.all .notEmpty) (some ⟨op, sec.stage⟩) = true ∨
      sends (.one .notEmpty) (some ⟨op, sec.stage⟩) = true ∧ sec.queue.closed = false ∨
      sec.queue.closed = false ∧ (sec.queue.queue = [] ∨ pending) := by
  cases h with
  | enqueued | droppedOldest => exact .inr (.inl ⟨by simp [sends, Call.signal], hopen⟩)
  | abandoned => exact .inr (.inr ⟨hopen, hq.imp_left fun hnil => by
      simp [BlockingQueue.evictOldest, hnil]⟩)
  | zeroBatch hop => rcases hop with rfl | ⟨timeout, rfl⟩ <;> cases htaken
  | ended hop | took hop | popThrew hop | sleepsEmpty hop => simp [htaken] at hop
  | timedOut => cases htaken
  | closes => exact .inl (by simp [sends, Call.signal])
  | resets capacity policy => exact absurd rfl (hreset capacity policy)
  | _ => exact .inr (.inr ⟨hopen, hq⟩)

/-- The consumer asleep has nothing to take, or a notification is on its way. -/
theorem Attended.worker_step (h : Attended s) (hstep : s.step a = some (s', es))
    (hw : sleeps .notEmpty (s'.calls none) = true) : Sending (.all .notEmpty) s'.calls ∨
      s'.queue.closed = false ∧ (s'.queue.queue = [] ∨ Sending (.one .notEmpty) s'.calls) := by
  rcases sleeps_cases hw with ⟨op, -, hc⟩ | ⟨op, g, hcv, -⟩
  · rcases asleep_step hstep hc ⟨.notEmpty, rfl⟩ with hold | ⟨alloc, expired, st, -, -, hsec⟩
    · rcases h.worker (by simp [hold, sleeps, Call.sleepsOn]) with hsend | ⟨hopen, hq⟩
      · refine (sending_all_step hstep hsend).imp_right fun hawake => ?_
        simp [hawake none] at hw
      · have hpending : Sending (.one .notEmpty) s.calls → Sending (.one .notEmpty) s'.calls :=
          fun hsend => (sending_one_step hstep h.only_worker hsend).resolve_right (by simp [hw])
        cases step_move hstep with
        | @run u alloc expired c sec hcall hsec =>
          by_cases hreset : ∀ capacity policy, c.op ≠ .reset capacity policy
          · have htaken : c.op.maxTaken = none := by
              by_contra htaken
              obtain ⟨rfl, -⟩ := h.consumer u c hcall (Option.isSome_iff_ne_none.mpr htaken)
              obtain rfl := Option.some.inj (hold.symm.trans hcall)
              rcases hsec.waiting with hst | ⟨g, hst⟩ | hst <;> cases hst
            rcases hsec.keeps_empty htaken hreset hopen hq with hall | ⟨hone, hopen'⟩ | ⟨hopen', hq'⟩
            · exact .inl ⟨u, by dsimp only; rwa [Function.update_self]⟩
            · exact .inr ⟨hopen', .inr ⟨u, by dsimp only; rwa [Function.update_self]⟩⟩
            · exact .inr ⟨hopen', hq'.imp_right hpending⟩
          · push Not at hreset
            obtain ⟨capacity, policy, hreset⟩ := hreset
            have hawake := reset_nobody (t := u) .notEmpty s.calls hreset hsec none
            exact absurd hw (by simpa using hawake)
        | _ => exact .inr ⟨hopen, hq.imp_right hpending⟩
    · obtain ⟨hq, hopen, hempty⟩ := hsec.sleeps_empty rfl
      dsimp only at hq
      exact .inr (hq ▸ ⟨hopen, .inl hempty⟩)
  · cases hcv

theorem Attended.step (h : Attended s) (hdisciplined : Disciplined s a)
    (hstep : s.step a = some (s', es)) : Attended s' where
  fitting := fitting_step h.fitting hstep
  bounded := by
    rcases step_queue hstep with ⟨hq, -⟩ | ⟨alloc, op, st, sec, hsec, hq, -⟩
    · exact hq ▸ h.bounded
    · exact hq ▸ hsec.bounded h.bounded
  current := sleepersCurrent_step h.current hstep
  consumer t c hc htaken := by
    rcases op_step hstep hc with ⟨d, hd, hop⟩ | ⟨rfl, -⟩
    · exact hop ▸ h.consumer t d hd (hop ▸ htaken)
    · exact hdisciplined htaken
  patient _ _ _ _ := h.patient_step hstep
  producers _ := h.producers_step hstep
  worker := h.worker_step hstep

/-- A queue with a single consumer loses no wakeup, whether allocations fail or not. -/
theorem reaches_attended
    (h : (queueSystem T (Option Tid)).Run Disciplined .initial es s) : Attended s :=
  h.stable .initial fun _ _ _ _ hs hdisciplined hstep => hs.step hdisciplined hstep

end CppLogger
