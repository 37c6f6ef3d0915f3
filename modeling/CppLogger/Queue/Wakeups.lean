import CppLogger.Foundation.Census
import CppLogger.Queue.CallInvariant

/-!
# No lost wakeups

A sleeping thread whose predicate has become true must have a notification on its way.
`notify_one` makes this a matter of counting: among the threads competing for an element
(or a free slot) there are at least as many awake waiters and pending notifications as
there are elements (or slots) to hand out.
-/

namespace CppLogger

variable {T Tid : Type*}

/-! ## What is counted -/

/-- A consumer that was woken and has not yet looked at the queue again. -/
def awakeConsumer : Option (Call T) → Bool
  | some ⟨_, .notEmptyWait false⟩ => true
  | _ => false

/-- A producer of generation `g` that was woken and has not yet looked at the queue. -/
def awakeProducer (g : ℕ) : Option (Call T) → Bool
  | some ⟨_, .notFullWait expected false⟩ => decide (expected = g)
  | _ => false

/-- The call still has this notification to send. -/
def sends (sig : Signal) (c : Option (Call T)) : Bool :=
  c.any fun d => decide (d.signal.map Prod.fst = some sig)

/-- Close has not yet come to its second notification. -/
def closing : Option (Call T) → Bool
  | some ⟨.close, .notify _⟩ => true
  | _ => false

/-- A `notify_all` on `notFull_` is on its way, at once or after that on `notEmpty_`. -/
def sendsAllFull (c : Option (Call T)) : Bool := sends (.all .notFull) c || closing c

variable [Fintype Tid] [DecidableEq Tid]

/-- Some thread sleeps on `cv` only while a notification to all is on its way, or while
`open_` holds and there are enough awake waiters and single notifications for `supply`. -/
def Served (cv : CondVar) (awake all : Option (Call T) → Bool) (open_ : Prop) (supply : ℕ)
    (calls : Tid → Option (Call T)) : Prop :=
  0 < census (sleeps cv) calls →
    0 < census all calls ∨
      open_ ∧ supply ≤ census awake calls + census (sends (.one cv)) calls

/-- A sleeping consumer has nothing to take, or is about to be woken. -/
def ConsumersServed (q : BlockingQueue T) (calls : Tid → Option (Call T)) : Prop :=
  Served .notEmpty awakeConsumer (sends (.all .notEmpty)) (q.closed = false) q.size calls

/-- A sleeping producer has no room, or is about to be woken. -/
def ProducersServed (q : BlockingQueue T) (calls : Tid → Option (Call T)) : Prop :=
  Served .notFull (awakeProducer q.generation) sendsAllFull (q.closed = false)
    (q.capacity - q.size) calls

/-- Producers asleep in `pushLocked` belong to the current generation. -/
def SleepersCurrent (s : QueueState T Tid) : Prop :=
  ∀ t op g, s.calls t = some ⟨op, .notFullWait g true⟩ → g = s.queue.generation

/-! ## Sections -/

section Sections

variable {q : BlockingQueue T} {op : QueueOp T} {st : Stage T} {sec : Section T}

theorem size_evict_emplace (v : T) (hfull : q.capacity ≤ q.size) :
    (q.evictOldest.emplaceLocked v).size = q.size := by
  have hcap := q.capacity_pos
  simp only [BlockingQueue.size] at hfull
  simp only [BlockingQueue.size, BlockingQueue.evictOldest, BlockingQueue.emplaceLocked_queue,
    List.length_append, List.length_tail, List.length_singleton]
  omega

theorem size_takeFront_lt {n : ℕ} (hn : 0 < n) (hne : q.queue ≠ []) :
    (q.takeFront n).queue.size < q.size := by
  have hlen := List.length_pos_of_ne_nil hne
  simp only [BlockingQueue.size, BlockingQueue.takeFront, List.length_drop]
  omega

theorem Fits.maxTaken_pos {n : ℕ} (hfit : Fits op st) (hop : op.maxTaken = some n)
    (hst : st = .enter ∧ 0 < n ∨ st = .notEmptyWait false) : 0 < n := by
  rcases hst with ⟨-, hn⟩ | rfl
  · exact hn
  · cases hfit with
    | notEmptyWait _ hop' hn => exact Option.some.inj (hop.symm.trans hop') ▸ hn

section Signal

variable (op)

@[simp] theorem signal_enter : (⟨op, .enter⟩ : Call T).signal = none := by cases op <;> rfl

@[simp] theorem signal_notEmptyWait (asleep : Bool) :
    (⟨op, .notEmptyWait asleep⟩ : Call T).signal = none := by cases op <;> rfl

@[simp] theorem signal_notFullWait (g : ℕ) (asleep : Bool) :
    (⟨op, .notFullWait g asleep⟩ : Call T).signal = none := by cases op <;> rfl

@[simp] theorem signal_ret (r : QueueReturn T) : (⟨op, .ret r⟩ : Call T).signal = none := by
  cases op <;> rfl

/-- While it looks at the queue, a consumer has nothing to send and competes for no slot. -/
theorem taking_counts {n : ℕ} (hst : st = .enter ∧ 0 < n ∨ st = .notEmptyWait false) :
    (∀ cv, sleeps cv (some ⟨op, st⟩) = false) ∧ (∀ sig, sends sig (some ⟨op, st⟩) = false) ∧
      (∀ g, awakeProducer g (some ⟨op, st⟩) = false) ∧ sendsAllFull (some ⟨op, st⟩) = false := by
  rcases hst with ⟨rfl, -⟩ | rfl <;>
    refine ⟨fun cv => ?_, fun sig => ?_, fun g => rfl, ?_⟩ <;>
    first | (cases cv <;> rfl) | (cases op <;> rfl)

end Signal

/-- A consumer that has taken elements competes for nothing any more. -/
theorem took_counts {n : ℕ} (hop : op.maxTaken = some n) (r : QueueReturn T) :
    (∀ cv, sleeps cv (some ⟨op, .notify r⟩) = false) ∧
      awakeConsumer (some ⟨op, .notify r⟩) = false ∧
      (∀ g, awakeProducer g (some ⟨op, .notify r⟩) = false) ∧
      sends (.one .notEmpty) (some ⟨op, .notify r⟩) = false ∧
      sends (.all .notEmpty) (some ⟨op, .notify r⟩) = false := by
  refine ⟨fun cv => by cases cv <;> rfl, rfl, fun g => rfl, ?_, ?_⟩ <;>
    cases op <;> cases hop <;> rfl

/-- It tells one producer of one free slot, or all of them. -/
theorem took_signals {n : ℕ} (hop : op.maxTaken = some n) (r : QueueReturn T) :
    n = 1 ∧ sends (.one .notFull) (some ⟨op, .notify r⟩) = true ∨
      sendsAllFull (some ⟨op, .notify r⟩) = true := by
  cases op <;> cases hop
  · exact .inl ⟨rfl, rfl⟩
  · exact .inr rfl
  · exact .inr rfl

/-- Counting the consumers over a section: `σ` sleep, `α` are awake, `o` and `l` are the
pending calls of `notify_one` and `notify_all`. -/
theorem Outcome.consumersServed (hsec : Outcome q true op st sec) (hfit : Fits op st)
    (hop : ∀ capacity policy, op ≠ .reset capacity policy) {σ α o l σ' α' o' l' : ℕ}
    (hσ : σ' + (sleeps .notEmpty (some ⟨op, st⟩)).toNat =
      σ + (sleeps .notEmpty (some ⟨op, sec.stage⟩)).toNat)
    (hα : α' + (awakeConsumer (some ⟨op, st⟩)).toNat =
      α + (awakeConsumer (some ⟨op, sec.stage⟩)).toNat)
    (ho : o' + (sends (.one .notEmpty) (some ⟨op, st⟩)).toNat =
      o + (sends (.one .notEmpty) (some ⟨op, sec.stage⟩)).toNat)
    (hl : l' + (sends (.all .notEmpty) (some ⟨op, st⟩)).toNat =
      l + (sends (.all .notEmpty) (some ⟨op, sec.stage⟩)).toNat)
    (h : 0 < σ → 0 < l ∨ q.closed = false ∧ q.size ≤ α + o) :
    0 < σ' → 0 < l' ∨ sec.queue.closed = false ∧ sec.queue.size ≤ α' + o' := by
  cases hsec with
  | rejected _ _ hst | sleepsFull _ _ hst =>
    rcases hst with ⟨rfl, -⟩ | rfl <;>
      simp [sleeps, Call.sleepsOn, awakeConsumer, sends] at hσ hα ho hl <;>
      subst_vars <;> exact h
  | enqueued hopen _ hst =>
    rcases hst with ⟨rfl, -⟩ | rfl <;>
      simp [sleeps, Call.sleepsOn, awakeConsumer, sends, Call.signal] at hσ hα ho hl <;>
      simp [hopen] at h ⊢ <;> omega
  | droppedNewest =>
    simp [sleeps, Call.sleepsOn, awakeConsumer, sends] at hσ hα ho hl
    subst_vars
    exact h
  | droppedOldest hopen _ _ hfull =>
    simp [sleeps, Call.sleepsOn, awakeConsumer, sends, Call.signal] at hσ hα ho hl
    rw [size_evict_emplace _ hfull]
    simp [hopen, BlockingQueue.evictOldest] at h ⊢
    omega
  | pushThrew _ _ _ halloc | abandoned _ _ _ _ halloc | popThrew _ _ _ halloc => cases halloc
  | zeroBatch =>
    simp [sleeps, Call.sleepsOn, awakeConsumer, sends] at hσ hα ho hl
    subst_vars
    exact h
  | ended _ hst hclosed hempty =>
    rcases hst with ⟨rfl, -⟩ | rfl <;>
      simp [sleeps, Call.sleepsOn, awakeConsumer, sends] at hσ hα ho hl <;>
      simp [hclosed] at h ⊢ <;> omega
  | @took _ _ n hop hst hne =>
    have hlt := size_takeFront_lt (hfit.maxTaken_pos hop hst) hne
    obtain ⟨hasleep, hquiet, -⟩ := taking_counts op hst
    obtain ⟨hasleep', hawake', -, hone', hall'⟩ := took_counts hop (.values (q.queue.take n))
    have hbefore := (awakeConsumer (some ⟨op, st⟩)).toNat_le
    rw [BlockingQueue.takeFront_stage, hasleep, hasleep'] at hσ
    rw [BlockingQueue.takeFront_stage, hawake', Bool.toNat_false] at hα
    rw [BlockingQueue.takeFront_stage, hquiet, hone'] at ho
    rw [BlockingQueue.takeFront_stage, hquiet, hall'] at hl
    intro hpos
    rcases h (by omega) with hmore | ⟨hopen, hle⟩
    · exact .inl (by omega)
    · exact .inr ⟨hopen, by omega⟩
  | timedOut hopen hempty =>
    simp [sleeps, Call.sleepsOn, awakeConsumer, sends] at hσ hα ho hl
    simp [hopen, BlockingQueue.size, hempty]
  | sleepsEmpty _ _ hopen hempty => simp [hopen, BlockingQueue.size, hempty]
  | closes =>
    simp [sends, Call.signal] at hl
    omega
  | resets capacity policy => exact absurd rfl (hop capacity policy)

/-- Counting the producers over a section, as for the consumers. -/
theorem Outcome.producersServed (hsec : Outcome q true op st sec) (hfit : Fits op st)
    (hop : ∀ capacity policy, op ≠ .reset capacity policy) {σ α o l σ' α' o' l' : ℕ}
    (hσ : σ' + (sleeps .notFull (some ⟨op, st⟩)).toNat =
      σ + (sleeps .notFull (some ⟨op, sec.stage⟩)).toNat)
    (hα : α' + (awakeProducer q.generation (some ⟨op, st⟩)).toNat =
      α + (awakeProducer q.generation (some ⟨op, sec.stage⟩)).toNat)
    (ho : o' + (sends (.one .notFull) (some ⟨op, st⟩)).toNat =
      o + (sends (.one .notFull) (some ⟨op, sec.stage⟩)).toNat)
    (hl : l' + (sendsAllFull (some ⟨op, st⟩)).toNat =
      l + (sendsAllFull (some ⟨op, sec.stage⟩)).toNat)
    (h : 0 < σ → 0 < l ∨ q.closed = false ∧ q.capacity - q.size ≤ α + o) :
    0 < σ' → 0 < l' ∨ sec.queue.closed = false ∧
      sec.queue.capacity - sec.queue.size ≤ α' + o' := by
  cases hsec with
  | rejected expected hout hst =>
    rcases hst with ⟨rfl, -⟩ | rfl <;>
      simp [sleeps, Call.sleepsOn, awakeProducer, sends, sendsAllFull, closing] at hσ hα ho hl
    · subst_vars; exact h
    · by_cases hgen : expected = q.generation
      · simp [hgen] at hout hα
        simp [hout] at h ⊢
        omega
      · simp [hgen] at hα
        subst_vars; exact h
  | sleepsFull hopen hfull =>
    intro _
    exact .inr ⟨hopen, by dsimp only; omega⟩
  | enqueued hopen _ hst =>
    rcases hst with ⟨rfl, -⟩ | rfl <;>
      simp [sleeps, Call.sleepsOn, awakeProducer, sends, sendsAllFull, closing, Call.signal]
        at hσ hα ho hl <;>
      simp [hopen] at h ⊢ <;> omega
  | droppedNewest =>
    simp [sleeps, Call.sleepsOn, awakeProducer, sends, sendsAllFull, closing] at hσ hα ho hl
    subst_vars
    exact h
  | droppedOldest hopen _ _ hfull =>
    intro _
    rw [size_evict_emplace _ hfull]
    exact .inr ⟨hopen, by simp [BlockingQueue.evictOldest]; omega⟩
  | pushThrew _ _ _ halloc | abandoned _ _ _ _ halloc | popThrew _ _ _ halloc => cases halloc
  | zeroBatch =>
    simp [sleeps, Call.sleepsOn, awakeProducer, sends, sendsAllFull, closing] at hσ hα ho hl
    subst_vars
    exact h
  | ended _ hst | sleepsEmpty _ hst =>
    rcases hst with ⟨rfl, -⟩ | rfl <;>
      simp [sleeps, Call.sleepsOn, awakeProducer, sends, sendsAllFull, closing] at hσ hα ho hl <;>
      subst_vars <;> exact h
  | @took _ _ n hop hst hne =>
    obtain ⟨hasleep, hquiet, hawake, hall⟩ := taking_counts op hst
    obtain ⟨hasleep', -, hawake', -⟩ := took_counts hop (.values (q.queue.take n))
    rw [BlockingQueue.takeFront_stage, hasleep, hasleep'] at hσ
    rw [BlockingQueue.takeFront_stage, hawake, hawake'] at hα
    rw [BlockingQueue.takeFront_stage, hquiet, Bool.toNat_false] at ho
    rw [BlockingQueue.takeFront_stage, hall, Bool.toNat_false] at hl
    intro hpos
    rcases took_signals hop (.values (q.queue.take n)) with ⟨rfl, hone'⟩ | hall'
    · rw [hone', Bool.toNat_true] at ho
      rcases h (by omega) with hmore | ⟨hopen, hle⟩
      · exact .inl (by omega)
      · refine .inr ⟨hopen, ?_⟩
        simp only [BlockingQueue.takeFront, BlockingQueue.size, List.length_drop] at hle ⊢
        omega
    · rw [hall', Bool.toNat_true] at hl
      exact .inl (by omega)
  | timedOut =>
    simp [sleeps, Call.sleepsOn, awakeProducer, sends, sendsAllFull, closing] at hσ hα ho hl
    subst_vars
    exact h
  | closes =>
    simp [sends, sendsAllFull, closing, Call.signal] at hl
    omega
  | resets capacity policy => exact absurd rfl (hop capacity policy)

end Sections

/-! ## Steps -/

section Served

variable {cv cv' : CondVar} {awake all : Option (Call T) → Bool} {open_ : Prop} {supply : ℕ}
variable {calls : Tid → Option (Call T)}

omit [DecidableEq Tid] in
theorem Served.of_nobody (h : ∀ t, sleeps cv (calls t) = false) :
    Served cv awake all open_ supply calls := by
  intro hpos
  rw [census_eq_zero.mpr h] at hpos
  exact absurd hpos (lt_irrefl 0)

/-- A thread that does not fall asleep moves from `calls t` to `x`; what it adds to the
awake waiters and the single notifications is what the supply may grow by. -/
theorem Served.update {supply' : ℕ} (h : Served cv awake all open_ supply calls) (t : Tid)
    (x : Option (Call T)) (hsleep : (sleeps cv x).toNat ≤ (sleeps cv (calls t)).toNat)
    (hall : (all (calls t)).toNat ≤ (all x).toNat)
    (hone : supply' + (awake (calls t)).toNat + (sends (.one cv) (calls t)).toNat ≤
      supply + (awake x).toNat + (sends (.one cv) x).toNat) :
    Served cv awake all open_ supply' (Function.update calls t x) := by
  have hσ := census_update (sleeps cv) calls t x
  have hα := census_update awake calls t x
  have ho := census_update (sends (.one cv)) calls t x
  have hl := census_update all calls t x
  intro hpos
  rcases h (by omega) with hlt | ⟨hopen, hle⟩
  · exact .inl (by omega)
  · exact .inr ⟨hopen, by omega⟩

omit [DecidableEq Tid] in
theorem census_wakeAll {p : Option (Call T) → Bool}
    (hp : ∀ c, sleeps cv' c = true → p (c.map Call.woken) = p c) :
    census p (wakeAll cv' calls) = census p calls := by
  refine census_congr fun t => ?_
  unfold wakeAll
  split_ifs with h
  · exact hp _ h
  · rfl

omit [DecidableEq Tid] in
/-- `notify_all` on the other condition variable does not concern the waiters. -/
theorem Served.wakeAll (h : Served cv awake all open_ supply calls) (hne : cv' ≠ cv)
    (hawake : ∀ c, sleeps cv' c = true → awake (c.map Call.woken) = awake c)
    (hall : ∀ c, sleeps cv' c = true → all (c.map Call.woken) = all c) :
    Served cv awake all open_ supply (wakeAll cv' calls) := by
  have hsleep : ∀ c : Option (Call T), sleeps cv' c = true →
      sleeps cv (c.map Call.woken) = sleeps cv c := by
    intro c hc
    rcases sleeps_cases hc with ⟨op, rfl, rfl⟩ | ⟨op, g, rfl, rfl⟩ <;> cases cv <;>
      simp_all [sleeps, Call.woken, Call.sleepsOn]
  have hsends : ∀ c : Option (Call T), sleeps cv' c = true →
      sends (.one cv) (c.map Call.woken) = sends (.one cv) c := by
    intro c hc
    rcases sleeps_cases hc with ⟨op, rfl, rfl⟩ | ⟨op, g, rfl, rfl⟩ <;>
      simp [sends, Call.woken]
  unfold Served
  rw [census_wakeAll hsleep, census_wakeAll hall, census_wakeAll hawake, census_wakeAll hsends]
  exact h

/-- How the awake and the notifying calls of a condition variable may be counted: waking a
sleeper makes it an awake waiter of its own condition variable and changes nothing else;
an idle call counts nowhere; a call gives up a notification to all only by sending it. -/
structure Counts (cv : CondVar) (awake all : Option (Call T) → Bool)
    (calls : Tid → Option (Call T)) : Prop where
  idle : ∀ op r c, c = none ∨ c = some ⟨op, .enter⟩ ∨ c = some ⟨op, .ret r⟩ →
    awake c = false ∧ all c = false
  sending : ∀ c sig stage, c.signal = some (sig, stage) → sig ≠ .all cv →
    awake (some c) = false ∧ (all (some c)).toNat ≤ (all (some ⟨c.op, stage⟩)).toNat
  asleep : ∀ cv' u, sleeps cv' (calls u) = true → awake (calls u) = false ∧ all (calls u) = false
  woken : ∀ u, sleeps cv (calls u) = true → awake ((calls u).map Call.woken) = true
  other : ∀ cv' c, cv' ≠ cv → sleeps cv' c = true → awake (c.map Call.woken) = awake c
  all : ∀ cv' c, sleeps cv' c = true → all (c.map Call.woken) = all c

theorem sends_of_sleeps {c : Option (Call T)} (sig : Signal) (h : sleeps cv' c = true) :
    sends sig c = false ∧ sends sig (c.map Call.woken) = false := by
  rcases sleeps_cases h with ⟨op, -, rfl⟩ | ⟨op, g, -, rfl⟩ <;> simp [sends, Call.woken]

theorem sleeps_ne {c : Option (Call T)} (hne : cv' ≠ cv) (h : sleeps cv' c = true) :
    sleeps cv c = false ∧ sleeps cv (c.map Call.woken) = false := by
  rcases sleeps_cases h with ⟨op, rfl, rfl⟩ | ⟨op, g, rfl, rfl⟩ <;> cases cv <;>
    simp_all [sleeps, Call.woken, Call.sleepsOn]

/-- A sleeper wakes: on `cv` it is from now on counted as an awake waiter. -/
theorem Served.wake (h : Served cv awake all open_ supply calls)
    (hcounts : Counts cv awake all calls) {u : Tid} (hu : sleeps cv' (calls u) = true) :
    Served cv awake all open_ (supply + (decide (cv' = cv)).toNat)
      (Function.update calls u ((calls u).map Call.woken)) := by
  refine h.update u _ ?_ (by rw [hcounts.all cv' _ hu]) ?_
  · by_cases hcv : cv' = cv
    · subst hcv
      simp [hu, Bool.toNat_le]
    · simp [sleeps_ne hcv hu]
  · rw [(sends_of_sleeps _ hu).1, (sends_of_sleeps _ hu).2]
    by_cases hcv : cv' = cv
    · subst hcv
      simp [hcounts.asleep cv' u hu, hcounts.woken u hu]
    · simp [hcv, hcounts.other cv' _ hcv hu]

omit [DecidableEq Tid] in
theorem Served.mono {supply' : ℕ} (h : Served cv awake all open_ supply calls)
    (hle : supply' ≤ supply) : Served cv awake all open_ supply' calls :=
  fun hpos => (h hpos).imp_right fun ⟨hopen, hs⟩ => ⟨hopen, hle.trans hs⟩

/-- A notification that arrives leaves nobody asleep on `cv`, or has made one of the
sleepers an awake waiter, or concerns the other condition variable. -/
theorem Served.deliver (h : Served cv awake all open_ supply calls)
    (hcounts : Counts cv awake all calls) {sig : Signal} {target : Option Tid}
    {calls' : Tid → Option (Call T)} (hcalls : sig.deliver target calls = some calls') :
    (∀ u, sleeps cv (calls' u) = false) ∨
      sig ≠ .all cv ∧
        Served cv awake all open_ (supply + (decide (sig = .one cv)).toNat) calls' := by
  cases sig with
  | all cv' =>
    cases hcalls
    by_cases hcv : cv' = cv
    · subst hcv
      exact .inl (sleeps_wakeAll cv' calls)
    · exact .inr ⟨by simpa using hcv, by
        simpa using h.wakeAll hcv (hcounts.other cv' · hcv) (hcounts.all cv')⟩
  | one cv' =>
    cases target with
    | none =>
      simp only [Signal.deliver] at hcalls
      split_ifs at hcalls with hnobody
      cases hcalls
      by_cases hcv : cv' = cv
      · subst hcv
        exact .inl hnobody
      · exact .inr ⟨by simp, by simpa [hcv] using h⟩
    | some u =>
      simp only [Signal.deliver] at hcalls
      split_ifs at hcalls with hu
      cases hcalls
      refine .inr ⟨by simp, ?_⟩
      simpa using h.wake hcounts hu

end Served

variable {s s' : QueueState T Tid} {a : QueueAction T Tid} {es : List (QueueEvent T)}

theorem signal_actor {t : Tid} {c : Call T} {sig sig' : Signal} {stage : Stage T}
    {target : Option Tid} {calls : Tid → Option (Call T)} (hc : s.calls t = some c)
    (hsig : c.signal = some (sig, stage)) (hcalls : sig'.deliver target s.calls = some calls) :
    calls t = some c := by
  rcases deliver_stirred hcalls t with heq | ⟨d, hd, ⟨cv, hcv⟩, -⟩
  · rw [heq, hc]
  · obtain rfl := Option.some.inj (hc.symm.trans hd)
    have hsleeps : sleeps cv (some c) = true := by simpa [sleeps] using hcv
    have hsends := (sends_of_sleeps sig hsleeps).1
    simp [sends, hsig] at hsends

/-- Only sections can leave the waiters of a condition variable unserved. -/
theorem Served.step {cv : CondVar} {awake all : Option (Call T) → Bool} {open_ : Prop}
    {supply : ℕ} (h : Served cv awake all open_ supply s.calls)
    (hcounts : Counts cv awake all s.calls) (hstep : s.step a = some (s', es))
    (ha : ∀ t alloc expired, a ≠ .run t alloc expired) :
    Served cv awake all open_ supply s'.calls := by
  have hwake : ∀ {t : Tid} {c : Call T} {cv' : CondVar}, s.calls t = some c →
      c.sleepsOn cv' = true →
      Served cv awake all open_ supply (Function.update s.calls t (some c.woken)) := by
    intro t c cv' hc hs
    have hs' : sleeps cv' (s.calls t) = true := by simpa [sleeps, hc] using hs
    have hw := (h.wake hcounts hs').mono (Nat.le_add_right _ _)
    rwa [hc] at hw
  cases step_move hstep with
  | @call t op hc =>
    have hold := hcounts.idle op .none none (.inl rfl)
    have hnew := hcounts.idle op .none (some ⟨op, .enter⟩) (.inr (.inl rfl))
    exact h.update t _ (by simp [sleeps, Call.sleepsOn]) (by simp [hc, hold])
      (by simp [hc, hold, hnew, sends])
  | @run t alloc expired => exact absurd rfl (ha t alloc expired)
  | @notify t target c sig stage calls hc hsig hcalls =>
    have hstage : sleeps cv (some ⟨c.op, stage⟩) = false ∧
        sends (.one cv) (some ⟨c.op, stage⟩) = false ∧
        sends (.one cv) (some c) = decide (sig = .one cv) := by
      rcases Call.signal_cases hsig with ⟨e, v, r, rfl, rfl, rfl⟩ | ⟨r, rfl, rfl, rfl⟩ |
        ⟨op, n, r, rfl, rfl | ⟨d, rfl⟩, rfl, rfl⟩ | ⟨r, rfl, rfl, rfl⟩ | ⟨rfl, rfl, rfl⟩ <;>
        simp [sleeps, Call.sleepsOn, sends, Call.signal]
    rcases h.deliver hcounts hcalls with hnobody | ⟨hne, hserved⟩
    · refine Served.of_nobody fun u => ?_
      by_cases hu : u = t
      · subst hu
        simpa using hstage.1
      · simpa [Function.update_of_ne hu] using hnobody u
    · obtain ⟨hawake, hall⟩ := hcounts.sending c sig stage hsig hne
      refine hserved.update t _ ?_ ?_ ?_ <;> rw [signal_actor hc hsig hcalls]
      · simp [hstage.1]
      · exact hall
      · rw [hstage.2.2, hawake, Bool.toNat_false]
        omega
  | wake hc hs => exact hs.elim (hwake hc) (hwake hc)
  | timeout hc hs => exact hwake hc (Call.sleepsOn_of_isTimed hs)
  | @ret t op r hc =>
    have hold := hcounts.idle op r (some ⟨op, .ret r⟩) (.inr (.inr rfl))
    have hnew := hcounts.idle op r none (.inl rfl)
    exact h.update t none (by simp [sleeps]) (by simp [hc, hold])
      (by simp [hc, hold, hnew, sends])

omit [Fintype Tid] [DecidableEq Tid] in
theorem QueueOp.notifyInside_of_ne {op : QueueOp T} (calls : Tid → Option (Call T))
    (hop : ∀ capacity policy, op ≠ .reset capacity policy) : op.notifyInside calls = calls := by
  cases op with
  | reset capacity policy => exact absurd rfl (hop capacity policy)
  | _ => rfl

omit [Fintype Tid] in
/-- After `reset` nobody sleeps. -/
theorem reset_nobody {t : Tid} {c : Call T} {sec : Section T} {capacity : ℕ}
    {policy : OverflowPolicy} {q : BlockingQueue T} {alloc : Bool} (cv : CondVar)
    (calls : Tid → Option (Call T)) (hop : c.op = .reset capacity policy)
    (hsec : Outcome q alloc c.op c.stage sec) (u : Tid) :
    sleeps cv (Function.update (c.op.notifyInside calls) t (some ⟨c.op, sec.stage⟩) u) = false := by
  obtain ⟨op, st⟩ := c
  obtain rfl : op = .reset capacity policy := hop
  by_cases hu : u = t
  · subst hu
    cases hsec <;> simp_all [sleeps, Call.sleepsOn, QueueOp.maxTaken]
  · rw [Function.update_of_ne hu]
    cases cv with
    | notFull => exact sleeps_wakeAll .notFull _ u
    | notEmpty =>
      rcases wakeAll_stirred .notFull (wakeAll .notEmpty calls) u with heq | ⟨d, -, -, heq⟩
      · change sleeps .notEmpty (wakeAll .notFull (wakeAll .notEmpty calls) u) = false
        rw [heq]
        exact sleeps_wakeAll .notEmpty calls u
      · change sleeps .notEmpty (wakeAll .notFull (wakeAll .notEmpty calls) u) = false
        rw [heq]
        simpa [sleeps, Call.asleep] using fun h => Call.not_asleep_woken d ⟨.notEmpty, h⟩

omit [Fintype Tid] [DecidableEq Tid] in
theorem counts_consumers (calls : Tid → Option (Call T)) :
    Counts .notEmpty awakeConsumer (sends (.all .notEmpty)) calls where
  idle op r c hc := by rcases hc with rfl | rfl | rfl <;> simp [awakeConsumer, sends]
  sending c sig stage hsig hne := by
    rcases Call.signal_cases hsig with ⟨e, v, r, rfl, rfl, rfl⟩ | ⟨r, rfl, rfl, rfl⟩ |
      ⟨op, n, r, rfl, rfl | ⟨d, rfl⟩, rfl, rfl⟩ | ⟨r, rfl, rfl, rfl⟩ | ⟨rfl, rfl, rfl⟩ <;>
      simp_all [awakeConsumer, sends, Call.signal]
  asleep cv' u hu := by
    rcases sleeps_cases hu with ⟨op, -, hc⟩ | ⟨op, g, -, hc⟩ <;> simp [hc, awakeConsumer, sends]
  woken u hu := by
    rcases sleeps_cases hu with ⟨op, -, hc⟩ | ⟨op, g, hcv, -⟩
    · simp [hc, awakeConsumer, Call.woken]
    · cases hcv
  other cv' c hne hc := by
    rcases sleeps_cases hc with ⟨op, rfl, -⟩ | ⟨op, g, -, rfl⟩
    · exact absurd rfl hne
    · rfl
  all cv' c hc := by rw [(sends_of_sleeps _ hc).1, (sends_of_sleeps _ hc).2]

omit [Fintype Tid] [DecidableEq Tid] in
theorem counts_producers (hcurrent : SleepersCurrent s) :
    Counts .notFull (awakeProducer s.queue.generation) sendsAllFull s.calls where
  idle op r c hc := by
    rcases hc with rfl | rfl | rfl <;> simp [awakeProducer, sendsAllFull, closing, sends]
  sending c sig stage hsig hne := by
    rcases Call.signal_cases hsig with ⟨e, v, r, rfl, rfl, rfl⟩ | ⟨r, rfl, rfl, rfl⟩ |
      ⟨op, n, r, rfl, rfl | ⟨d, rfl⟩, rfl, rfl⟩ | ⟨r, rfl, rfl, rfl⟩ | ⟨rfl, rfl, rfl⟩ <;>
      simp_all [awakeProducer, sendsAllFull, closing, sends, Call.signal]
  asleep cv' u hu := by
    rcases sleeps_cases hu with ⟨op, -, hc⟩ | ⟨op, g, -, hc⟩ <;>
      simp [hc, awakeProducer, sendsAllFull, closing, sends]
  woken u hu := by
    rcases sleeps_cases hu with ⟨op, hcv, -⟩ | ⟨op, g, -, hc⟩
    · cases hcv
    · simp [hc, awakeProducer, Call.woken, hcurrent u op g hc]
  other cv' c hne hc := by
    rcases sleeps_cases hc with ⟨op, -, rfl⟩ | ⟨op, g, rfl, -⟩
    · rfl
    · exact absurd rfl hne
  all cv' c hc := by
    have hclosing : closing c = false ∧ closing (c.map Call.woken) = false := by
      rcases sleeps_cases hc with ⟨op, -, rfl⟩ | ⟨op, g, -, rfl⟩ <;> simp [closing, Call.woken]
    simp only [sendsAllFull, hclosing, (sends_of_sleeps _ hc).1, (sends_of_sleeps _ hc).2]

theorem Outcome.generation {q : BlockingQueue T} {alloc : Bool} {op : QueueOp T} {st : Stage T}
    {sec : Section T} (hsec : Outcome q alloc op st sec)
    (hop : ∀ capacity policy, op ≠ .reset capacity policy) :
    sec.queue.generation = q.generation := by
  cases hsec with
  | resets capacity policy => exact absurd rfl (hop capacity policy)
  | _ => rfl

theorem consumersServed_step (hfit : Fitting s) (h : ConsumersServed s.queue s.calls)
    (halloc : a.allocates = true) (hstep : s.step a = some (s', es)) :
    ConsumersServed s'.queue s'.calls := by
  cases step_move hstep with
  | @run t alloc expired c sec hc hsec =>
    obtain rfl : alloc = true := halloc
    by_cases hop : ∀ capacity policy, c.op ≠ .reset capacity policy
    · rw [QueueOp.notifyInside_of_ne _ hop]
      have hσ := census_update (sleeps .notEmpty) s.calls t (some ⟨c.op, sec.stage⟩)
      have hα := census_update awakeConsumer s.calls t (some ⟨c.op, sec.stage⟩)
      have ho := census_update (sends (.one .notEmpty)) s.calls t (some ⟨c.op, sec.stage⟩)
      have hl := census_update (sends (.all .notEmpty)) s.calls t (some ⟨c.op, sec.stage⟩)
      rw [hc] at hσ hα ho hl
      exact hsec.consumersServed (hfit t c hc) hop hσ hα ho hl h
    · push Not at hop
      obtain ⟨capacity, policy, hop⟩ := hop
      exact .of_nobody (reset_nobody .notEmpty s.calls hop hsec)
  | _ => exact Served.step h (counts_consumers s.calls) hstep (by simp)

theorem producersServed_step (hfit : Fitting s) (hcurrent : SleepersCurrent s)
    (h : ProducersServed s.queue s.calls) (halloc : a.allocates = true)
    (hstep : s.step a = some (s', es)) : ProducersServed s'.queue s'.calls := by
  cases step_move hstep with
  | @run t alloc expired c sec hc hsec =>
    obtain rfl : alloc = true := halloc
    by_cases hop : ∀ capacity policy, c.op ≠ .reset capacity policy
    · unfold ProducersServed
      rw [QueueOp.notifyInside_of_ne _ hop, hsec.generation hop]
      have hσ := census_update (sleeps .notFull) s.calls t (some ⟨c.op, sec.stage⟩)
      have hα := census_update (awakeProducer s.queue.generation) s.calls t
        (some ⟨c.op, sec.stage⟩)
      have ho := census_update (sends (.one .notFull)) s.calls t (some ⟨c.op, sec.stage⟩)
      have hl := census_update sendsAllFull s.calls t (some ⟨c.op, sec.stage⟩)
      rw [hc] at hσ hα ho hl
      exact hsec.producersServed (hfit t c hc) hop hσ hα ho hl h
    · push Not at hop
      obtain ⟨capacity, policy, hop⟩ := hop
      exact .of_nobody (reset_nobody .notFull s.calls hop hsec)
  | _ => exact Served.step h (counts_producers hcurrent) hstep (by simp)

theorem sleepersCurrent_step (h : SleepersCurrent s) (hstep : s.step a = some (s', es)) :
    SleepersCurrent s' := by
  intro u op g hu
  rcases asleep_step hstep hu ⟨.notFull, rfl⟩ with hold | ⟨alloc, expired, st, -, -, hsec⟩
  · have hg := h u op g hold
    cases step_move hstep with
    | @run t alloc expired c sec hc hsec =>
      by_cases hop : ∀ capacity policy, c.op ≠ .reset capacity policy
      · rw [hg]
        exact (hsec.generation hop).symm
      · push Not at hop
        obtain ⟨capacity, policy, hop⟩ := hop
        have hawake := reset_nobody (t := t) .notFull s.calls hop hsec u
        exact absurd hawake (by simpa [sleeps, Call.sleepsOn] using congrArg (sleeps .notFull) hu)
    | _ => exact hg
  · obtain ⟨hq, -, -, hg⟩ := hsec.sleeps_full rfl
    dsimp only at hq
    rw [hq]
    exact hg

/-- The contents never exceed the capacity. -/
def Bounded (q : BlockingQueue T) : Prop := q.size ≤ q.capacity

theorem Outcome.bounded {q : BlockingQueue T} {alloc : Bool} {op : QueueOp T} {st : Stage T}
    {sec : Section T} (hsec : Outcome q alloc op st sec) (h : Bounded q) : Bounded sec.queue := by
  unfold Bounded at *
  cases hsec with
  | enqueued _ hroom => simpa using hroom
  | droppedOldest _ _ _ hfull =>
    rw [size_evict_emplace _ hfull]
    exact h
  | abandoned | took =>
    simp only [BlockingQueue.size, BlockingQueue.evictOldest, BlockingQueue.takeFront,
      List.length_tail, List.length_drop] at h ⊢
    omega
  | resets => exact Nat.zero_le _
  | _ => exact h

/-! ## Whole runs -/

/-- What holds in every state of a run whose allocations succeed. -/
structure NoLostWakeup (s : QueueState T Tid) : Prop where
  fitting : Fitting s
  bounded : Bounded s.queue
  current : SleepersCurrent s
  consumers : ConsumersServed s.queue s.calls
  producers : ProducersServed s.queue s.calls

omit [DecidableEq Tid] in
theorem NoLostWakeup.initial : NoLostWakeup (QueueState.initial : QueueState T Tid) where
  fitting := fitting_initial
  bounded := Nat.zero_le _
  current := by rintro t op g ⟨⟩
  consumers := .of_nobody fun _ => rfl
  producers := .of_nobody fun _ => rfl

theorem NoLostWakeup.step (h : NoLostWakeup s) (halloc : a.allocates = true)
    (hstep : s.step a = some (s', es)) : NoLostWakeup s' where
  fitting := fitting_step h.fitting hstep
  bounded := by
    rcases step_queue hstep with ⟨hq, -⟩ | ⟨alloc, op, st, sec, hsec, hq, -⟩
    · exact hq ▸ h.bounded
    · exact hq ▸ hsec.bounded h.bounded
  current := sleepersCurrent_step h.current hstep
  consumers := consumersServed_step h.fitting h.consumers halloc hstep
  producers := producersServed_step h.fitting h.current h.producers halloc hstep

/-- The call sleeps, or has only to return. -/
def Call.resting : Call T → Bool
  | ⟨_, .notFullWait _ asleep⟩ => asleep
  | ⟨_, .notEmptyWait asleep⟩ => asleep
  | ⟨_, .ret _⟩ => true
  | _ => false

/-- No thread is awake inside an operation, and no notification is pending. -/
def Quiescent (s : QueueState T Tid) : Prop := ∀ t, (s.calls t).all Call.resting = true

instance (s : QueueState T Tid) : Decidable (Quiescent s) :=
  inferInstanceAs (Decidable (∀ t, (s.calls t).all Call.resting = true))

omit [Fintype Tid] [DecidableEq Tid] in
theorem Call.resting_cases {c : Call T} (h : c.resting = true) :
    c.asleep ∨ ∃ r, c.stage = .ret r := by
  unfold Call.resting at h
  split at h
  · exact .inl ⟨.notFull, by simp [Call.sleepsOn, h]⟩
  · exact .inl ⟨.notEmpty, by simp [Call.sleepsOn, h]⟩
  · exact .inr ⟨_, rfl⟩
  · cases h

omit [DecidableEq Tid] in
/-- In a quiescent state nothing is on its way to a sleeper. -/
theorem Quiescent.served {cv : CondVar} {awake all : Option (Call T) → Bool} {open_ : Prop}
    {supply : ℕ} (hq : Quiescent s) (h : Served cv awake all open_ supply s.calls)
    (hcounts : Counts cv awake all s.calls) {t : Tid} (ht : sleeps cv (s.calls t) = true) :
    open_ ∧ supply = 0 := by
  have hquiet : ∀ u, awake (s.calls u) = false ∧ all (s.calls u) = false ∧
      sends (.one cv) (s.calls u) = false := by
    intro u
    cases hu : s.calls u with
    | none =>
      obtain ⟨hawake, hall⟩ := hcounts.idle .pop .none none (.inl rfl)
      exact ⟨hawake, hall, rfl⟩
    | some c =>
      obtain ⟨op, st⟩ := c
      have hrest : Call.resting ⟨op, st⟩ = true := by simpa [hu] using hq u
      rcases Call.resting_cases hrest with ⟨cv', hc⟩ | ⟨r, rfl⟩
      · have hs : sleeps cv' (s.calls u) = true := by simpa [sleeps, hu] using hc
        obtain ⟨hawake, hall⟩ := hcounts.asleep cv' u hs
        exact hu ▸ ⟨hawake, hall, (sends_of_sleeps _ hs).1⟩
      · obtain ⟨hawake, hall⟩ := hcounts.idle op r _ (.inr (.inr rfl))
        exact ⟨hawake, hall, by simp [sends]⟩
  have hawake := census_eq_zero.mpr fun u => (hquiet u).1
  have hall := census_eq_zero.mpr fun u => (hquiet u).2.1
  have hone := census_eq_zero.mpr fun u => (hquiet u).2.2
  rcases h (census_pos.mpr ⟨t, ht⟩) with hpos | ⟨hopen, hle⟩
  · rw [hall] at hpos
    exact absurd hpos (lt_irrefl 0)
  · exact ⟨hopen, by omega⟩

/-- Wakeups are not lost. For every run of `push`, `pop`, `popBatch`, `popBatchFor`,
`close` and `reset` by any number of threads whose allocations succeed: in a quiescent
state a producer asleep in `pushLocked` sees an open, full queue of its own generation,
and a consumer asleep in a removal sees an open, empty queue. -/
theorem no_lost_wakeup
    (h : (queueSystem T Tid).Run (fun _ a => a.allocates = true) .initial es s)
    (hquiet : Quiescent s) :
    (∀ t e v g, s.calls t = some ⟨.push e v, .notFullWait g true⟩ →
      s.queue.closed = false ∧ g = s.queue.generation ∧ (e = none ∨ e = some g) ∧
        s.queue.size = s.queue.capacity) ∧
    ∀ t op, s.calls t = some ⟨op, .notEmptyWait true⟩ →
      s.queue.closed = false ∧ s.queue.queue = [] := by
  have hinv : NoLostWakeup s :=
    h.stable .initial fun _ _ _ _ hs halloc hstep => hs.step halloc hstep
  constructor
  · intro t e v g ht
    obtain ⟨hopen, hfull⟩ := hquiet.served hinv.producers (counts_producers hinv.current)
      (t := t) (by simp [ht, sleeps, Call.sleepsOn])
    have hown : e = none ∨ e = some g := by
      cases hinv.fitting t _ ht with
      | notFullWait _ h => exact h
    have hle := hinv.bounded
    unfold Bounded at hle
    exact ⟨hopen, hinv.current t _ g ht, hown, by omega⟩
  · intro t op ht
    obtain ⟨hopen, hempty⟩ := hquiet.served hinv.consumers (counts_consumers s.calls)
      (t := t) (by simp [ht, sleeps, Call.sleepsOn])
    exact ⟨hopen, List.length_eq_zero_iff.mp hempty⟩

/-- Two threads: the first fills a queue of one element and falls asleep in its second
push. -/
def sleepingSchedule : List (QueueAction ℕ TwoThreads) :=
  [.call .first (.reset 1 .Block), .run .first true false, .ret .first,
    .call .first (.push none 10), .run .first true false, .notify .first none, .ret .first,
    .call .first (.push (some 1) 20), .run .first true false]

theorem no_lost_wakeup_sleeping :
    ∃ es s, (queueSystem ℕ TwoThreads).Run (fun _ a => a.allocates = true) .initial es s ∧
      s.calls .first = some ⟨.push (some 1) 20, .notFullWait 1 true⟩ ∧
      s.queue.size = s.queue.capacity := by
  have hrun : (queueSystem ℕ TwoThreads).Run (fun _ a => a.allocates = true) .initial _ _ :=
    .of_schedule sleepingSchedule (by decide)
  exact ⟨_, _, hrun, by decide,
    ((no_lost_wakeup hrun (by decide)).1 .first (some 1) 20 1 (by decide)).2.2.2⟩

end CppLogger
