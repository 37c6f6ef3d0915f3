import CppLogger.Foundation.Fifo
import CppLogger.Queue.CallInvariant

/-!
# What happens to the values of a queue

The events since the latest reset tell the whole story of a generation: which values
were admitted, which left and why, and what the pushes returned. The guarded queue is
a first-in first-out buffer of the admitted values. Its loss counter agrees with the
results that the producers saw, unless a push threw after it had evicted an element.
-/

namespace CppLogger

variable {T Tid : Type*}

namespace QueueEvent

/-- The value that a push puts into the queue. -/
def admitted : QueueEvent T → List T
  | .pushed v .Enqueued => [v]
  | .pushed v .DroppedOldest => [v]
  | _ => []

/-- The values that leave the queue, to a consumer or by eviction. -/
def removed : QueueEvent T → List T
  | .evicted vs => vs
  | .taken vs => vs
  | _ => []

def evictedValues : QueueEvent T → List T
  | .evicted vs => vs
  | _ => []

def result : QueueEvent T → Option QueuePushResult
  | .pushed _ r => some r
  | _ => none

/-- The value of a push that returned. -/
def pushedValue : QueueEvent T → Option T
  | .pushed v _ => some v
  | _ => none

def isAbandoned : QueueEvent T → Bool
  | .abandoned => true
  | _ => false

def isReset : QueueEvent T → Bool
  | .reset => true
  | _ => false

theorem any_isReset {es : List (QueueEvent T)} : es.any isReset = true ↔ .reset ∈ es := by
  rw [List.any_eq_true]
  constructor
  · rintro ⟨e, he, hreset⟩
    cases e <;> first | exact he | cases hreset
  · exact fun h => ⟨_, h, rfl⟩

/-- The queue as a buffer: what an event does to the stored values. -/
def fifo : QueueEvent T → Option (Fifo.Event T)
  | .pushed v .Enqueued => some (.accept v)
  | .pushed v .DroppedOldest => some (.accept v)
  | .evicted vs => some (.remove vs)
  | .taken vs => some (.remove vs)
  | _ => none

theorem fifo_admitted (es : List (QueueEvent T)) :
    (es.filterMap fifo).flatMap Fifo.Event.admitted = es.flatMap admitted := by
  induction es with
  | nil => rfl
  | cons e es ih =>
    rcases e with ⟨v, r⟩ | _ | _ | _ | _ | _ | _ | _ | _ <;> try cases r
    all_goals simp [fifo, admitted, Fifo.Event.admitted, List.filterMap_cons, ih]

theorem fifo_removed (es : List (QueueEvent T)) :
    (es.filterMap fifo).flatMap Fifo.Event.removed = es.flatMap removed := by
  induction es with
  | nil => rfl
  | cons e es ih =>
    rcases e with ⟨v, r⟩ | _ | _ | _ | _ | _ | _ | _ | _ <;> try cases r
    all_goals simp [fifo, removed, Fifo.Event.removed, List.filterMap_cons, ih]

end QueueEvent

/-! ## Histories since the latest reset -/

def afterEvent (es : List (QueueEvent T)) : QueueEvent T → List (QueueEvent T)
  | .reset => []
  | e => es ++ [e]

/-- The events of the current generation. -/
def sinceReset (es : List (QueueEvent T)) : List (QueueEvent T) := es.foldl afterEvent []

def admitted (es : List (QueueEvent T)) : List T := es.flatMap QueueEvent.admitted

def removed (es : List (QueueEvent T)) : List T := es.flatMap QueueEvent.removed

def evicted (es : List (QueueEvent T)) : List T := es.flatMap QueueEvent.evictedValues

/-- The values of the pushes that returned, in the order of the mutex. -/
def pushedValues (es : List (QueueEvent T)) : List T := es.filterMap QueueEvent.pushedValue

/-- How many pushes returned `r`. -/
def results (r : QueuePushResult) (es : List (QueueEvent T)) : ℕ :=
  es.countP fun e => decide (e.result = some r)

/-- How many pushes threw after evicting an element. -/
def abandonments (es : List (QueueEvent T)) : ℕ := es.countP QueueEvent.isAbandoned

section Append

variable (es fs : List (QueueEvent T)) (r : QueuePushResult)

@[simp] theorem admitted_append : admitted (es ++ fs) = admitted es ++ admitted fs := by
  simp [admitted]

@[simp] theorem removed_append : removed (es ++ fs) = removed es ++ removed fs := by
  simp [removed]

@[simp] theorem evicted_append : evicted (es ++ fs) = evicted es ++ evicted fs := by
  simp [evicted]

@[simp] theorem pushedValues_append :
    pushedValues (es ++ fs) = pushedValues es ++ pushedValues fs := List.filterMap_append

@[simp] theorem results_append : results r (es ++ fs) = results r es + results r fs := by
  simp [results]

@[simp] theorem abandonments_append :
    abandonments (es ++ fs) = abandonments es + abandonments fs := by
  simp [abandonments]

end Append

/-- The admitted values are among the pushed ones. -/
theorem admitted_sublist (es : List (QueueEvent T)) :
    (admitted es).Sublist (pushedValues es) := by
  induction es with
  | nil => exact List.Sublist.refl _
  | cons e es ih =>
    rcases e with ⟨v, r⟩ | _ | _ | _ | _ | _ | _ | _ | _ <;> try cases r
    case pushed.Enqueued | pushed.DroppedOldest => exact ih.cons_cons v
    case pushed.DroppedNewest | pushed.Closed => exact ih.cons v
    all_goals exact ih

theorem foldl_afterEvent_append {es fs : List (QueueEvent T)} (h : .reset ∉ fs) :
    fs.foldl afterEvent es = es ++ fs := by
  induction fs generalizing es with
  | nil => simp
  | cons e fs ih =>
    obtain ⟨he, hfs⟩ : QueueEvent.reset ≠ e ∧ QueueEvent.reset ∉ fs := by simpa using h
    have hstep : afterEvent es e = es ++ [e] := by cases e <;> simp_all [afterEvent]
    rw [List.foldl_cons, hstep, ih hfs]
    simp

/-- Elements lost to a full queue: dropped on arrival, evicted for a newer one, or
evicted by a push that then threw. -/
def losses (es : List (QueueEvent T)) : ℕ :=
  results .DroppedNewest es + results .DroppedOldest es + abandonments es

theorem losses_append (es fs : List (QueueEvent T)) :
    losses (es ++ fs) = losses es + losses fs := by
  simp only [losses, results_append, abandonments_append]
  omega

/-- What the events `es` of a generation say about the queue `q` it has come to. -/
structure Accounted (es : List (QueueEvent T)) (q : BlockingQueue T) : Prop where
  fifo : Fifo.Replay [] (es.filterMap QueueEvent.fifo) q.queue
  evictions : (evicted es).length = results .DroppedOldest es + abandonments es
  dropped : q.droppedCount = word64 (losses es)
  block : q.overflowPolicy = .Block → losses es = 0
  closed : q.closed = true ↔ .closed ∈ es
  late : es.Pairwise fun e f => e = .closed → f.admitted = []

/-- What left the queue, followed by what it holds, is what was admitted, in order. -/
theorem Accounted.conserved {es : List (QueueEvent T)} {q : BlockingQueue T}
    (h : Accounted es q) : removed es ++ q.queue = admitted es := by
  have := h.fifo.conserves
  rwa [QueueEvent.fifo_removed, QueueEvent.fifo_admitted, List.nil_append] at this

theorem Accounted.initial : Accounted ([] : List (QueueEvent T)) {} where
  fifo := .nil []
  evictions := rfl
  dropped := rfl
  block := fun _ => rfl
  closed := by simp
  late := .nil

/-- What a section's events must say of the queue before and after it, so that they
extend the account of a generation. -/
structure Extends (q : BlockingQueue T) (fs : List (QueueEvent T)) (q' : BlockingQueue T) :
    Prop where
  fresh : .reset ∉ fs
  fifo : Fifo.Replay q.queue (fs.filterMap QueueEvent.fifo) q'.queue
  evictions : (evicted fs).length = results .DroppedOldest fs + abandonments fs
  dropped : q'.droppedCount = q.droppedCount ∧ losses fs = 0 ∨
    q'.droppedCount = word64 (q.droppedCount + 1) ∧ losses fs = 1 ∧ q.overflowPolicy ≠ .Block
  policy : q'.overflowPolicy = q.overflowPolicy
  closed : q'.closed = true ↔ q.closed = true ∨ .closed ∈ fs
  late : fs.Pairwise fun e f => e = .closed → f.admitted = []
  refused : q.closed = true → ∀ f ∈ fs, f.admitted = []

theorem Accounted.extend {es fs : List (QueueEvent T)} {q q' : BlockingQueue T}
    (h : Accounted es q) (hfs : Extends q fs q') : Accounted (es ++ fs) q' where
  fifo := by
    rw [List.filterMap_append]
    exact h.fifo.append hfs.fifo
  evictions := by
    have h₁ := h.evictions
    have h₂ := hfs.evictions
    simp only [evicted_append, results_append, abandonments_append, List.length_append]
    omega
  dropped := by
    rw [losses_append]
    rcases hfs.dropped with ⟨hq, hl⟩ | ⟨hq, hl, -⟩
    · rw [hq, hl, h.dropped, Nat.add_zero]
    · rw [hq, hl, h.dropped, word64_word64_add]
  block := by
    intro hb
    rw [hfs.policy] at hb
    rw [losses_append, h.block hb]
    rcases hfs.dropped with ⟨-, hl⟩ | ⟨-, -, hp⟩
    · omega
    · exact absurd hb hp
  closed := by rw [hfs.closed, h.closed, List.mem_append]
  late := by
    refine List.pairwise_append.mpr ⟨h.late, hfs.late, ?_⟩
    rintro e he f hf rfl
    exact hfs.refused (h.closed.mpr he) f hf

namespace Extends

variable {q : BlockingQueue T} {op : QueueOp T} {st : Stage T}
variable {sec : Section T} {alloc : Bool}

theorem queue_eq_cons (q : BlockingQueue T) : q.queue = q.queue.take 1 ++ q.queue.tail := by
  rw [← List.drop_one, List.take_append_drop]

theorem length_take_one (hfull : q.capacity ≤ q.size) : (q.queue.take 1).length = 1 := by
  have hcap := q.capacity_pos
  simp only [BlockingQueue.size] at hfull
  rw [List.length_take]
  omega

/-- Events that a section notes without touching the guarded state. -/
theorem silent {fs : List (QueueEvent T)} (hfs : fs = [] ∨ (∃ v, fs = [.pushed v .Closed]) ∨
    fs = [.threw] ∨ fs = [.ended] ∨ fs = [.timedOut]) : Extends q fs q := by
  rcases hfs with rfl | ⟨v, rfl⟩ | rfl | rfl | rfl <;>
    exact ⟨by simp, .nil _, rfl, .inl ⟨rfl, rfl⟩, rfl, by simp, by simp,
      by simp [QueueEvent.admitted]⟩

theorem emplace (v : T) (hopen : q.closed = false) :
    Extends q [.pushed v .Enqueued] (q.emplaceLocked v) :=
  ⟨by simp, .accept (.nil _), rfl, .inl ⟨rfl, rfl⟩, rfl, by simp, by simp, by simp [hopen]⟩

theorem dropNewest (v : T) (hpolicy : q.overflowPolicy ≠ .Block) :
    Extends q [.pushed v .DroppedNewest]
      { q with droppedCount := word64 (q.droppedCount + 1) } :=
  ⟨by simp, .nil _, rfl, .inr ⟨rfl, rfl, hpolicy⟩, rfl, by simp, by simp,
    by simp [QueueEvent.admitted]⟩

theorem dropOldest (v : T) (hopen : q.closed = false) (hpolicy : q.overflowPolicy ≠ .Block)
    (hfull : q.capacity ≤ q.size) :
    Extends q [.evicted (q.queue.take 1), .pushed v .DroppedOldest]
      (q.evictOldest.emplaceLocked v) where
  fresh := by simp
  fifo := by
    conv => arg 1; rw [queue_eq_cons q]
    exact .remove (.accept (.nil _))
  evictions := by
    change (q.queue.take 1 ++ []).length = 1
    rw [List.append_nil, length_take_one hfull]
  dropped := .inr ⟨rfl, rfl, hpolicy⟩
  policy := rfl
  closed := by simp [BlockingQueue.evictOldest]
  late := by simp
  refused := by simp [hopen]

theorem abandon (hpolicy : q.overflowPolicy ≠ .Block) (hfull : q.capacity ≤ q.size) :
    Extends q [.evicted (q.queue.take 1), .abandoned] q.evictOldest where
  fresh := by simp
  fifo := by
    conv => arg 1; rw [queue_eq_cons q]
    exact .remove (.nil _)
  evictions := by
    change (q.queue.take 1 ++ []).length = 1
    rw [List.append_nil, length_take_one hfull]
  dropped := .inr ⟨rfl, rfl, hpolicy⟩
  policy := rfl
  closed := by simp [BlockingQueue.evictOldest]
  late := by simp
  refused := by simp [QueueEvent.admitted]

theorem take (n : ℕ) : Extends q [.taken (q.queue.take n)] (q.takeFront n).queue where
  fresh := by simp
  fifo := by
    conv => arg 1; rw [← List.take_append_drop n q.queue]
    exact .remove (.nil _)
  evictions := rfl
  dropped := .inl ⟨rfl, rfl⟩
  policy := rfl
  closed := by simp [BlockingQueue.takeFront]
  late := by simp
  refused := by simp [QueueEvent.admitted]

theorem close : Extends q [.closed] q.close.queue :=
  ⟨by simp, .nil _, rfl, .inl ⟨rfl, rfl⟩, rfl, by simp [BlockingQueue.close], by simp,
    by simp [QueueEvent.admitted]⟩

/-- Every section but `reset` extends the account of its generation. -/
theorem of_outcome (h : Outcome q alloc op st sec) :
    Extends q sec.events sec.queue ∨ sec.events = [.reset] ∧ Accounted [] sec.queue := by
  cases h with
  | enqueued hopen => exact .inl (emplace _ hopen)
  | droppedNewest _ _ hpolicy => exact .inl (dropNewest _ (by simp [hpolicy]))
  | droppedOldest hopen _ hpolicy hfull => exact .inl (dropOldest _ hopen hpolicy.1 hfull)
  | abandoned _ _ hpolicy hfull => exact .inl (abandon hpolicy.1 hfull)
  | took => exact .inl (take _)
  | closes => exact .inl close
  | resets => exact .inr ⟨rfl, .nil [], rfl, rfl, fun _ => rfl, by simp [BlockingQueue.reset], .nil⟩
  | _ => exact .inl (silent (by simp))

end Extends

/-- Every section keeps the account of its generation, or starts a new one. -/
theorem Accounted.outcome {es : List (QueueEvent T)} {q : BlockingQueue T} {alloc : Bool}
    {op : QueueOp T} {st : Stage T} {sec : Section T} (h : Accounted es q)
    (hsec : Outcome q alloc op st sec) :
    Accounted (sec.events.foldl afterEvent es) sec.queue := by
  rcases Extends.of_outcome hsec with hext | ⟨hreset, hnew⟩
  · rw [foldl_afterEvent_append hext.fresh]
    exact h.extend hext
  · rw [hreset]
    exact hnew

/-! ## Whole runs -/

variable [Fintype Tid] [DecidableEq Tid]
variable {s s' : QueueState T Tid} {es : List (QueueEvent T)}

theorem reaches_accounted (h : (queueSystem T Tid).Reaches .initial es s) :
    Accounted (sinceReset es) s.queue := by
  refine h.monitored afterEvent (I := fun g s => Accounted g s.queue) Accounted.initial ?_
  intro g s a s' fs hg _ hstep
  rcases step_queue hstep with ⟨hq, rfl⟩ | ⟨alloc, op, st, sec, hsec, hq, rfl⟩
  · rw [hq]
    exact hg
  · rw [hq]
    exact hg.outcome hsec

omit [Fintype Tid] [DecidableEq Tid] in
theorem Outcome.counts_resets {q : BlockingQueue T} {alloc : Bool} {op : QueueOp T} {st : Stage T}
    {sec : Section T} (h : Outcome q alloc op st sec) :
    sec.queue.generation = q.generation + sec.events.countP QueueEvent.isReset := by
  cases h <;> rfl

/-- The generation is the number of the resets. A counter of 64 bits agrees with it in every
run of fewer than `2 ^ 64` resets. -/
theorem generation_eq_resets (h : (queueSystem T Tid).Reaches .initial es s) :
    s.queue.generation = es.countP QueueEvent.isReset := by
  induction h with
  | refl => rfl
  | tail _ _ hstep ih =>
    rw [List.countP_append, ← ih]
    rcases step_queue hstep with ⟨hq, rfl⟩ | ⟨alloc, op, st, sec, hsec, hq, rfl⟩
    · rw [hq]
      rfl
    · rw [hq]
      exact hsec.counts_resets

theorem reaches_fitting (h : (queueSystem T Tid).Reaches .initial es s) : Fitting s :=
  h.stable fitting_initial fun _ _ _ _ hs _ hstep => fitting_step hs hstep

/-- A push that comes back from its section empty-handed has changed no value. -/
theorem Outcome.refused {q : BlockingQueue T} {alloc : Bool} {op : QueueOp T} {st : Stage T}
    {sec : Section T} {r : QueuePushResult} (h : Outcome q alloc op st sec)
    (hst : sec.stage = .ret (.pushed r)) : sec.queue.queue = q.queue := by
  cases h <;> simp at hst ⊢

/-- A push that returns does so once, for its own value, and is let in only in the current
generation. -/
theorem Outcome.pushed {q : BlockingQueue T} {alloc : Bool} {op : QueueOp T} {st : Stage T}
    {sec : Section T} (h : Outcome q alloc op st sec) :
    pushedValues sec.events = [] ∨
      ∃ e v, op = .push e v ∧ pushedValues sec.events = [v] ∧
        Call.waiting ⟨op, sec.stage⟩ = false ∧
        ((∃ r, .pushed v r ∈ sec.events ∧ r ≠ .Closed) →
          st = .enter ∧ e.getD q.generation = q.generation ∨ st = .notFullWait q.generation false) := by
  cases h with
  | rejected => exact .inr ⟨_, _, rfl, rfl, rfl, by simp⟩
  | enqueued _ _ hst => exact .inr ⟨_, _, rfl, rfl, rfl, fun _ => hst⟩
  | droppedNewest _ hgen | droppedOldest _ hgen =>
    exact .inr ⟨_, _, rfl, rfl, rfl, fun _ => .inl ⟨rfl, hgen⟩⟩
  | _ => exact .inl rfl

/-- `pop` and `popBatch` come back empty-handed from a closed, drained queue only. -/
theorem Outcome.drained {q : BlockingQueue T} {alloc : Bool} {op : QueueOp T} {st : Stage T}
    {sec : Section T} (h : Outcome q alloc op st sec) (hst : sec.stage = .ret .none)
    (hop : op = .pop ∨ ∃ n, 0 < n ∧ op = .popBatch n) : q.closed = true ∧ q.queue = [] := by
  cases h with
  | ended _ _ hclosed hempty => exact ⟨hclosed, hempty⟩
  | zeroBatch hzero =>
    rcases hop with rfl | ⟨n, hn, rfl⟩ <;> rcases hzero with h | ⟨_, h⟩ <;> cases h
    exact absurd hn (lt_irrefl 0)
  | timedOut => rcases hop with h | ⟨n, -, h⟩ <;> cases h
  | _ => simp at hst

/-- A call with notifications to send is not about to return empty-handed, nor to throw. -/
theorem Fits.signal_result {c : Call T} {sig : Signal} {r : QueueReturn T}
    (h : Fits c.op c.stage) (hsig : c.signal = some (sig, .ret r)) : r ≠ .none ∧ r ≠ .threw := by
  rcases c with ⟨op, st⟩
  rcases Call.signal_cases hsig with ⟨e, v, r', heq, -, hr⟩ | ⟨r', heq, -, hr⟩ |
    ⟨op', n, r', heq, -, -, hr⟩ | ⟨r', heq, -, hr⟩ | ⟨heq, -, hr⟩ <;> cases heq <;> cases hr <;>
    cases h <;> simp

/-- A call that reaches its return stage does so in a section of its own, or by sending
its last notification. -/
theorem returns_cases {a : QueueAction T Tid} {fs : List (QueueEvent T)} {t : Tid}
    {op : QueueOp T} {r : QueueReturn T} (h : s.step a = some (s', fs))
    (ht : s'.calls t = some ⟨op, .ret r⟩) (hnew : s.calls t ≠ s'.calls t) :
    (∃ alloc expired st sec, a = .run t alloc expired ∧ Outcome s.queue alloc op st sec ∧
        sec.stage = .ret r ∧ s'.queue = sec.queue) ∨
      s'.queue = s.queue ∧ ∃ c sig, s.calls t = some c ∧ c.signal = some (sig, .ret r) := by
  have hwoken : ∀ c : Call T, c.asleep → c.woken ≠ ⟨op, .ret r⟩ := by
    rintro ⟨op', st⟩ ⟨cv, hcv⟩ heq
    cases cv <;> cases st <;> simp [Call.woken, Call.sleepsOn] at hcv heq
  by_cases hactor : t = a.actor
  · subst hactor
    cases step_move h with
    | call op' =>
      simp only [QueueAction.actor, Function.update_self, Option.some.injEq] at ht
      cases ht
    | run hc hsec =>
      simp only [QueueAction.actor, Function.update_self, Option.some.injEq] at ht
      obtain ⟨rfl, hst⟩ := Call.mk.inj ht
      exact .inl ⟨_, _, _, _, rfl, hsec, hst, rfl⟩
    | notify hc hsig =>
      simp only [QueueAction.actor, Function.update_self, Option.some.injEq] at ht
      obtain ⟨-, rfl⟩ := Call.mk.inj ht
      exact .inr ⟨rfl, _, _, hc, hsig⟩
    | wake hc hs =>
      simp only [QueueAction.actor, Function.update_self, Option.some.injEq] at ht
      exact absurd ht (hwoken _ (hs.elim (⟨_, ·⟩) (⟨_, ·⟩)))
    | @timeout _ c hc hs =>
      simp only [QueueAction.actor, Function.update_self, Option.some.injEq] at ht
      exact absurd ht (hwoken c ⟨.notEmpty, Call.sleepsOn_of_isTimed hs⟩)
    | ret => simp [QueueAction.actor] at ht
  · rcases step_stirred h hactor with heq | ⟨d, -, hd, hd'⟩
    · exact absurd heq.symm hnew
    · exact absurd (Option.some.inj (hd'.symm.trans ht)) (hwoken d hd)

/-- A call whose allocations succeed does not come to throw. -/
theorem not_threw_step {a : QueueAction T Tid} {fs : List (QueueEvent T)} {t : Tid}
    (hfit : Fitting s) (h : s.step a = some (s', fs))
    (halloc : ∀ alloc expired, a = .run t alloc expired → alloc = true)
    (hold : ∀ op, s.calls t ≠ some ⟨op, .ret .threw⟩) (op : QueueOp T) :
    s'.calls t ≠ some ⟨op, .ret .threw⟩ := by
  intro ht
  by_cases hnew : s.calls t = s'.calls t
  · exact hold op (hnew.trans ht)
  · rcases returns_cases h ht hnew with ⟨alloc, expired, st, sec, hrun, hsec, hst, -⟩ |
      ⟨-, c, sig, hc, hsig⟩
    · obtain rfl := halloc alloc expired hrun
      exact hsec.not_threw hst
    · exact ((hfit _ _ hc).signal_result hsig).2 rfl

/-! ## The exact account -/

/-- A section loses an element without a result when it evicts and then cannot construct. -/
theorem Outcome.abandons {q : BlockingQueue T} {alloc : Bool} {op : QueueOp T} {st : Stage T}
    {sec : Section T} (h : Outcome q alloc op st sec) :
    abandonments sec.events = 0 ↔ (q.Evicting op st → alloc = true) := by
  cases h with
  | rejected expected hout hst =>
    refine iff_of_true rfl fun hevicting => ?_
    rcases hst with ⟨rfl, rfl⟩ | rfl
    · obtain ⟨hopen, hgen, -⟩ := hevicting
      simp [hopen, hgen] at hout
    · exact hevicting.elim
  | sleepsFull _ _ hst =>
    refine iff_of_true rfl fun hevicting => ?_
    rcases hst with ⟨rfl, -, hblock⟩ | rfl
    · exact absurd hblock hevicting.2.2.1.1
    · exact hevicting.elim
  | pushThrew _ hroom hst =>
    refine iff_of_true rfl fun hevicting => ?_
    rcases hst with ⟨rfl, -⟩ | rfl
    · exact absurd hevicting.2.2.2 (not_le.mpr hroom)
    · exact hevicting.elim
  | droppedNewest _ _ hnewest =>
    exact iff_of_true rfl fun hevicting => absurd hnewest hevicting.2.2.1.2
  | enqueued _ _ _ halloc | droppedOldest _ _ _ _ halloc => exact iff_of_true rfl fun _ => halloc
  | abandoned hopen hgen hpolicy hfull halloc =>
    refine iff_of_false (Nat.succ_ne_zero 0) fun hconstructs => ?_
    rw [hconstructs ⟨hopen, hgen, hpolicy, hfull⟩] at halloc
    cases halloc
  | zeroBatch hop =>
    rcases hop with rfl | ⟨_, rfl⟩ <;> exact iff_of_true rfl False.elim
  | ended hop | took hop | popThrew hop | sleepsEmpty hop =>
    exact iff_of_true rfl fun hevicting => absurd hevicting (q.not_evicting hop st)
  | timedOut | closes | resets => exact iff_of_true rfl False.elim

/-- A push that evicts an element can construct its own. -/
def Constructs (s : QueueState T Tid) : QueueAction T Tid → Prop
  | .run t alloc _ => ∀ c ∈ s.calls t, s.queue.Evicting c.op c.stage → alloc = true
  | _ => True

instance (s : QueueState T Tid) (a : QueueAction T Tid) : Decidable (Constructs s a) := by
  cases a <;> unfold Constructs <;> infer_instance

theorem abandonments_step {a : QueueAction T Tid} {fs : List (QueueEvent T)}
    (h : s.step a = some (s', fs)) : abandonments fs = 0 ↔ Constructs s a := by
  cases step_move h with
  | run hc hsec =>
    rw [hsec.abandons]
    simp [Constructs, hc]
  | _ => exact iff_of_true rfl trivial

/-- A step stays in the current generation, or does nothing but to begin a new one. -/
theorem step_resets {a : QueueAction T Tid} {fs : List (QueueEvent T)}
    (h : s.step a = some (s', fs)) : .reset ∉ fs ∨ fs = [.reset] := by
  rcases step_queue h with ⟨-, rfl⟩ | ⟨alloc, op, st, sec, hsec, -, rfl⟩
  · simp
  · exact (Extends.of_outcome hsec).imp Extends.fresh And.left

abbrev QueueTaken (T Tid : Type*) :=
  TransitionSystem.Taken (QueueState T Tid) (QueueAction T Tid) (QueueEvent T)

def afterStep (steps : List (QueueTaken T Tid)) (x : QueueTaken T Tid) :
    List (QueueTaken T Tid) :=
  if x.events.any QueueEvent.isReset then [] else steps ++ [x]

/-- The steps that a run has taken since the latest reset. -/
def generationSteps (taken : List (QueueTaken T Tid)) : List (QueueTaken T Tid) :=
  taken.foldl afterStep []

/-- The events since the latest reset are those of the steps since then. -/
theorem sinceReset_steps {taken : List (QueueTaken T Tid)}
    (h : (queueSystem T Tid).stepwise.Reaches .initial taken s) :
    sinceReset (taken.flatMap TransitionSystem.Taken.events) =
      (generationSteps taken).flatMap TransitionSystem.Taken.events := by
  induction h with
  | refl => rfl
  | @tail taken xs s s' a _ _ hs ih =>
    obtain ⟨fs, hstep, rfl⟩ := TransitionSystem.stepwise_step hs
    simp only [sinceReset, generationSteps] at ih
    simp only [sinceReset, generationSteps, List.flatMap_append, List.foldl_append, ih,
      List.flatMap_cons, List.flatMap_nil, List.append_nil, List.foldl_cons, List.foldl_nil]
    rcases step_resets hstep with hfresh | rfl
    · have hold : fs.any QueueEvent.isReset = false := by
        rw [Bool.eq_false_iff, Ne, QueueEvent.any_isReset]
        exact hfresh
      rw [foldl_afterEvent_append hfresh]
      simp [afterStep, hold]
    · rfl

omit [Fintype Tid] [DecidableEq Tid] in
theorem generationSteps_subset (taken : List (QueueTaken T Tid)) :
    generationSteps taken ⊆ taken := by
  induction taken using List.reverseRecOn with
  | nil => exact List.Subset.refl _
  | append_singleton taken x ih =>
    simp only [generationSteps] at ih
    simp only [generationSteps, List.foldl_append, List.foldl_cons, List.foldl_nil, afterStep]
    split
    · exact List.nil_subset _
    · exact List.append_subset.mpr
        ⟨fun y hy => List.mem_append_left _ (ih hy), List.subset_append_right _ _⟩

/-- Steps in which every evicting push can construct its element abandon none, and only they
do. -/
theorem abandonments_steps {taken : List (QueueTaken T Tid)}
    (h : ∀ x ∈ taken, x.before.step x.action = some (x.after, x.events)) :
    abandonments (taken.flatMap TransitionSystem.Taken.events) = 0 ↔
      ∀ x ∈ taken, Constructs x.before x.action := by
  induction taken with
  | nil => simp [abandonments]
  | cons x taken ih =>
    rw [List.forall_mem_cons] at h
    rw [List.flatMap_cons, abandonments_append, Nat.add_eq_zero_iff, abandonments_step h.1,
      ih h.2, List.forall_mem_cons]

omit [Fintype Tid] [DecidableEq Tid] in
theorem constructs_of_allocates (s : QueueState T Tid) {a : QueueAction T Tid}
    (h : a.allocates = true) : Constructs s a := by
  cases a with
  | run t alloc expired => exact fun _ _ _ => h
  | _ => trivial

/-- In a run whose allocations succeed no push throws after an eviction. -/
theorem abandonments_eq_zero {es : List (QueueEvent T)}
    (h : (queueSystem T Tid).Run (fun _ a => a.allocates = true) s es s') :
    abandonments es = 0 := by
  induction h with
  | refl => rfl
  | tail _ halloc hstep ih =>
    rw [abandonments_append, ih, Nat.zero_add, abandonments_step hstep]
    exact constructs_of_allocates _ halloc

/-- What the events `g` since the latest reset say of the state `s` that they have led to
and of its next step: a first-in first-out buffer with an exact loss account. -/
structure ExactlyAccounted (g : List (QueueEvent T)) (s : QueueState T Tid) : Prop where
  /-- What left the queue, followed by what it holds, is what was admitted, in order. -/
  conserved : removed g ++ s.queue.queue = admitted g
  evictions : (evicted g).length = results .DroppedOldest g
  dropped : s.queue.droppedCount =
    word64 (results .DroppedNewest g + results .DroppedOldest g)
  block : s.queue.overflowPolicy = .Block → s.queue.droppedCount = 0
  /-- Nothing is admitted after `close`: not by the events, nor by the state. -/
  late : g.Pairwise fun e f => e = .closed → f.admitted = []
  closed : s.queue.closed = true ↔ .closed ∈ g
  shrinks : ∀ a s' fs, s.step a = some (s', fs) → s.queue.closed = true →
    admitted fs = [] ∧ s'.queue.queue <:+ s.queue.queue
  /-- A push that returns `Closed` or `DroppedNewest` changes nothing. -/
  refused : ∀ a s' fs, s.step a = some (s', fs) → ∀ t op r,
    s'.calls t = some ⟨op, .ret (.pushed r)⟩ → s.calls t ≠ s'.calls t →
    r = .Closed ∨ r = .DroppedNewest → s'.queue.queue = s.queue.queue
  /-- `pop` and `popBatch` return empty-handed only from a closed queue out of which
  everything admitted has been taken. -/
  drained : ∀ a s' fs, s.step a = some (s', fs) → ∀ t op,
    s'.calls t = some ⟨op, .ret .none⟩ → s.calls t ≠ s'.calls t →
    (op = .pop ∨ ∃ n, 0 < n ∧ op = .popBatch n) →
    s.queue.closed = true ∧ s.queue.queue = [] ∧ removed g = admitted g

/-- A section of a closed queue admits nothing. -/
theorem Outcome.shrinks {q : BlockingQueue T} {alloc : Bool} {op : QueueOp T} {st : Stage T}
    {sec : Section T} (h : Outcome q alloc op st sec) (hclosed : q.closed = true) :
    admitted sec.events = [] ∧ sec.queue.queue <:+ q.queue := by
  cases h with
  | took => exact ⟨rfl, List.drop_suffix _ _⟩
  | resets => exact ⟨rfl, List.nil_suffix⟩
  | rejected | zeroBatch | ended | popThrew | closes => exact ⟨rfl, List.suffix_refl _⟩
  | _ => simp_all

/-- Where no push threw after an eviction, the account of a generation is exact. -/
theorem Accounted.exactly {g : List (QueueEvent T)} (h : Accounted g s.queue)
    (hfit : Fitting s) (hnone : abandonments g = 0) : ExactlyAccounted g s where
  conserved := h.conserved
  evictions := by rw [h.evictions, hnone, Nat.add_zero]
  dropped := by rw [h.dropped, losses, hnone, Nat.add_zero]
  block := by
    intro hb
    rw [h.dropped, h.block hb]
    rfl
  late := h.late
  closed := h.closed
  shrinks := by
    intro a s' fs hstep hclosed
    rcases step_queue hstep with ⟨hq, rfl⟩ | ⟨alloc, op, st, sec, hsec, hq, rfl⟩
    · exact ⟨rfl, by rw [hq]⟩
    · rw [hq]
      exact hsec.shrinks hclosed
  refused := by
    intro a s' fs hstep t op r ht hnew hr
    rcases returns_cases hstep ht hnew with ⟨alloc, expired, st, sec, -, hsec, hst, hq⟩ | ⟨hq, -⟩
    · rcases hr with rfl | rfl <;> rw [hq, hsec.refused hst]
    · rw [hq]
  drained := by
    intro a s' fs hstep t op ht hnew hop
    rcases returns_cases hstep ht hnew with ⟨alloc, expired, st, sec, -, hsec, hst, hq⟩ |
      ⟨-, c, sig, hc, hsig⟩
    · obtain ⟨hclosed, hempty⟩ := hsec.drained hst hop
      exact ⟨hclosed, hempty, by simpa [hempty] using h.conserved⟩
    · exact absurd rfl ((hfit t c hc).signal_result hsig).1

/-- The queue refines a first-in first-out buffer with an exact loss account, in every state
of every run, exactly when no push since the latest reset has thrown after evicting an
element. -/
theorem queue_accounting {taken : List (QueueTaken T Tid)}
    (h : (queueSystem T Tid).stepwise.Reaches .initial taken s) :
    (∀ x ∈ generationSteps taken, Constructs x.before x.action) ↔
      ExactlyAccounted (sinceReset (taken.flatMap TransitionSystem.Taken.events)) s := by
  have hacc := reaches_accounted h.forgets
  have hsteps : ∀ x ∈ generationSteps taken,
      x.before.step x.action = some (x.after, x.events) :=
    fun x hx => (h.steps x (generationSteps_subset taken hx)).2
  rw [← abandonments_steps hsteps, ← sinceReset_steps h]
  constructor
  · exact hacc.exactly (reaches_fitting h.forgets)
  · intro hexact
    have heviction := hacc.evictions
    rw [hexact.evictions] at heviction
    omega

/-- Two producers fill a queue of two elements, the third push evicts the first one, and
a consumer drains it after `close`. -/
def evictingSchedule : List (QueueAction ℕ TwoThreads) :=
  [.call .first (.reset 2 .DropOldest), .run .first true false, .ret .first,
    .call .first (.push none 10), .call .second (.push (some 1) 20),
    .run .second true false, .run .first true false, .notify .first none, .ret .first,
    .notify .second none, .ret .second,
    .call .first (.push none 30), .run .first true false, .notify .first none, .ret .first,
    .call .first .close, .run .first true false, .call .second .pop, .run .second true false,
    .notify .first none, .notify .first none, .ret .first]

theorem queue_accounting_evicting :
    ∃ taken s, (queueSystem ℕ TwoThreads).stepwise.Reaches .initial taken s ∧
      ExactlyAccounted (sinceReset (taken.flatMap TransitionSystem.Taken.events)) s ∧
      admitted (sinceReset (taken.flatMap TransitionSystem.Taken.events)) = [20, 10, 30] ∧
      s.queue.queue = [30] ∧ s.queue.droppedCount = 1 := by
  have hrun : (queueSystem ℕ TwoThreads).stepwise.Reaches .initial _ _ :=
    .of_schedule evictingSchedule (by decide)
  exact ⟨_, _, hrun, (queue_accounting hrun).mp (by decide), by decide, by decide, by decide⟩

/-- A full queue of one element whose second push throws while constructing its own. -/
def abandoningSchedule : List (QueueAction ℕ TwoThreads) :=
  [.call .first (.reset 1 .DropOldest), .run .first true false, .ret .first,
    .call .first (.push none 10), .run .first true false, .notify .first none, .ret .first,
    .call .second (.push none 20), .run .second false false, .ret .second]

/-- The evicted element and the counter have no result to go with them. -/
theorem queue_accounting_abandoning :
    ∃ taken s, (queueSystem ℕ TwoThreads).stepwise.Reaches .initial taken s ∧
      s.queue.droppedCount = 1 ∧
      evicted (sinceReset (taken.flatMap TransitionSystem.Taken.events)) = [10] ∧
      (∀ r, results r (sinceReset (taken.flatMap TransitionSystem.Taken.events)) =
        if r = .Enqueued then 1 else 0) ∧
      ¬ ExactlyAccounted (sinceReset (taken.flatMap TransitionSystem.Taken.events)) s := by
  obtain ⟨taken, s, hrun, hdropped, hevicted, hresults⟩ : ∃ taken s,
      (queueSystem ℕ TwoThreads).stepwise.Reaches .initial taken s ∧ s.queue.droppedCount = 1 ∧
      evicted (sinceReset (taken.flatMap TransitionSystem.Taken.events)) = [10] ∧
      ∀ r, results r (sinceReset (taken.flatMap TransitionSystem.Taken.events)) =
        if r = .Enqueued then 1 else 0 :=
    ⟨_, _, .of_schedule abandoningSchedule (by decide), by decide, by decide, by
      rintro (_ | _ | _ | _) <;> decide⟩
  refine ⟨taken, s, hrun, hdropped, hevicted, hresults, fun hexact => ?_⟩
  have heviction := hexact.evictions
  rw [hevicted, hresults] at heviction
  cases heviction

end CppLogger
