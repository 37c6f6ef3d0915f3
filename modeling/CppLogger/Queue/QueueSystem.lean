import CppLogger.Foundation.TransitionSystem
import CppLogger.Queue.BlockingQueue
import Mathlib.Data.Fintype.Basic

/-!
# The queue shared by any number of threads

A state is the guarded queue together with the operation each thread is inside.
Critical sections are atomic; between them a thread sleeps on a condition variable,
competes for the mutex, or has notifications to send, and other threads may run.
`notify_one` wakes an arbitrary sleeper (the scheduler names it), sleepers may wake
spuriously, a timed wait may end at any time, and every notification of `push`, `pop`,
`popBatch` and `close` is sent after the mutex has been released.
-/

namespace CppLogger

/-- The public operations that change the queue, with their arguments. `none` is the
overload of `push` that uses the generation current when it takes the mutex. -/
inductive QueueOp (T : Type*)
  | push (expectedGeneration : Option ℕ) (value : T)
  | pop
  | popBatch (maxCount : ℕ)
  | popBatchFor (maxCount : ℕ) (timeout : ℤ)
  | close
  | reset (capacity : ℕ) (overflowPolicy : OverflowPolicy)
  deriving DecidableEq, Repr

/-- An operation in progress. -/
structure Call (T : Type*) where
  op : QueueOp T
  stage : Stage T
  deriving DecidableEq, Repr

structure QueueState (T Tid : Type*) where
  queue : BlockingQueue T
  calls : Tid → Option (Call T)

/-- A new queue that no thread is using. -/
def QueueState.initial {T Tid : Type*} : QueueState T Tid := ⟨{}, fun _ => none⟩

inductive CondVar
  | notEmpty
  | notFull
  deriving DecidableEq, Repr

/-- Scheduler choices. `run` lets a thread take the mutex for its next section, `notify`
sends its next notification (`target` is the sleeper that `notify_one` picks), `wake` is
a spurious wakeup, `timeout` the end of a timed wait, `ret` the return to the caller. -/
inductive QueueAction (T Tid : Type*)
  | call (t : Tid) (op : QueueOp T)
  | run (t : Tid) (alloc expired : Bool)
  | notify (t : Tid) (target : Option Tid)
  | wake (t : Tid)
  | timeout (t : Tid)
  | ret (t : Tid)
  deriving DecidableEq, Repr

variable {T Tid : Type*}

namespace QueueOp

/-- The section that `op` runs at a stage; `none` where it has no section to run. -/
def criticalSection (op : QueueOp T) (stage : Stage T) (q : BlockingQueue T)
    (alloc expired : Bool) : Option (Section T) :=
  match op, stage with
  | .push expected v, .enter => some (q.pushLocked (expected.getD q.generation) v alloc)
  | .push _ v, .notFullWait expected false => some (q.waitNotFull expected v alloc)
  | .pop, .enter => some q.pop
  | .pop, .notEmptyWait false => some q.pop
  | .popBatch n, .enter => some (q.popBatchImpl n alloc)
  | .popBatch n, .notEmptyWait false => some (q.waitNotEmpty n alloc false)
  | .popBatchFor n _, .enter => some (q.popBatchImpl n alloc)
  | .popBatchFor n _, .notEmptyWait false => some (q.waitNotEmpty n alloc expired)
  | .close, .enter => some q.close
  | .reset capacity overflowPolicy, .enter => some (q.reset capacity overflowPolicy)
  | _, _ => none

/-- How many elements a removing operation takes at most. -/
def maxTaken : QueueOp T → Option ℕ
  | .pop => some 1
  | .popBatch n => some n
  | .popBatchFor n _ => some n
  | _ => none

end QueueOp

namespace Call

def sleepsOn : CondVar → Call T → Bool
  | .notFull, ⟨_, .notFullWait _ true⟩ => true
  | .notEmpty, ⟨_, .notEmptyWait true⟩ => true
  | _, _ => false

def woken : Call T → Call T
  | ⟨op, .notFullWait expected _⟩ => ⟨op, .notFullWait expected false⟩
  | ⟨op, .notEmptyWait _⟩ => ⟨op, .notEmptyWait false⟩
  | c => c

end Call

/-- A notification: `notify_one` or `notify_all` on a condition variable. -/
inductive Signal
  | one (cv : CondVar)
  | all (cv : CondVar)
  deriving DecidableEq, Repr

/-- The notification a call has to send next, and its stage afterwards. -/
def Call.signal : Call T → Option (Signal × Stage T)
  | ⟨.push _ _, .notify r⟩ => some (.one .notEmpty, .ret r)
  | ⟨.pop, .notify r⟩ => some (.one .notFull, .ret r)
  | ⟨.popBatch _, .notify r⟩ => some (.all .notFull, .ret r)
  | ⟨.popBatchFor _ _, .notify r⟩ => some (.all .notFull, .ret r)
  | ⟨.close, .notify _⟩ => some (.all .notEmpty, .notifyFull)
  | ⟨.close, .notifyFull⟩ => some (.all .notFull, .ret .done)
  | _ => none

def sleeps (cv : CondVar) (c : Option (Call T)) : Bool := c.any (Call.sleepsOn cv)

/-- Every sleeper on `cv` wakes. -/
def wakeAll (cv : CondVar) (calls : Tid → Option (Call T)) : Tid → Option (Call T) :=
  fun t => if sleeps cv (calls t) then (calls t).map Call.woken else calls t

/-- The effect of a notification on the sleepers. `notify_one` does nothing only when
nobody sleeps. -/
def Signal.deliver [Fintype Tid] [DecidableEq Tid] (target : Option Tid)
    (calls : Tid → Option (Call T)) : Signal → Option (Tid → Option (Call T))
  | .one cv =>
    match target with
    | none => if ∀ t, sleeps cv (calls t) = false then some calls else none
    | some u =>
      if sleeps cv (calls u) then some (Function.update calls u ((calls u).map Call.woken))
      else none
  | .all cv => some (wakeAll cv calls)

/-- Calls as they stand when `op` leaves its section: `reset` notifies inside it. -/
def QueueOp.notifyInside (op : QueueOp T) (calls : Tid → Option (Call T)) :
    Tid → Option (Call T) :=
  match op with
  | .reset _ _ => wakeAll .notFull (wakeAll .notEmpty calls)
  | _ => calls

def Call.isTimed : Call T → Bool
  | ⟨.popBatchFor _ _, .notEmptyWait true⟩ => true
  | _ => false

variable [Fintype Tid] [DecidableEq Tid]

def QueueState.step (s : QueueState T Tid) :
    QueueAction T Tid → Option (QueueState T Tid × List (QueueEvent T))
  | .call t op =>
    if s.calls t = none then
      some ({ s with calls := Function.update s.calls t (some ⟨op, .enter⟩) }, [])
    else none
  | .run t alloc expired =>
    (s.calls t).bind fun c =>
      (c.op.criticalSection c.stage s.queue alloc expired).map fun sec =>
        (⟨sec.queue, Function.update (c.op.notifyInside s.calls) t (some ⟨c.op, sec.stage⟩)⟩,
          sec.events)
  | .notify t target =>
    (s.calls t).bind fun c =>
      c.signal.bind fun next =>
        (next.1.deliver target s.calls).map fun calls =>
          ({ s with calls := Function.update calls t (some ⟨c.op, next.2⟩) }, [])
  | .wake t =>
    if sleeps .notFull (s.calls t) ∨ sleeps .notEmpty (s.calls t) then
      some ({ s with calls := Function.update s.calls t ((s.calls t).map Call.woken) }, [])
    else none
  | .timeout t =>
    if (s.calls t).any Call.isTimed then
      some ({ s with calls := Function.update s.calls t ((s.calls t).map Call.woken) }, [])
    else none
  | .ret t =>
    match s.calls t with
    | some ⟨_, .ret _⟩ => some ({ s with calls := Function.update s.calls t none }, [])
    | _ => none

/-- The queue under every interleaving of its users. -/
def queueSystem (T Tid : Type*) [Fintype Tid] [DecidableEq Tid] :
    TransitionSystem (QueueState T Tid) (QueueAction T Tid) (QueueEvent T) where
  step := QueueState.step

/-! ## What a critical section can do -/

/-- All outcomes of a critical section, each with the condition under which it is taken.
`expected` is the generation a push compares with. -/
inductive Outcome (q : BlockingQueue T) (alloc : Bool) : QueueOp T → Stage T → Section T → Prop
  | rejected {e v st} (expected : ℕ) (h : q.closed ∨ expected ≠ q.generation)
      (hst : st = .enter ∧ expected = e.getD q.generation ∨ st = .notFullWait expected false) :
      Outcome q alloc (.push e v) st ⟨q, .ret (.pushed .Closed), [.pushed v .Closed]⟩
  | sleepsFull {e v st} (hopen : q.closed = false) (hfull : q.capacity ≤ q.size)
      (hst : st = .enter ∧ e.getD q.generation = q.generation ∧ q.overflowPolicy = .Block ∨
        st = .notFullWait q.generation false) :
      Outcome q alloc (.push e v) st ⟨q, .notFullWait q.generation true, []⟩
  | enqueued {e v st} (hopen : q.closed = false) (hroom : q.size < q.capacity)
      (hst : st = .enter ∧ e.getD q.generation = q.generation ∨
        st = .notFullWait q.generation false) (halloc : alloc = true) :
      Outcome q alloc (.push e v) st
        ⟨q.emplaceLocked v, .notify (.pushed .Enqueued), [.pushed v .Enqueued]⟩
  | pushThrew {e v st} (hopen : q.closed = false) (hroom : q.size < q.capacity)
      (hst : st = .enter ∧ e.getD q.generation = q.generation ∨
        st = .notFullWait q.generation false) (halloc : alloc = false) :
      Outcome q alloc (.push e v) st ⟨q, .ret .threw, [.threw]⟩
  | droppedNewest {e v} (hopen : q.closed = false) (hgen : e.getD q.generation = q.generation)
      (hpolicy : q.overflowPolicy = .DropNewest) (hfull : q.capacity ≤ q.size) :
      Outcome q alloc (.push e v) .enter
        ⟨{ q with droppedCount := word64 (q.droppedCount + 1) },
          .ret (.pushed .DroppedNewest), [.pushed v .DroppedNewest]⟩
  | droppedOldest {e v} (hopen : q.closed = false) (hgen : e.getD q.generation = q.generation)
      (hpolicy : q.overflowPolicy ≠ .Block ∧ q.overflowPolicy ≠ .DropNewest)
      (hfull : q.capacity ≤ q.size) (halloc : alloc = true) :
      Outcome q alloc (.push e v) .enter
        ⟨q.evictOldest.emplaceLocked v, .notify (.pushed .DroppedOldest),
          [.evicted (q.queue.take 1), .pushed v .DroppedOldest]⟩
  | abandoned {e v} (hopen : q.closed = false) (hgen : e.getD q.generation = q.generation)
      (hpolicy : q.overflowPolicy ≠ .Block ∧ q.overflowPolicy ≠ .DropNewest)
      (hfull : q.capacity ≤ q.size) (halloc : alloc = false) :
      Outcome q alloc (.push e v) .enter
        ⟨q.evictOldest, .ret .threw, [.evicted (q.queue.take 1), .abandoned]⟩
  | zeroBatch {op} (hop : op = .popBatch 0 ∨ ∃ timeout, op = .popBatchFor 0 timeout) :
      Outcome q alloc op .enter ⟨q, .ret .none, []⟩
  | ended {op st} {n : ℕ} (hop : op.maxTaken = some n)
      (hst : st = .enter ∧ 0 < n ∨ st = .notEmptyWait false)
      (hclosed : q.closed = true) (hempty : q.queue = []) :
      Outcome q alloc op st ⟨q, .ret .none, [.ended]⟩
  | took {op st} {n : ℕ} (hop : op.maxTaken = some n)
      (hst : st = .enter ∧ 0 < n ∨ st = .notEmptyWait false) (hne : q.queue ≠ []) :
      Outcome q alloc op st (q.takeFront n)
  | popThrew {op st} {n : ℕ} (hop : op.maxTaken = some n)
      (hst : st = .enter ∧ 0 < n ∨ st = .notEmptyWait false) (hne : q.queue ≠ [])
      (halloc : alloc = false) :
      Outcome q alloc op st ⟨q, .ret .threw, [.threw]⟩
  | timedOut {n : ℕ} {timeout : ℤ} (hopen : q.closed = false) (hempty : q.queue = []) :
      Outcome q alloc (.popBatchFor n timeout) (.notEmptyWait false)
        ⟨q, .ret .none, [.timedOut]⟩
  | sleepsEmpty {op st} {n : ℕ} (hop : op.maxTaken = some n)
      (hst : st = .enter ∧ 0 < n ∨ st = .notEmptyWait false) (hopen : q.closed = false)
      (hempty : q.queue = []) :
      Outcome q alloc op st ⟨q, .notEmptyWait true, []⟩
  | closes : Outcome q alloc .close .enter q.close
  | resets (capacity : ℕ) (overflowPolicy : OverflowPolicy) :
      Outcome q alloc (.reset capacity overflowPolicy) .enter (q.reset capacity overflowPolicy)

/-- A push that finds a full queue and makes room itself. -/
def BlockingQueue.Evicting (q : BlockingQueue T) : QueueOp T → Stage T → Prop
  | .push expected _, .enter =>
    q.closed = false ∧ expected.getD q.generation = q.generation ∧
      (q.overflowPolicy ≠ .Block ∧ q.overflowPolicy ≠ .DropNewest) ∧ q.capacity ≤ q.size
  | _, _ => False

instance (q : BlockingQueue T) (op : QueueOp T) (st : Stage T) : Decidable (q.Evicting op st) := by
  unfold BlockingQueue.Evicting
  split <;> infer_instance

theorem BlockingQueue.not_evicting (q : BlockingQueue T) {op : QueueOp T} {n : ℕ}
    (hop : op.maxTaken = some n) (st : Stage T) : ¬ q.Evicting op st := by
  cases op with
  | push => cases hop
  | _ => exact id

section Sections

variable {q : BlockingQueue T} {alloc expired : Bool}

theorem accepts_of_not {expected : ℕ} (h : ¬(q.closed = true ∨ expected ≠ q.generation)) :
    q.closed = false ∧ expected = q.generation := by
  simpa using h

theorem idle_of_not (h : ¬(q.closed = true ∨ q.queue ≠ [])) :
    q.closed = false ∧ q.queue = [] := by
  simpa using h

theorem waitNotFull_outcome {e : Option ℕ} {v : T} {st : Stage T} {expected : ℕ}
    (hst : st = .enter ∧ expected = e.getD q.generation ∧ q.overflowPolicy = .Block ∨
      st = .notFullWait expected false) :
    Outcome q alloc (.push e v) st (q.waitNotFull expected v alloc) := by
  by_cases hout : q.closed = true ∨ expected ≠ q.generation
  · have hwait : q.waitNotFull expected v alloc =
        ⟨q, .ret (.pushed .Closed), [.pushed v .Closed]⟩ := by
      unfold BlockingQueue.waitNotFull
      rw [if_pos (hout.elim .inl fun h => .inr (.inl h)), if_pos hout]
    rw [hwait]
    exact .rejected expected hout (hst.imp (fun h => ⟨h.1, h.2.1⟩) id)
  · obtain ⟨hopen, rfl⟩ := accepts_of_not hout
    have hst' : st = .enter ∧ e.getD q.generation = q.generation ∨
        st = .notFullWait q.generation false := hst.imp (fun h => ⟨h.1, h.2.1.symm⟩) id
    by_cases hroom : q.size < q.capacity
    · have hwait : q.waitNotFull q.generation v alloc = q.enqueue v alloc := by
        simp [BlockingQueue.waitNotFull, hopen, hroom]
      rw [hwait]
      cases halloc : alloc
      · exact .pushThrew hopen hroom hst' rfl
      · exact .enqueued hopen hroom hst' rfl
    · have hwait : q.waitNotFull q.generation v alloc =
          ⟨q, .notFullWait q.generation true, []⟩ := by
        simp [BlockingQueue.waitNotFull, hopen, hroom]
      rw [hwait]
      exact .sleepsFull hopen (not_lt.mp hroom)
        (hst.imp (fun h => ⟨h.1, h.2.1.symm, h.2.2⟩) id)

theorem pushLocked_outcome {e : Option ℕ} {v : T} :
    Outcome q alloc (.push e v) .enter (q.pushLocked (e.getD q.generation) v alloc) := by
  unfold BlockingQueue.pushLocked
  split_ifs with hout hblock hfull hnewest halloc
  · exact .rejected _ hout (.inl ⟨rfl, rfl⟩)
  · exact waitNotFull_outcome (.inl ⟨rfl, rfl, hblock⟩)
  all_goals obtain ⟨hopen, hgen⟩ := accepts_of_not hout
  · exact .droppedNewest hopen hgen hnewest hfull
  · exact .droppedOldest hopen hgen ⟨hblock, hnewest⟩ hfull halloc
  · exact .abandoned hopen hgen ⟨hblock, hnewest⟩ hfull (by simpa using halloc)
  · unfold BlockingQueue.enqueue
    split_ifs with halloc
    · exact .enqueued hopen (not_le.mp hfull) (.inl ⟨rfl, hgen⟩) halloc
    · exact .pushThrew hopen (not_le.mp hfull) (.inl ⟨rfl, hgen⟩) (by simpa using halloc)

theorem pop_outcome {st : Stage T} (hst : st = .enter ∨ st = .notEmptyWait false) :
    Outcome q alloc .pop st q.pop := by
  have hst' : st = .enter ∧ 0 < 1 ∨ st = .notEmptyWait false := by simpa using hst
  unfold BlockingQueue.pop
  split_ifs with hready hempty
  · exact .ended rfl hst' (by simpa [hempty] using hready) hempty
  · exact .took rfl hst' hempty
  · obtain ⟨hopen, hempty⟩ := idle_of_not hready
    exact .sleepsEmpty rfl hst' hopen hempty

theorem waitNotEmpty_outcome {op : QueueOp T} {st : Stage T} {n : ℕ}
    (hop : op.maxTaken = some n) (hst : st = .enter ∧ 0 < n ∨ st = .notEmptyWait false)
    (hexpired : expired = true → (∃ timeout, op = .popBatchFor n timeout) ∧
      st = .notEmptyWait false) :
    Outcome q alloc op st (q.waitNotEmpty n alloc expired) := by
  unfold BlockingQueue.waitNotEmpty
  split_ifs with hready hempty halloc hexp
  · exact .ended hop hst (by simpa [hempty] using hready) hempty
  · exact .took hop hst hempty
  · exact .popThrew hop hst hempty (by simpa using halloc)
  all_goals obtain ⟨hopen, hempty⟩ := idle_of_not hready
  · obtain ⟨⟨timeout, rfl⟩, rfl⟩ := hexpired hexp
    exact .timedOut hopen hempty
  · exact .sleepsEmpty hop hst hopen hempty

theorem popBatchImpl_outcome {op : QueueOp T} {n : ℕ}
    (hop : op = .popBatch n ∨ ∃ timeout, op = .popBatchFor n timeout) :
    Outcome q alloc op .enter (q.popBatchImpl n alloc) := by
  unfold BlockingQueue.popBatchImpl
  split_ifs with hzero
  · subst hzero
    exact .zeroBatch hop
  · refine waitNotEmpty_outcome ?_ (.inl ⟨rfl, Nat.pos_of_ne_zero hzero⟩) (by simp)
    rcases hop with rfl | ⟨timeout, rfl⟩ <;> rfl

/-- The one place that looks into the sections: what each of them does. -/
theorem criticalSection_outcome {op : QueueOp T} {st : Stage T} {sec : Section T}
    (h : op.criticalSection st q alloc expired = some sec) : Outcome q alloc op st sec := by
  unfold QueueOp.criticalSection at h
  split at h <;> simp only [Option.some.injEq, reduceCtorEq] at h <;> subst h
  · exact pushLocked_outcome
  · exact waitNotFull_outcome (.inr rfl)
  · exact pop_outcome (.inl rfl)
  · exact pop_outcome (.inr rfl)
  · exact popBatchImpl_outcome (.inl rfl)
  · exact waitNotEmpty_outcome rfl (.inr rfl) (by simp)
  · exact popBatchImpl_outcome (.inr ⟨_, rfl⟩)
  · exact waitNotEmpty_outcome rfl (.inr rfl) fun _ => ⟨⟨_, rfl⟩, rfl⟩
  · exact .closes
  · exact .resets _ _

end Sections

/-! ## What a step can do -/

variable {s s' : QueueState T Tid} {a : QueueAction T Tid} {es : List (QueueEvent T)}

/-- All steps of the system, sections described by their outcomes. -/
inductive QueueMove (s : QueueState T Tid) :
    QueueAction T Tid → QueueState T Tid → List (QueueEvent T) → Prop
  | call {t : Tid} (op : QueueOp T) (hc : s.calls t = none) :
      QueueMove s (.call t op)
        { s with calls := Function.update s.calls t (some ⟨op, .enter⟩) } []
  | run {t : Tid} {alloc expired : Bool} {c : Call T} {sec : Section T}
      (hc : s.calls t = some c) (hsec : Outcome s.queue alloc c.op c.stage sec) :
      QueueMove s (.run t alloc expired)
        ⟨sec.queue, Function.update (c.op.notifyInside s.calls) t (some ⟨c.op, sec.stage⟩)⟩
        sec.events
  | notify {t : Tid} {target : Option Tid} {c : Call T} {sig : Signal} {stage : Stage T}
      {calls : Tid → Option (Call T)} (hc : s.calls t = some c)
      (hsig : c.signal = some (sig, stage)) (hcalls : sig.deliver target s.calls = some calls) :
      QueueMove s (.notify t target)
        { s with calls := Function.update calls t (some ⟨c.op, stage⟩) } []
  | wake {t : Tid} {c : Call T} (hc : s.calls t = some c)
      (hs : c.sleepsOn .notFull = true ∨ c.sleepsOn .notEmpty = true) :
      QueueMove s (.wake t) { s with calls := Function.update s.calls t (some c.woken) } []
  | timeout {t : Tid} {c : Call T} (hc : s.calls t = some c) (hs : c.isTimed = true) :
      QueueMove s (.timeout t) { s with calls := Function.update s.calls t (some c.woken) } []
  | ret {t : Tid} {op : QueueOp T} {r : QueueReturn T} (hc : s.calls t = some ⟨op, .ret r⟩) :
      QueueMove s (.ret t) { s with calls := Function.update s.calls t none } []

theorem step_move (h : s.step a = some (s', es)) : QueueMove s a s' es := by
  cases a with
  | call t op =>
    simp only [QueueState.step] at h
    split_ifs at h with hc
    cases h
    exact .call op hc
  | run t alloc expired =>
    simp only [QueueState.step, Option.bind_eq_some_iff, Option.map_eq_some_iff] at h
    obtain ⟨c, hc, sec, hsec, h⟩ := h
    cases h
    exact .run hc (criticalSection_outcome hsec)
  | notify t target =>
    simp only [QueueState.step, Option.bind_eq_some_iff, Option.map_eq_some_iff] at h
    obtain ⟨c, hc, ⟨sig, stage⟩, hsig, calls, hcalls, h⟩ := h
    cases h
    exact .notify hc hsig hcalls
  | wake t =>
    simp only [QueueState.step] at h
    split_ifs at h with hs
    cases h
    cases hc : s.calls t with
    | none => simp [sleeps, hc] at hs
    | some c => exact .wake hc (by simpa [sleeps, hc] using hs)
  | timeout t =>
    simp only [QueueState.step] at h
    split_ifs at h with hs
    cases h
    cases hc : s.calls t with
    | none => simp [hc] at hs
    | some c => exact .timeout hc (by simpa [hc] using hs)
  | ret t =>
    simp only [QueueState.step] at h
    split at h
    · cases h
      exact .ret ‹_›
    · cases h

/-- Only sections touch the queue and report events. -/
theorem step_queue (h : s.step a = some (s', es)) :
    (s'.queue = s.queue ∧ es = []) ∨
      ∃ alloc op st sec, Outcome s.queue alloc op st sec ∧ s'.queue = sec.queue ∧
        es = sec.events := by
  cases step_move h with
  | run hc hsec => exact .inr ⟨_, _, _, _, hsec, rfl, rfl⟩
  | _ => exact .inl ⟨rfl, rfl⟩

/-- The threads of the example runs. -/
inductive TwoThreads
  | first
  | second
  deriving DecidableEq, Repr

instance : Fintype TwoThreads := ⟨{.first, .second}, by rintro (_ | _) <;> decide⟩

end CppLogger
