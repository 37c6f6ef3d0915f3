import CppLogger.Foundation.Bytes

/-!
# The bounded blocking queue and its critical sections

`BlockingQueue` holds what `mutex_` protects. Every function below is one critical
section: it runs from taking the mutex to releasing it, and returns the queue it
leaves, the program point the thread has reached, and what an observer notes.
A wait on a condition variable releases the mutex, so it ends a section; the thread
runs the section again from the predicate once it is awake.

`alloc` tells whether the allocations of a section succeed: constructing the element
in `queue_.emplace`, or `values.reserve`.
-/

namespace CppLogger

/-- `other` is a value cast from an integer outside the enumerators. -/
inductive OverflowPolicy
  | Block
  | DropNewest
  | DropOldest
  | other (value : ℤ)
  deriving DecidableEq, Repr

inductive QueuePushResult
  | Enqueued
  | DroppedNewest
  | DroppedOldest
  | Closed
  deriving DecidableEq, Repr

/-- What an operation of the queue returns to its caller. -/
inductive QueueReturn (T : Type*)
  | pushed (result : QueuePushResult)
  | values (taken : List T)
  | none
  | done
  | threw
  deriving DecidableEq, Repr

/-- What an observer notes in the critical sections, in the order of the mutex.
`ended` is a removal that finds the queue closed and drained, `abandoned` a push
whose element construction threw after it had evicted an element. -/
inductive QueueEvent (T : Type*)
  | pushed (value : T) (result : QueuePushResult)
  | evicted (values : List T)
  | taken (values : List T)
  | ended
  | timedOut
  | closed
  | reset
  | threw
  | abandoned
  deriving DecidableEq, Repr

/-- Where a thread stands inside an operation: about to take the mutex for the first
time, waiting on a condition variable (asleep, or awake and about to take the mutex
again), past its last section with notifications to send, or about to return. -/
inductive Stage (T : Type*)
  | enter
  | notFullWait (expectedGeneration : ℕ) (asleep : Bool)
  | notEmptyWait (asleep : Bool)
  | notify (result : QueueReturn T)
  | notifyFull
  | ret (result : QueueReturn T)
  deriving DecidableEq, Repr

/-- The state guarded by `mutex_`. `generation` counts the resets and is only compared for
equality; the source wraps it around after `2 ^ 64` of them (see `generation_eq_resets`). -/
structure BlockingQueue (T : Type*) where
  queue : List T := []
  capacity : ℕ := wordBound - 1
  highWaterMark : ℕ := 0
  generation : ℕ := 0
  droppedCount : ℕ := 0
  overflowPolicy : OverflowPolicy := .Block
  closed : Bool := false
  capacity_pos : 0 < capacity := by decide
  deriving DecidableEq, Repr

/-- A critical section's outcome. -/
structure Section (T : Type*) where
  queue : BlockingQueue T
  stage : Stage T
  events : List (QueueEvent T)
  deriving DecidableEq, Repr

namespace BlockingQueue

variable {T : Type*} (q : BlockingQueue T)

def size : ℕ := q.queue.length

def emplaceLocked (value : T) : BlockingQueue T :=
  let queue := q.queue ++ [value]
  { q with
    queue := queue
    highWaterMark := if queue.length > q.highWaterMark then queue.length else q.highWaterMark }

/-- The last lines of `pushLocked`: append, release the mutex, return `Enqueued`. -/
def enqueue (value : T) (alloc : Bool) : Section T :=
  if alloc then
    ⟨q.emplaceLocked value, .notify (.pushed .Enqueued), [.pushed value .Enqueued]⟩
  else ⟨q, .ret .threw, [.threw]⟩

/-- `notFull_.wait` in `pushLocked`: the predicate, and what follows once it holds. -/
def waitNotFull (expectedGeneration : ℕ) (value : T) (alloc : Bool) : Section T :=
  if q.closed ∨ expectedGeneration ≠ q.generation ∨ q.size < q.capacity then
    if q.closed ∨ expectedGeneration ≠ q.generation then
      ⟨q, .ret (.pushed .Closed), [.pushed value .Closed]⟩
    else q.enqueue value alloc
  else ⟨q, .notFullWait expectedGeneration true, []⟩

/-- `queue_.pop(); ++droppedCount_;` -/
def evictOldest : BlockingQueue T :=
  { q with queue := q.queue.tail, droppedCount := word64 (q.droppedCount + 1) }

def pushLocked (expectedGeneration : ℕ) (value : T) (alloc : Bool) : Section T :=
  if q.closed ∨ expectedGeneration ≠ q.generation then
    ⟨q, .ret (.pushed .Closed), [.pushed value .Closed]⟩
  else if q.overflowPolicy = .Block then q.waitNotFull expectedGeneration value alloc
  else if q.size ≥ q.capacity then
    if q.overflowPolicy = .DropNewest then
      ⟨{ q with droppedCount := word64 (q.droppedCount + 1) }, .ret (.pushed .DroppedNewest),
        [.pushed value .DroppedNewest]⟩
    else if alloc then
      ⟨q.evictOldest.emplaceLocked value, .notify (.pushed .DroppedOldest),
        [.evicted (q.queue.take 1), .pushed value .DroppedOldest]⟩
    -- The element is gone and counted before `emplace` throws.
    else ⟨q.evictOldest, .ret .threw, [.evicted (q.queue.take 1), .abandoned]⟩
  else q.enqueue value alloc

/-- Remove up to `maxCount` elements from the front. -/
def takeFront (maxCount : ℕ) : Section T :=
  ⟨{ q with queue := q.queue.drop maxCount }, .notify (.values (q.queue.take maxCount)),
    [.taken (q.queue.take maxCount)]⟩

def pop : Section T :=
  if q.closed ∨ q.queue ≠ [] then
    if q.queue = [] then ⟨q, .ret .none, [.ended]⟩ else q.takeFront 1
  else ⟨q, .notEmptyWait true, []⟩

/-- `popBatchImpl` from the predicate of its wait on: `expired` tells that `wait_for`
reports a timeout when the predicate is false. -/
def waitNotEmpty (maxCount : ℕ) (alloc expired : Bool) : Section T :=
  if q.closed ∨ q.queue ≠ [] then
    if q.queue = [] then ⟨q, .ret .none, [.ended]⟩
    else if alloc then q.takeFront maxCount
    else ⟨q, .ret .threw, [.threw]⟩
  else if expired then ⟨q, .ret .none, [.timedOut]⟩
  else ⟨q, .notEmptyWait true, []⟩

def popBatchImpl (maxCount : ℕ) (alloc : Bool) : Section T :=
  if maxCount = 0 then ⟨q, .ret .none, []⟩ else q.waitNotEmpty maxCount alloc false

def close : Section T := ⟨{ q with closed := true }, .notify .done, [.closed]⟩

/-- `reset` notifies before it releases the mutex, so it has no `notify` stage. -/
def reset (capacity : ℕ) (overflowPolicy : OverflowPolicy) : Section T :=
  ⟨{ queue := []
     capacity := if capacity = 0 then 1 else capacity
     highWaterMark := 0
     generation := q.generation + 1
     droppedCount := 0
     overflowPolicy := overflowPolicy
     closed := false
     capacity_pos := by split <;> omega }, .ret .done, [.reset]⟩

section Emplace

variable (value : T)

@[simp] theorem emplaceLocked_queue : (q.emplaceLocked value).queue = q.queue ++ [value] := rfl

@[simp] theorem emplaceLocked_capacity : (q.emplaceLocked value).capacity = q.capacity := rfl

@[simp] theorem emplaceLocked_generation :
    (q.emplaceLocked value).generation = q.generation := rfl

@[simp] theorem emplaceLocked_droppedCount :
    (q.emplaceLocked value).droppedCount = q.droppedCount := rfl

@[simp] theorem emplaceLocked_overflowPolicy :
    (q.emplaceLocked value).overflowPolicy = q.overflowPolicy := rfl

@[simp] theorem emplaceLocked_closed : (q.emplaceLocked value).closed = q.closed := rfl

theorem emplaceLocked_highWaterMark :
    (q.emplaceLocked value).highWaterMark = max q.highWaterMark (q.size + 1) := by
  simp only [emplaceLocked, size, List.length_append, List.length_singleton]
  split_ifs <;> omega

@[simp] theorem emplaceLocked_size : (q.emplaceLocked value).size = q.size + 1 := by
  simp [size]

end Emplace

section Outcomes

variable (n capacity : ℕ) (overflowPolicy : OverflowPolicy)

@[simp] theorem takeFront_stage :
    (q.takeFront n).stage = .notify (.values (q.queue.take n)) := rfl

@[simp] theorem takeFront_events : (q.takeFront n).events = [.taken (q.queue.take n)] := rfl

@[simp] theorem close_stage : q.close.stage = .notify .done := rfl

@[simp] theorem close_events : q.close.events = [.closed] := rfl

@[simp] theorem reset_stage : (q.reset capacity overflowPolicy).stage = .ret .done := rfl

@[simp] theorem reset_events : (q.reset capacity overflowPolicy).events = [.reset] := rfl

end Outcomes

end BlockingQueue

end CppLogger
