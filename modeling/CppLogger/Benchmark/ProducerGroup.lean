import CppLogger.Benchmark.Harness
import CppLogger.Foundation.TransitionSystem

/-!
# The producers of a benchmark run

`ProducerGroup::start` launches a thread for each producer, lets all of them prepare, starts
them together and waits for the last one; the threads then wait until they are released. If
anything throws, the threads are released and joined, and `start` throws.

A step of a thread is one critical section, a notification made outside of one, or one end
of a call of `prepare_` or `submit_`. A wait on a condition variable ends a section; awake
again, the thread runs the section from the predicate. The scheduler chooses who moves,
which calls throw, which waits end without a notification, and how the clock goes on.
Exceptions are of any type `E`.
-/

namespace CppLogger

variable {N : ℕ} {E : Type*}

/-- Where a worker stands in `workerLoop`. -/
inductive ProducerPc (E : Type*)
  | unlaunched
  | prepare
  | recordPrepare (failure : E)
  | arrive (canSubmit : Bool)
  | asleepStart (canSubmit : Bool)
  | awakeStart (canSubmit : Bool)
  | submitNext (messageIndex : ℕ)
  | submitting (messageIndex : ℕ)
  | recordSubmit (failure : E)
  | complete
  | notifyCompletion
  | awaitRelease
  | asleepRelease
  | exited
  deriving DecidableEq, Repr

/-- Where a thread stands in `releaseAndJoin`. -/
inductive ReleasePc
  | release
  | notifyRelease
  | join (next : ℕ)
  deriving DecidableEq, Repr

/-- Where the calling thread stands in `start`. While an exception is under way the threads
are released and joined twice, the second time by the destructor of the group. -/
inductive StartPc (E : Type*)
  | construct
  | launch
  | abortStart (failure : E)
  | abortNotify (failure : E)
  | awaitReady
  | asleepReady
  | notifyStart
  | awaitCompletion
  | asleepCompletion
  | rethrow
  | releaseAndJoin (failure : E) (destructor : Bool) (pc : ReleasePc)
  | returned
  | threw (failure : E)
  deriving DecidableEq, Repr

/-- The members of `ProducerGroup`, the program points of its threads, and the clock.
`launched` is the size of the vector of threads, which has room for `N`. -/
structure ProducerGroup (N : ℕ) (E : Type*) where
  caller : StartPc E := .construct
  workers : Fin N → ProducerPc E := fun _ => .unlaunched
  launched : ℕ := 0
  joined : Fin N → Bool := fun _ => false
  readyWorkers : ℕ := 0
  startWorkers : Bool := false
  completedWorkers : ℕ := 0
  releaseWorkers : Bool := false
  workerFailure : Option E := none
  started : ℤ := 0
  producersDone : ℤ := 0
  now : ℤ := 0
  fits : launched ≤ N

/-- The members when the constructor begins. -/
def ProducerGroup.initial : ProducerGroup N E := { fits := Nat.zero_le N }

/-- What an observer notes. `failed` is an exception of a call, of the creation of a thread
or of the constructor. -/
inductive GroupEvent (N : ℕ) (E : Type*)
  | launched (i : Fin N)
  | prepared (i : Fin N)
  | submitBegan (i : Fin N) (messageIndex : ℕ) (time : ℤ)
  | submitEnded (i : Fin N) (messageIndex : ℕ) (time : ℤ)
  | failed (failure : E)
  | joined (i : Fin N)
  deriving DecidableEq, Repr

inductive GroupAction (N : ℕ) (E : Type*)
  | caller (outcome : Option E)
  | worker (i : Fin N) (outcome : Option E)
  | wakeCaller
  | wakeWorker (i : Fin N)
  | tick (elapsed : ℕ)

/-- The steps of the threads: neither a spurious wakeup nor the clock. -/
def GroupAction.ofThread : GroupAction N E → Bool
  | .caller _ | .worker _ _ => true
  | _ => false

/-! ## Notifications -/

def ProducerPc.notifyStart : ProducerPc E → ProducerPc E
  | .asleepStart canSubmit => .awakeStart canSubmit
  | pc => pc

def ProducerPc.notifyRelease : ProducerPc E → ProducerPc E
  | .asleepRelease => .awaitRelease
  | pc => pc

def StartPc.notifyReady : StartPc E → StartPc E
  | .asleepReady => .awaitReady
  | pc => pc

def StartPc.notifyCompletion : StartPc E → StartPc E
  | .asleepCompletion => .awaitCompletion
  | pc => pc

/-- Where `start` goes on behind a step of `releaseAndJoin`. -/
def StartPc.behindRelease (failure : E) (destructor : Bool) : Option ReleasePc → StartPc E
  | some pc => .releaseAndJoin failure destructor pc
  | none => if destructor then .threw failure else .releaseAndJoin failure true .release

namespace ProducerGroup

/-! ## The workers -/

variable (M : ℕ) (s : ProducerGroup N E)

def goto (i : Fin N) (pc : ProducerPc E) : ProducerGroup N E :=
  { s with workers := Function.update s.workers i pc }

@[simp] theorem goto_workers (i : Fin N) (pc : ProducerPc E) :
    (s.goto i pc).workers = Function.update s.workers i pc := rfl

def recordWorkerFailure (failure : E) : ProducerGroup N E :=
  match s.workerFailure with
  | none => { s with workerFailure := some failure }
  | some _ => s

/-- What the wait on `startCondition_` does with the mutex held, and the way from there. -/
def afterStart (canSubmit : Bool) : ProducerPc E :=
  if s.startWorkers then
    if canSubmit then .submitNext 0 else .complete
  else .asleepStart canSubmit

def afterRelease : ProducerPc E := if s.releaseWorkers then .exited else .asleepRelease

/-- The next step of a worker that is not blocked. -/
def workerLoop (i : Fin N) (outcome : Option E) :
    Option (ProducerGroup N E × List (GroupEvent N E)) :=
  match s.workers i with
  | .prepare =>
    match outcome with
    | none => some (s.goto i (.arrive true), [.prepared i])
    | some failure => some (s.goto i (.recordPrepare failure), [.prepared i, .failed failure])
  | .recordPrepare failure => some ((s.recordWorkerFailure failure).goto i (.arrive false), [])
  | .arrive canSubmit =>
    let s' := { s with
      readyWorkers := s.readyWorkers + 1
      caller := s.caller.notifyReady }
    some (s'.goto i (s'.afterStart canSubmit), [])
  | .awakeStart canSubmit => some (s.goto i (s.afterStart canSubmit), [])
  | .submitNext messageIndex =>
    if messageIndex < M then
      some (s.goto i (.submitting messageIndex), [.submitBegan i messageIndex s.now])
    else some (s.goto i .complete, [])
  | .submitting messageIndex =>
    match outcome with
    | none =>
      some (s.goto i (.submitNext (messageIndex + 1)), [.submitEnded i messageIndex s.now])
    | some failure => some (s.goto i (.recordSubmit failure), [.failed failure])
  | .recordSubmit failure => some ((s.recordWorkerFailure failure).goto i .complete, [])
  | .complete =>
    some ({ s with completedWorkers := s.completedWorkers + 1 }.goto i .notifyCompletion, [])
  | .notifyCompletion =>
    some ({ s with caller := s.caller.notifyCompletion }.goto i .awaitRelease, [])
  | .awaitRelease => some (s.goto i s.afterRelease, [])
  | .unlaunched | .asleepStart _ | .asleepRelease | .exited => none

/-! ## The calling thread -/

/-- `workers_.emplace_back` with a thread that runs. -/
def emplaceBack (h : s.launched < N) : ProducerGroup N E :=
  { s with
    workers := Function.update s.workers ⟨s.launched, h⟩ .prepare
    launched := s.launched + 1
    fits := h }

@[simp] theorem emplaceBack_self (h : s.launched < N) :
    (s.emplaceBack h).workers ⟨s.launched, h⟩ = .prepare := Function.update_self _ _ _

theorem emplaceBack_of_ne (h : s.launched < N) {i : Fin N} (hne : i ≠ ⟨s.launched, h⟩) :
    (s.emplaceBack h).workers i = s.workers i := Function.update_of_ne hne _ _

/-- The next step of `releaseAndJoin`, whichever thread has called it, and the program point
behind it. -/
def releaseAndJoin :
    ReleasePc → Option (ProducerGroup N E × Option ReleasePc × List (GroupEvent N E))
  | .release => some ({ s with releaseWorkers := true }, some .notifyRelease, [])
  | .notifyRelease =>
    some ({ s with workers := fun i => (s.workers i).notifyRelease }, some (.join 0), [])
  | .join next =>
    if h : next < s.launched then
      let i : Fin N := ⟨next, h.trans_le s.fits⟩
      if s.joined i then some (s, some (.join (next + 1)), [])
      else
        match s.workers i with
        | .exited =>
          some ({ s with joined := Function.update s.joined i true },
            some (.join (next + 1)), [.joined i])
        | _ => none
    else some (s, none, [])

/-- The next step of `start` if it is not blocked. -/
def startStep (outcome : Option E) : Option (ProducerGroup N E × List (GroupEvent N E)) :=
  match s.caller with
  | .construct =>
    -- `workers_.reserve` may throw; there is no group to destroy yet.
    match outcome with
    | none => some ({ s with caller := .launch }, [])
    | some failure => some ({ s with caller := .threw failure }, [.failed failure])
  | .launch =>
    if h : s.launched < N then
      match outcome with
      | none => some (s.emplaceBack h, [.launched ⟨s.launched, h⟩])
      | some failure => some ({ s with caller := .abortStart failure }, [.failed failure])
    else some ({ s with caller := .awaitReady }, [])
  | .abortStart failure =>
    some ({ s with startWorkers := true, caller := .abortNotify failure }, [])
  | .abortNotify failure =>
    some ({ s with
      workers := fun i => (s.workers i).notifyStart
      caller := .releaseAndJoin failure false .release }, [])
  | .awaitReady =>
    if s.readyWorkers = N then
      some ({ s with started := s.now, startWorkers := true, caller := .notifyStart }, [])
    else some ({ s with caller := .asleepReady }, [])
  | .notifyStart =>
    some ({ s with
      workers := fun i => (s.workers i).notifyStart
      caller := .awaitCompletion }, [])
  | .awaitCompletion =>
    if s.completedWorkers = N then
      some ({ s with producersDone := s.now, caller := .rethrow }, [])
    else some ({ s with caller := .asleepCompletion }, [])
  | .rethrow =>
    match s.workerFailure with
    | none => some ({ s with caller := .returned }, [])
    | some failure => some ({ s with caller := .releaseAndJoin failure false .release }, [])
  | .releaseAndJoin failure destructor pc =>
    (s.releaseAndJoin pc).map fun (s', next, joins) =>
      ({ s' with caller := .behindRelease failure destructor next }, joins)
  | .asleepReady | .asleepCompletion | .returned | .threw _ => none

/-- What `timing()` tells. -/
def timing : ProducerTiming := ⟨s.started, s.producersDone⟩

/-- `start` has returned or thrown. -/
def Finished : Prop :=
  match s.caller with
  | .returned | .threw _ => True
  | _ => False

/-- A wait ends without a notification. -/
def wakeCaller : Option (ProducerGroup N E) :=
  match s.caller with
  | .asleepReady => some { s with caller := .awaitReady }
  | .asleepCompletion => some { s with caller := .awaitCompletion }
  | _ => none

def wakeWorker (i : Fin N) : Option (ProducerGroup N E) :=
  match s.workers i with
  | .asleepStart canSubmit => some (s.goto i (.awakeStart canSubmit))
  | .asleepRelease => some (s.goto i .awaitRelease)
  | _ => none

end ProducerGroup

/-- The `N` producers, which are to submit `M` messages each, and the thread that starts them. -/
def groupSystem (N M : ℕ) (E : Type*) :
    TransitionSystem (ProducerGroup N E) (GroupAction N E) (GroupEvent N E) where
  step s
    | .caller outcome => s.startStep outcome
    | .worker i outcome => s.workerLoop M i outcome
    | .wakeCaller => s.wakeCaller.map fun s' => (s', [])
    | .wakeWorker i => (s.wakeWorker i).map fun s' => (s', [])
    | .tick elapsed => some ({ s with now := s.now + elapsed }, [])

end CppLogger
