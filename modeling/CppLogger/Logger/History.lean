import CppLogger.Logger.Lifecycle
import CppLogger.Queue.Accounting
import CppLogger.Queue.SingleConsumer

/-!
# What a lifecycle has done

A lifecycle begins when `init` resets the queue. Its history is the list of events since
then; the functions of this module read off what the worker took, what each sink was
handed and which configuration is in force. The queue of the logger is a queue of the
queue system with a single consumer, so the account of its values carries over.
-/

namespace CppLogger

variable {Tid : Type*}

/-! ## Lifecycles -/

def afterLoggerEvent (history : List (LoggerEvent Tid)) :
    LoggerEvent Tid → List (LoggerEvent Tid)
  | .queue _ .reset => []
  | e => history ++ [e]

/-- The events of the current lifecycle. -/
def lifecycle (es : List (LoggerEvent Tid)) : List (LoggerEvent Tid) :=
  es.foldl afterLoggerEvent []

theorem lifecycle_append (es fs : List (LoggerEvent Tid)) :
    lifecycle (es ++ fs) = fs.foldl afterLoggerEvent (lifecycle es) := List.foldl_append

def LoggerEvent.queueEvent : LoggerEvent Tid → Option (QueueEvent (Entry Tid))
  | .queue _ e => some e
  | _ => none

def LoggerEvent.isReset : LoggerEvent Tid → Bool
  | .queue _ .reset => true
  | _ => false

/-- The events of the queue, in the order of its mutex. -/
def queueEvents (es : List (LoggerEvent Tid)) : List (QueueEvent (Entry Tid)) :=
  es.filterMap LoggerEvent.queueEvent

/-- The batches the worker has removed from the queue. -/
def takenBatches (es : List (LoggerEvent Tid)) : List (List (Entry Tid)) :=
  es.filterMap fun
    | .queue _ (.taken vs) => some vs
    | _ => none

/-- The batches that sink `k` has been handed, each with its formatted records. -/
def handedTo (k : ℕ) (es : List (LoggerEvent Tid)) : List (List (Entry Tid) × List Text) :=
  es.filterMap fun
    | .write i batch formattedBatch => if i = k then some (batch, formattedBatch) else none
    | _ => none

def batchesTo (k : ℕ) (es : List (LoggerEvent Tid)) : List (List (Entry Tid)) :=
  (handedTo k es).map Prod.fst

/-- The configurations that have come into force. -/
def configurations (es : List (LoggerEvent Tid)) : List LoggerConfig :=
  es.filterMap fun
    | .configured config => some config
    | _ => none

section Append

variable (es fs : List (LoggerEvent Tid)) (k : ℕ)

@[simp] theorem queueEvents_append : queueEvents (es ++ fs) = queueEvents es ++ queueEvents fs :=
  List.filterMap_append

@[simp] theorem takenBatches_append :
    takenBatches (es ++ fs) = takenBatches es ++ takenBatches fs :=
  List.filterMap_append

@[simp] theorem handedTo_append : handedTo k (es ++ fs) = handedTo k es ++ handedTo k fs :=
  List.filterMap_append

@[simp] theorem batchesTo_append : batchesTo k (es ++ fs) = batchesTo k es ++ batchesTo k fs := by
  simp [batchesTo]

@[simp] theorem configurations_append :
    configurations (es ++ fs) = configurations es ++ configurations fs :=
  List.filterMap_append

end Append

theorem foldl_afterLoggerEvent {history fs : List (LoggerEvent Tid)}
    (h : ∀ e ∈ fs, e.isReset = false) : fs.foldl afterLoggerEvent history = history ++ fs := by
  induction fs generalizing history with
  | nil => simp
  | cons e fs ih =>
    have hstep : afterLoggerEvent history e = history ++ [e] := by
      have he := h e (by simp)
      unfold LoggerEvent.isReset at he
      unfold afterLoggerEvent
      split <;> simp_all
    rw [List.foldl_cons, hstep, ih fun e he => h e (by simp [he])]
    simp

/-- A lifecycle only has events that happened. -/
theorem mem_foldl_afterLoggerEvent {history fs : List (LoggerEvent Tid)} {e : LoggerEvent Tid}
    (h : e ∈ fs.foldl afterLoggerEvent history) : e ∈ history ∨ e ∈ fs := by
  induction fs generalizing history with
  | nil => exact .inl h
  | cons f fs ih =>
    rcases ih h with hold | hnew
    · unfold afterLoggerEvent at hold
      split at hold
      · cases hold
      · rcases List.mem_append.mp hold with hold | hf
        · exact .inl hold
        · exact .inr (by simp [List.mem_singleton.mp hf])
    · exact .inr (List.mem_cons_of_mem _ hnew)

/-- The queue's own view of the current lifecycle. -/
theorem queueEvents_lifecycle (es : List (LoggerEvent Tid)) :
    queueEvents (lifecycle es) = sinceReset (queueEvents es) := by
  suffices ∀ history : List (LoggerEvent Tid), queueEvents (es.foldl afterLoggerEvent history) =
      (queueEvents es).foldl afterEvent (queueEvents history) from this []
  induction es with
  | nil => intro history; rfl
  | cons e es ih =>
    intro history
    rw [List.foldl_cons, ih]
    cases e with
    | queue who e =>
      change _ = (e :: queueEvents es).foldl afterEvent (queueEvents history)
      rw [List.foldl_cons]
      congr 1
      cases e <;> simp [afterLoggerEvent, afterEvent, queueEvents, LoggerEvent.queueEvent]
    | _ =>
      change _ = (queueEvents es).foldl afterEvent (queueEvents history)
      congr 1
      simp [afterLoggerEvent, queueEvents, LoggerEvent.queueEvent]

/-! ## The queue inside the logger -/

variable {s s' : LoggerState Tid} {t : Tid} {ok : Bool} {now : ℤ} {f f' : Frame Tid}
variable {effect : Effect Tid} {es : List (LoggerEvent Tid)} {who : Option Tid}
variable {host : Host Tid} {pc pc' : WorkerPc Tid}

/-- The events of a thread outside the queue. -/
theorem AppMove.queueEvents [Fintype Tid] (h : AppMove s t ok now f f' effect es) :
    queueEvents es = [] ∧ takenBatches es = [] ∧ (∀ k, handedTo k es = []) ∧
      ∀ e ∈ es, e.isReset = false := by
  cases h <;> simp [CppLogger.queueEvents, takenBatches, handedTo, LoggerEvent.queueEvent,
    LoggerEvent.isReset]

theorem WorkerMove.queueEvents (h : WorkerMove host s ok now pc pc' effect es) :
    queueEvents es = [] ∧ takenBatches es = [] ∧ configurations es = [] ∧
      ∀ e ∈ es, e.isReset = false := by
  cases h <;> simp [CppLogger.queueEvents, takenBatches, configurations, LoggerEvent.queueEvent,
    LoggerEvent.isReset]

theorem AppMove.disciplined [Fintype Tid] (h : AppMove s t ok now f f' effect es)
    {op : QueueOp (Entry Tid)} (hop : effect = .call op) : op.maxTaken = none := by
  cases h <;> cases hop <;> rfl

theorem WorkerMove.disciplined (h : WorkerMove host s ok now pc pc' effect es)
    {op : QueueOp (Entry Tid)} (hop : effect = .call op) : op ≠ .pop := by
  cases h <;> cases hop <;> simp

variable [Fintype Tid] [DecidableEq Tid]

/-- An effect is a step of the queue, or does not concern it. -/
theorem apply_step (h : s.apply who effect = some s') :
    s'.queues = s.queues ∨ (∃ op, effect = .call op ∧
        s.queues.step (.call who op) = some (s'.queues, [])) ∨
      effect = .ret ∧ s.queues.step (.ret who) = some (s'.queues, []) := by
  cases effect <;> simp only [LoggerState.apply, Option.some.injEq, Option.map_eq_some_iff] at h
  case call op =>
    obtain ⟨⟨queues, qes⟩, hr, rfl⟩ := h
    have hnil : qes = [] := by
      cases step_move hr with
      | call => rfl
    exact .inr (.inl ⟨op, rfl, hnil ▸ hr⟩)
  case ret =>
    obtain ⟨⟨queues, qes⟩, hr, rfl⟩ := h
    have hnil : qes = [] := by
      cases step_move hr with
      | ret => rfl
    exact .inr (.inr ⟨rfl, hnil ▸ hr⟩)
  all_goals subst h; exact .inl rfl

/-- Every run of the logger is a run of its queue. -/
theorem logger_projects (host : Host Tid) (P : LoggerState Tid → LoggerAction Tid → Prop) :
    TransitionSystem.Projects (loggerSystem host) (queueSystem (Entry Tid) (Option Tid)) P
      Disciplined LoggerState.queues LoggerEvent.queueEvent := by
  intro s a s' es _ hstep
  cases loggerStep_move hstep with
  | begin request hidle =>
    refine .inl ⟨rfl, ?_⟩
    split_ifs <;> rfl
  | @app t ok now next effect es s₁ hmove heffect =>
    have hes : es.filterMap LoggerEvent.queueEvent = [] := hmove.queueEvents.1
    rw [hes]
    rcases apply_step heffect with hq | ⟨op, hop, hq⟩ | ⟨-, hq⟩
    · exact .inl ⟨hq, rfl⟩
    · exact .inr ⟨.call (some t) op, by simp [Disciplined, hmove.disciplined hop], hq⟩
    · exact .inr ⟨.ret (some t), trivial, hq⟩
  | work hmove heffect =>
    have hes : es.filterMap LoggerEvent.queueEvent = [] := hmove.queueEvents.1
    rw [hes]
    rcases apply_step heffect with hq | ⟨op, hop, hq⟩ | ⟨-, hq⟩
    · exact .inl ⟨hq, rfl⟩
    · exact .inr ⟨.call none op, fun _ => ⟨rfl, hmove.disciplined hop⟩, hq⟩
    · exact .inr ⟨.ret none, trivial, hq⟩
  | @queue a queues qes ha hqstep =>
    have hes : (qes.map (LoggerEvent.queue a.actor)).filterMap LoggerEvent.queueEvent = qes := by
      rw [List.filterMap_map]
      exact List.filterMap_some
    rw [hes]
    refine .inr ⟨a, ?_, hqstep⟩
    cases a <;> trivial

/-- The account of the current lifecycle's values. -/
theorem lifecycle_accounted {P : LoggerState Tid → LoggerAction Tid → Prop}
    (h : (loggerSystem host).Run P .initial es s) :
    Accounted (queueEvents (lifecycle es)) s.queue := by
  rw [queueEvents_lifecycle]
  exact reaches_accounted (TransitionSystem.Run.project _ _ (logger_projects host P) h).reaches

end CppLogger
