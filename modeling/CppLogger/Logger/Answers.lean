import CppLogger.Logger.Delivery

/-!
# Every log call is answered

When no allocation of it fails, a log call that has passed its checks is on its way to the
queue or has an answer from it. The answer is `Closed` only when the queue has been closed
in the same lifecycle, and then by a `stop`.
-/

namespace CppLogger

variable {Tid : Type*}

/-- A log call is about to copy its arguments into a record. -/
def Frame.capturing : Frame Tid → Bool
  | .logCapture _ _ => true
  | _ => false

/-- No sink throws, and no allocation of a log call, of the queue or of the worker fails. -/
def Undisturbed (s : LoggerState Tid) : LoggerAction Tid → Prop
  | .app t ok _ => (s.frames t).capturing = true → ok = true
  | .work ok _ => ok = true
  | .queue (.run _ alloc _) => alloc = true
  | _ => True

instance (s : LoggerState Tid) (a : LoggerAction Tid) : Decidable (Undisturbed s a) :=
  match a with
  | .app _ _ _ => inferInstanceAs (Decidable (_ → _))
  | .work _ _ => inferInstanceAs (Decidable (_ = _))
  | .queue a =>
    match a with
    | .run _ _ _ => inferInstanceAs (Decidable (_ = _))
    | .call _ _ | .notify _ _ | .wake _ | .timeout _ | .ret _ => .isTrue trivial
  | .begin _ _ => .isTrue trivial

/-- The generation that a log call carries. -/
def Frame.expectedGeneration : Frame Tid → Option ℕ
  | .logCapture _ g | .logPush g _ => some g
  | _ => none

/-- A log call has seen `running_` and not yet compared its level. -/
def Frame.leveling : Frame Tid → Bool
  | .logLevel _ => true
  | _ => false

/-- A `stop` that closes the queue or has closed it. -/
def Frame.closes : Frame Tid → Bool
  | .stopCloseQueue | .stopClosing | .stopJoin | .stopSinks _ => true
  | _ => false

/-- An `init` that has reset the queue and not yet made a worker, nor given up. -/
def Frame.launching (past : Bool) : Frame Tid → Bool
  | .initResetting _ => past
  | .initConfigure _ | .initRunning | .initSpawn | .initUnspawn | .initCloseQueue
  | .initClosing => true
  | _ => false

/-- The log call has not pushed its record yet. -/
def LoggerState.Unanswered (s : LoggerState Tid) (ticket : ℕ) : Prop :=
  ∃ t, (s.frames t).ticket = some ticket ∧
    ((s.frames t).pushing = true → s.waits (some t) = true)

/-- The queue has answered the log call. -/
def HasAnswer (history : List (LoggerEvent Tid)) (closed : Bool) (ticket : ℕ) : Prop :=
  ∃ entry result, .pushed entry result ∈ queueEvents history ∧ entry.ticket = ticket ∧
    (result = .Closed → closed = true)

/-- The invariant of the answers. -/
structure Answered (history : List (LoggerEvent Tid)) (s : LoggerState Tid) : Prop where
  stale : ∀ t g τ, (s.frames t).expectedGeneration = some g → g ≠ s.queue.generation →
    (s.frames t).ticket = some τ → τ ∉ passedTickets history
  answered : ∀ τ ∈ passedTickets history, s.Unanswered τ ∨ HasAnswer history s.queue.closed τ
  closers : s.queue.closed = true → (∃ t, .stopReturned t ∈ history) ∨
    (∃ t, (s.frames t).closes = true) ∨
    s.running = false ∧ (∀ t, (s.frames t).leveling = false) ∧ passedTickets history = []
  launching : ∀ t, (s.frames t).launching (s.past (some t)) = true → passedTickets history = []

variable {history history' : List (LoggerEvent Tid)} {host : Host Tid}
variable {s s' : LoggerState Tid} {t u : Tid} {ok : Bool} {now : ℤ} {f f' : Frame Tid}
variable {effect : Effect Tid} {es : List (LoggerEvent Tid)} {pc' : WorkerPc Tid}

theorem Answered.initial : Answered [] (LoggerState.initial : LoggerState Tid) where
  stale := by rintro t g τ ⟨⟩
  answered := by rintro τ ⟨⟩
  closers := by rintro ⟨⟩
  launching := by rintro t ⟨⟩

theorem HasAnswer.mono {closed closed' : Bool} {ticket : ℕ} (h : HasAnswer history closed ticket)
    (hsub : history ⊆ history') (hclosed : closed = true → closed' = true) :
    HasAnswer history' closed' ticket := by
  obtain ⟨entry, result, hpushed, hticket, hresult⟩ := h
  refine ⟨entry, result, ?_, hticket, fun hr => hclosed (hresult hr)⟩
  obtain ⟨e, he, heq⟩ := List.mem_filterMap.mp hpushed
  exact List.mem_filterMap.mpr ⟨e, hsub he, heq⟩

theorem Frame.launching_exclusive {past : Bool} (h : f.launching past = true) :
    f.exclusive = true := by
  cases f <;> first | rfl | cases h

/-! ## Application threads -/

/-- What a step of a thread means for its own log call. -/
structure AnswerStep (s : LoggerState Tid) (f f' : Frame Tid) (effect : Effect Tid)
    (es : List (LoggerEvent Tid)) (t : Tid) : Prop where
  carries : ∀ g, f'.expectedGeneration = some g → passedTickets es = [] ∧
    (f.expectedGeneration = some g ∧ f'.ticket = f.ticket ∨ g = s.queue.generation)
  keeps : f.checked = true → f'.ticket = f.ticket ∧
      (f'.pushing = true → ∃ op, effect = .call op) ∨
    ∃ op r, s.call (some t) = some ⟨op, .ret r⟩ ∧ f.pushing = true
  levels : f'.leveling = true → s.running = true
  passes : passedTickets es ≠ [] → f.leveling = true
  launches : ∀ past, f'.launching past = true →
    f.launching (s.past (some t)) = true ∨ past = true ∧ effect.onPast (s.past (some t)) = false

theorem AppMove.answerStep [Fintype Tid] (h : AppMove s t ok now f f' effect es)
    (hok : f.capturing = true → ok = true) : AnswerStep s f f' effect es t := by
  cases h <;> constructor <;>
    simp_all [Frame.expectedGeneration, Frame.ticket, Frame.checked, Frame.pushing,
      Frame.leveling, Frame.launching, Frame.capturing, passedTickets, LoggerState.past,
      Effect.onPast, Call.entered]

theorem AppMove.closes [Fintype Tid] (h : AppMove s t ok now f f' effect es)
    (hf : f.closes = true) : f'.closes = true ∨ .stopReturned t ∈ es := by
  cases h <;> simp_all [Frame.closes]

variable [Fintype Tid] [DecidableEq Tid]

omit [Fintype Tid] in
theorem Answered.begin (h : Answered history s) (hidle : s.frames t = .idle) (request : Request) :
    Answered (history ++ if request = .stop then [.stopCalled t] else [])
      { s with
        frames := Function.update s.frames t (request.frame s.tickets)
        tickets := s.tickets + 1 } := by
  have hnew : ∀ past, (request.frame s.tickets : Frame Tid).expectedGeneration = none ∧
      (request.frame s.tickets : Frame Tid).leveling = false ∧
      (request.frame s.tickets : Frame Tid).launching past = false := by
    intro past
    cases request <;> exact ⟨rfl, rfl, rfl⟩
  have hpassed : passedTickets (history ++ if request = .stop then [.stopCalled t] else []) =
      passedTickets history := by
    split_ifs <;> simp [passedTickets]
  refine ⟨fun u g τ hg => ?_, fun τ hτ => ?_, fun hclosed => ?_, fun u hu => ?_⟩
  · rw [hpassed]
    dsimp only at hg ⊢
    by_cases hut : u = t
    · subst hut
      rw [Function.update_self, (hnew true).1] at hg
      cases hg
    · rw [Function.update_of_ne hut] at hg ⊢
      exact h.stale u g τ hg
  · rw [hpassed] at hτ
    rcases h.answered τ hτ with ⟨u, hticket, hwaits⟩ | hanswer
    · refine .inl ⟨u, ?_⟩
      have hut : u ≠ t := by
        rintro rfl
        rw [hidle] at hticket
        cases hticket
      dsimp only
      rw [Function.update_of_ne hut]
      exact ⟨hticket, hwaits⟩
    · exact .inr (hanswer.mono subset_append_left id)
  · rw [hpassed]
    rcases h.closers hclosed with ⟨u, hu⟩ | ⟨u, hu⟩ | ⟨hr, hlevel, hnone⟩
    · exact .inl ⟨u, List.mem_append_left _ hu⟩
    · exact .inr (.inl (exists_update ⟨u, hu⟩ (by simp [hidle, Frame.closes])))
    · refine .inr (.inr ⟨hr, fun u => ?_, hnone⟩)
      dsimp only
      by_cases hut : u = t
      · subst hut
        rw [Function.update_self]
        exact (hnew true).2.1
      · rw [Function.update_of_ne hut]
        exact hlevel u
  · rw [hpassed]
    dsimp only at hu
    by_cases hut : u = t
    · subst hut
      rw [Function.update_self, (hnew _).2.2] at hu
      cases hu
    · rw [Function.update_of_ne hut] at hu
      exact h.launching u hu

omit [DecidableEq Tid] in
theorem AppMove.passes (h : AppMove s t ok now f f' effect es) :
    passedTickets es = [] ∨ ∃ τ, passedTickets es = [τ] ∧ f.ticket = some τ ∧ f.shared = true ∧
      f'.ticket = some τ ∧ f'.pushing = false := by
  cases h with
  | passed => exact .inr ⟨_, rfl, rfl, rfl, rfl, rfl⟩
  | _ => exact .inl rfl

/-- The other calls stay where they are. -/
theorem others_stay {g : Frame Tid} (heffect : s.apply (some t) effect = some s') (hut : u ≠ t) :
    Function.update s'.frames t g u = s.frames u ∧ s'.call (some u) = s.call (some u) :=
  ⟨by rw [Function.update_of_ne hut, apply_frames heffect],
    apply_call_other heffect (by simpa using hut)⟩

omit [DecidableEq Tid] in
/-- A call passes its checks in its own thread only. -/
theorem Ticketed.passed_other (h : Ticketed history s)
    (hmove : AppMove s t ok now (s.frames t) f' effect es) (hut : u ≠ t) {τ : ℕ}
    (hticket : (s.frames u).ticket = some τ) : τ ∉ passedTickets es := by
  intro hτ
  rcases hmove.passes with hnone | ⟨τ', heq, hticket', -⟩
  · rw [hnone] at hτ
    cases hτ
  · rw [heq, List.mem_singleton] at hτ
    subst hτ
    exact hut (h.unique u t τ hticket hticket')

theorem Answered.stale_app (h : Answered history s) (hticketed : Ticketed history s)
    (hmove : AppMove s t ok now (s.frames t) f' effect es)
    (hstep : AnswerStep s (s.frames t) f' effect es t)
    (heffect : s.apply (some t) effect = some s') {g τ : ℕ}
    (hg : (Function.update s'.frames t f' u).expectedGeneration = some g)
    (hne : g ≠ s'.queue.generation)
    (hticket : (Function.update s'.frames t f' u).ticket = some τ) :
    τ ∉ passedTickets (history ++ es) := by
  have hqueue : s'.queue = s.queue := (apply_queues heffect).1
  rw [hqueue] at hne
  rw [passedTickets_append]
  by_cases hut : u = t
  · subst hut
    rw [Function.update_self] at hg hticket
    obtain ⟨hnone, ⟨hold, hsame⟩ | heq⟩ := hstep.carries g hg
    · rw [hnone, List.append_nil]
      exact h.stale u g τ hold hne (hsame ▸ hticket)
    · exact absurd heq hne
  · rw [(others_stay heffect hut).1] at hg hticket
    intro hτ
    rcases List.mem_append.mp hτ with hold | hnew
    · exact h.stale u g τ hg hne hticket hold
    · exact hticketed.passed_other hmove hut hticket hnew

/-- A call that has not pushed stays with its thread until the queue has answered it. -/
theorem unanswered_app (hticketed : Ticketed history s)
    (hstep : AnswerStep s (s.frames t) f' effect es t)
    (heffect : s.apply (some t) effect = some s') {τ : ℕ} (hτ : τ ∈ passedTickets history)
    (hunanswered : s.Unanswered τ) :
    LoggerState.Unanswered { s' with frames := Function.update s'.frames t f' } τ := by
  obtain ⟨u, hticket, hwait⟩ := hunanswered
  refine ⟨u, ?_⟩
  change (Function.update s'.frames t f' u).ticket = _ ∧
    ((Function.update s'.frames t f' u).pushing = true → s'.waits (some u) = true)
  by_cases hut : u = t
  · subst hut
    rw [Function.update_self]
    rcases hstep.keeps ((hticketed.passed τ hτ).2 u hticket) with ⟨hsame, hcall⟩ |
      ⟨op, r, hret, hpush⟩
    · refine ⟨hsame.trans hticket, fun hp => ?_⟩
      obtain ⟨op, rfl⟩ := hcall hp
      rw [LoggerState.waits, apply_call_self heffect]
      rfl
    · have hwaits := hwait hpush
      rw [LoggerState.waits, hret] at hwaits
      cases hwaits
  · obtain ⟨hframe, hcall⟩ := others_stay (g := f') heffect hut
    rw [hframe, LoggerState.waits, hcall]
    exact ⟨hticket, hwait⟩

theorem Answered.answered_app (h : Answered history s) (hticketed : Ticketed history s)
    (hmove : AppMove s t ok now (s.frames t) f' effect es)
    (hstep : AnswerStep s (s.frames t) f' effect es t)
    (heffect : s.apply (some t) effect = some s') {τ : ℕ}
    (hτ : τ ∈ passedTickets (history ++ es)) :
    LoggerState.Unanswered { s' with frames := Function.update s'.frames t f' } τ ∨
      HasAnswer (history ++ es) s'.queue.closed τ := by
  have hqueue : s'.queue = s.queue := (apply_queues heffect).1
  rw [hqueue]
  rw [passedTickets_append, List.mem_append] at hτ
  rcases hτ with hold | hnew
  · rcases h.answered τ hold with hunanswered | hanswer
    · exact .inl (unanswered_app hticketed hstep heffect hold hunanswered)
    · exact .inr (hanswer.mono subset_append_left id)
  · rcases hmove.passes with hnone | ⟨τ', heq, -, -, hticket, hpushing⟩
    · rw [hnone] at hnew
      cases hnew
    · rw [heq, List.mem_singleton] at hnew
      subst hnew
      refine .inl ⟨t, ?_⟩
      dsimp only
      rw [Function.update_self]
      exact ⟨hticket, by simp [hpushing]⟩

/-- A closed queue has its `stop`, or nobody logs in this lifecycle. -/
theorem Answered.closers_app (h : Answered history s) (hcoh : Coherent s)
    (hmove : AppMove s t ok now (s.frames t) f' effect es)
    (hstep : AnswerStep s (s.frames t) f' effect es t)
    (heffect : s.apply (some t) effect = some s') (hclosed : s'.queue.closed = true) :
    (∃ u, .stopReturned u ∈ history ++ es) ∨
      (∃ u, (Function.update s'.frames t f' u).closes = true) ∨
      s'.running = false ∧ (∀ u, (Function.update s'.frames t f' u).leveling = false) ∧
        passedTickets (history ++ es) = [] := by
  have hqueue : s'.queue = s.queue := (apply_queues heffect).1
  rw [hqueue] at hclosed
  rcases h.closers hclosed with ⟨u, hu⟩ | ⟨u, hu⟩ | ⟨hr, hlevel, hnone⟩
  · exact .inl ⟨u, List.mem_append_left _ hu⟩
  · by_cases hut : u = t
    · subst hut
      rcases hmove.closes hu with hstill | hreturned
      · refine .inr (.inl ⟨u, ?_⟩)
        rwa [Function.update_self]
      · exact .inl ⟨u, List.mem_append_right _ hreturned⟩
    · refine .inr (.inl ⟨u, ?_⟩)
      rwa [(others_stay heffect hut).1]
  · refine .inr (.inr ⟨?_, fun u => ?_, ?_⟩)
    · have hrunning : s'.running = (effect.onView s.view).running :=
        congrArg View.running (apply_view heffect)
      by_contra hr'
      have hopen := hmove.runningOpen (hcoh.frames t) hcoh.runningOpen
        (by simpa [← hrunning] using hr')
      simp [hclosed] at hopen
    · by_cases hut : u = t
      · subst hut
        rw [Function.update_self]
        by_contra hl
        have hrunning := hstep.levels (by simpa using hl)
        simp [hr] at hrunning
      · rw [(others_stay heffect hut).1]
        exact hlevel u
    · rw [passedTickets_append, hnone]
      by_contra hp
      have hleveling := hstep.passes (by simpa using hp)
      simp [hlevel t] at hleveling

/-- While `init` launches a lifecycle, no call passes its checks. -/
theorem Answered.calm_app (h : Answered history s) (hcoh : Coherent s)
    (hmove : AppMove s t ok now (s.frames t) f' effect es)
    (hu : (s.frames u).launching (s.past (some u)) = true) : passedTickets (history ++ es) = [] := by
  rw [passedTickets_append, h.launching u hu, List.nil_append]
  have hexclusive := Frame.launching_exclusive hu
  rcases hmove.passes with hnone | ⟨τ, -, -, hshared, -⟩
  · exact hnone
  · by_cases hut : u = t
    · subst hut
      revert hexclusive hshared
      cases s.frames u <;> simp [Frame.exclusive, Frame.shared]
    · simp [(hcoh.exclusion u t hut hexclusive).2] at hshared

theorem Answered.launching_app (h : Answered history s) (hcoh : Coherent s)
    (hmove : AppMove s t ok now (s.frames t) f' effect es)
    (hstep : AnswerStep s (s.frames t) f' effect es t)
    (heffect : s.apply (some t) effect = some s')
    (hu : (Function.update s'.frames t f' u).launching (s'.past (some u)) = true) :
    passedTickets (history ++ es) = [] := by
  by_cases hut : u = t
  · subst hut
    rw [Function.update_self, (apply_queues heffect).2.2.2] at hu
    rcases hstep.launches _ hu with hbefore | ⟨hpast, hpast'⟩
    · exact h.calm_app hcoh hmove hbefore
    · simp [hpast] at hpast'
  · obtain ⟨hframe, hcall⟩ := others_stay (g := f') heffect hut
    have hpast : s'.past (some u) = s.past (some u) := by
      unfold LoggerState.past
      rw [hcall]
    rw [hframe, hpast] at hu
    exact h.calm_app hcoh hmove hu

theorem Answered.app (h : Answered history s) (hcoh : Coherent s) (hticketed : Ticketed history s)
    (hmove : AppMove s t ok now (s.frames t) f' effect es)
    (hok : (s.frames t).capturing = true → ok = true)
    (heffect : s.apply (some t) effect = some s') :
    Answered (history ++ es) { s' with frames := Function.update s'.frames t f' } where
  stale _ _ _ := h.stale_app hticketed hmove (hmove.answerStep hok) heffect
  answered _ := h.answered_app hticketed hmove (hmove.answerStep hok) heffect
  closers := h.closers_app hcoh hmove (hmove.answerStep hok) heffect
  launching _ := h.launching_app hcoh hmove (hmove.answerStep hok) heffect

/-! ## The worker and the queue -/

theorem Answered.work (h : Answered history s)
    (hmove : WorkerMove host s ok now s.worker pc' effect es)
    (heffect : s.apply none effect = some s') :
    Answered (history ++ es) { s' with worker := pc' } := by
  have hframes : s'.frames = s.frames := apply_frames heffect
  have hqueue : s'.queue = s.queue := (apply_queues heffect).1
  have hcall : ∀ u, s'.call (some u) = s.call (some u) := fun u =>
    apply_call_other heffect (by simp)
  have hpassed : passedTickets (history ++ es) = passedTickets history := by
    rw [passedTickets_append, hmove.callEvents.1, List.append_nil]
  refine ⟨fun u g τ hg hne hticket => ?_, fun τ hτ => ?_, fun hclosed => ?_, fun u hu => ?_⟩
  · change g ≠ s'.queue.generation at hne
    rw [hpassed]
    simp only [hframes, hqueue] at hg hne hticket
    exact h.stale u g τ hg hne hticket
  · change _ ∨ HasAnswer _ s'.queue.closed τ
    rw [hpassed] at hτ
    rw [hqueue]
    rcases h.answered τ hτ with ⟨u, hticket, hwait⟩ | hanswer
    · refine .inl ⟨u, ?_⟩
      change (s'.frames u).ticket = _ ∧ ((s'.frames u).pushing = true → s'.waits (some u) = true)
      rw [LoggerState.waits, hframes, hcall]
      exact ⟨hticket, hwait⟩
    · exact .inr (hanswer.mono subset_append_left id)
  · change s'.queue.closed = true at hclosed
    rw [hqueue] at hclosed
    rw [hpassed]
    simp only [hframes]
    rcases h.closers hclosed with ⟨u, hu⟩ | hu | ⟨hr, hlevel, hnone⟩
    · exact .inl ⟨u, List.mem_append_left _ hu⟩
    · exact .inr (.inl hu)
    · refine .inr (.inr ⟨?_, hlevel, hnone⟩)
      have hrunning : s'.running = (effect.onView s.view).running :=
        congrArg View.running (apply_view heffect)
      rw [hrunning]
      rcases (hmove.onView s.view).2.2.1 with heq | heq <;> rw [heq]
      exact hr
  · change (s'.frames u).launching (s'.past (some u)) = true at hu
    rw [LoggerState.past, hframes, hcall] at hu
    rw [hpassed]
    exact h.launching u hu

section QueueSteps

variable {a : QueueAction (Entry Tid) (Option Tid)}
variable {queues : QueueState (Entry Tid) (Option Tid)} {qes : List (QueueEvent (Entry Tid))}

/-- A section of a push without allocation failures answers, or puts the thread to sleep. -/
theorem Outcome.answers {T : Type*} {q : BlockingQueue T} {op : QueueOp T} {st : Stage T}
    {sec : Section T} (h : Outcome q true op st sec) (hfit : Fits op st) {g : ℕ} {v : T}
    (hop : op = .push (some g) v) (hg : g = q.generation) :
    Call.waiting ⟨op, sec.stage⟩ = true ∨
      ∃ r, .pushed v r ∈ sec.events ∧ (r = .Closed → q.closed = true) := by
  cases h with
  | @rejected e v' st expected hout hst =>
    cases hop
    refine .inr ⟨.Closed, by simp, fun _ => hout.resolve_right ?_⟩
    rw [not_not, ← hg]
    rcases hst with ⟨-, rfl⟩ | rfl
    · rfl
    · cases hfit with
      | notFullWait _ hown => exact (Option.some.inj (hown.resolve_left (by simp))).symm
  | sleepsFull => exact .inl rfl
  | enqueued =>
    cases hop
    exact .inr ⟨.Enqueued, by simp, by simp⟩
  | droppedNewest =>
    cases hop
    exact .inr ⟨.DroppedNewest, by simp, by simp⟩
  | droppedOldest =>
    cases hop
    exact .inr ⟨.DroppedOldest, by simp, by simp⟩
  | pushThrew _ _ _ halloc | abandoned _ _ _ _ halloc => cases halloc
  | zeroBatch hbatch => rcases hbatch with rfl | ⟨timeout, rfl⟩ <;> cases hop
  | ended hmax | took hmax | popThrew hmax | sleepsEmpty hmax =>
    subst hop
    cases hmax
  | timedOut | closes | resets => cases hop

omit [Fintype Tid] [DecidableEq Tid] in
/-- A frame that waits for its push. -/
theorem Frame.pushing_cases (h : f.pushing = true) :
    ∃ g entry, f = .logPush g entry ∧ f.ticket = some entry.ticket ∧
      f.expectedGeneration = some g := by
  cases f <;> first | exact ⟨_, _, rfl, rfl, rfl⟩ | cases h

theorem Answered.answered_queue (h : Answered history s) (hcoh : Coherent s)
    (ha : a.internal = true) (halloc : a.allocates = true)
    (hstep : s.queues.step a = some (queues, qes)) (hreset : .reset ∉ qes) {τ : ℕ}
    (hτ : τ ∈ passedTickets history) (hmono : s.queue.closed = true → queues.queue.closed = true) :
    LoggerState.Unanswered { s with queues := queues } τ ∨
      HasAnswer (history ++ qes.map (LoggerEvent.queue a.actor)) queues.queue.closed τ := by
  rcases h.answered τ hτ with ⟨u, hticket, hwait⟩ | hanswer
  · by_cases hpush : (s.frames u).pushing = true
    · rcases still_waiting hstep ha (hwait hpush) with ⟨alloc, expired, rfl⟩ | hstill
      · obtain ⟨g, entry, hu, hticket', hg⟩ := Frame.pushing_cases hpush
        obtain rfl : alloc = true := halloc
        cases step_move hstep with
        | @run _ _ _ c sec hc hsec =>
          have hop : c.op = .push (some g) entry := by
            have hframe := hcoh.op_frame hc
            rw [hu] at hframe
            exact (Option.some.inj hframe).symm
          have hcurrent : g = s.queue.generation := by
            by_contra hne
            exact h.stale u g τ hg hne hticket hτ
          rcases hsec.answers (hcoh.fitting _ _ hc) hop hcurrent with hst | ⟨r, hr, hclosed⟩
          · refine .inl ⟨u, hticket, fun _ => ?_⟩
            simpa [LoggerState.waits, LoggerState.call] using hst
          · refine .inr ⟨entry, r, ?_, ?_, fun hr => hmono (hclosed hr)⟩
            · rw [queueEvents_append, queueEvents_map]
              exact List.mem_append_right _ hr
            · exact Option.some.inj (hticket'.symm.trans hticket)
      · exact .inl ⟨u, hticket, fun _ => hstill⟩
    · exact .inl ⟨u, hticket, fun hp => absurd hp hpush⟩
  · exact .inr (hanswer.mono subset_append_left hmono)

/-- Within a lifecycle the queue is closed by a `stop`, or by an `init` that gives up. -/
theorem Answered.closers_queue (h : Answered history s) (hcoh : Coherent s)
    (ha : a.internal = true) (hworker : ∀ final, s.worker ≠ .closing final)
    (hstep : s.queues.step a = some (queues, qes)) (hreset : .reset ∉ qes)
    (hclosed : queues.queue.closed = true) :
    (∃ t, .stopReturned t ∈ history) ∨ (∃ t, (s.frames t).closes = true) ∨
      s.running = false ∧ (∀ t, (s.frames t).leveling = false) ∧ passedTickets history = [] := by
  by_cases hold : s.queue.closed = true
  · exact h.closers hold
  cases step_move hstep with
  | call | ret => cases ha
  | notify | wake | timeout => exact absurd hclosed hold
  | @run who alloc expired c sec hc hsec =>
    rcases hsec.closed_generation with ⟨hop, -⟩ | ⟨capacity, policy, hop, hopen, -⟩ |
      ⟨-, -, hsame, -⟩
    · cases who with
      | none =>
        rcases WorkerPc.queueOp_cases (hcoh.op_worker hc) with ⟨-, -, -, hmax⟩ | ⟨final, hpc, -⟩
        · rw [hop] at hmax
          cases hmax
        · exact absurd hpc (hworker final)
      | some t =>
        have hsound := hcoh.frames t
        rcases Frame.queueOp_cases (hcoh.op_frame hc) with ⟨g, entry, -, hop'⟩ | ⟨config, -, hop'⟩ |
          ⟨hinit | hstop, -⟩
        · rw [hop] at hop'
          cases hop'
        · rw [hop] at hop'
          cases hop'
        · have hl := h.launching t
          rw [hinit] at hl hsound
          refine .inr (.inr ⟨hsound.1, fun u => ?_, hl rfl⟩)
          by_cases hut : u = t
          · rw [hut, hinit]
            rfl
          · have hshared := (hcoh.exclusion t u (Ne.symm hut) (by rw [hinit]; rfl)).2
            revert hshared
            cases s.frames u <;> simp [Frame.shared, Frame.leveling]
        · exact .inr (.inl ⟨t, by rw [hstop]; rfl⟩)
    · rw [hopen] at hclosed
      cases hclosed
    · rw [hsame] at hclosed
      exact absurd hclosed hold

omit [Fintype Tid] in
/-- Over the steps of a lifecycle the generation stays, and a closed queue stays closed. -/
theorem lifecycle_step {T Who : Type*} [Fintype Who] [DecidableEq Who] {q q' : QueueState T Who}
    {a : QueueAction T Who} {qes : List (QueueEvent T)} (hstep : q.step a = some (q', qes))
    (hreset : .reset ∉ qes) :
    q'.queue.generation = q.queue.generation ∧ (q.queue.closed = true → q'.queue.closed = true) := by
  rcases step_queue hstep with ⟨heq, -⟩ | ⟨alloc, op, st, sec, hsec, heq, hes⟩
  · rw [heq]
    exact ⟨rfl, id⟩
  · rw [heq]
    rcases hsec.closed_generation with ⟨-, hclosed, hgen⟩ | ⟨capacity, policy, rfl, -⟩ |
      ⟨-, -, hclosed, hgen⟩
    · exact ⟨hgen, fun _ => hclosed⟩
    · exact absurd (by simp [hes, hsec.of_reset]) hreset
    · exact ⟨hgen, fun h => hclosed.trans h⟩

theorem Answered.queue_extend (h : Answered history s) (hcoh : Coherent s)
    (ha : a.internal = true) (halloc : a.allocates = true)
    (hworker : ∀ final, s.worker ≠ .closing final)
    (hstep : s.queues.step a = some (queues, qes)) (hreset : .reset ∉ qes) :
    Answered (history ++ qes.map (LoggerEvent.queue a.actor)) { s with queues := queues } := by
  obtain ⟨hgen, hmono⟩ := lifecycle_step hstep hreset
  have hpassed : passedTickets (history ++ qes.map (LoggerEvent.queue a.actor)) =
      passedTickets history := by
    rw [passedTickets_append, (queue_callEvents a.actor qes).1, List.append_nil]
  refine ⟨fun u g τ hg hne => ?_, fun τ hτ => ?_, fun hclosed => ?_, fun u hu => ?_⟩
  · change g ≠ queues.queue.generation at hne
    rw [hgen] at hne
    rw [hpassed]
    exact h.stale u g τ hg hne
  · rw [hpassed] at hτ
    exact h.answered_queue hcoh ha halloc hstep hreset hτ hmono
  · rw [hpassed]
    rcases h.closers_queue hcoh ha hworker hstep hreset hclosed with ⟨u, hu⟩ | hrest
    · exact .inl ⟨u, List.mem_append_left _ hu⟩
    · exact .inr hrest
  · rw [hpassed]
    refine h.launching u ?_
    change (s.frames u).launching ((queues.calls (some u)).any Call.entered) = true at hu
    rcases (internal_step hstep ha (some u)).2 with hsame | ⟨⟨alloc, expired, rfl⟩, -⟩
    · rwa [hsame] at hu
    · cases step_move hstep with
      | @run _ _ _ c sec hc hsec =>
        cases hf : s.frames u with
        | initResetting config =>
          have hop := hcoh.op_frame hc
          rw [hf] at hop
          obtain ⟨op, st⟩ := c
          cases hop
          exact absurd (by simp [hsec.of_reset]) hreset
        | _ =>
          rw [hf] at hu
          exact hu

theorem Answered.queue_step (h : Answered history s) (hcoh : Coherent s)
    (ha : a.internal = true) (halloc : a.allocates = true)
    (hworker : ∀ final, s.worker ≠ .closing final)
    (hstep : s.queues.step a = some (queues, qes)) :
    Answered ((qes.map (LoggerEvent.queue a.actor)).foldl afterLoggerEvent history)
      { s with queues := queues } := by
  by_cases hreset : .reset ∈ qes
  · have hopen : qes = [.reset] ∧ queues.queue.closed = false := by
      rcases step_queue hstep with ⟨-, rfl⟩ | ⟨alloc, op, st, sec, hsec, heq, rfl⟩
      · cases hreset
      · rcases hsec.reset_events with ⟨capacity, policy, rfl, hes⟩ | hnot
        · rcases hsec.closed_generation with ⟨hop, -⟩ | ⟨_, _, -, hopen, -⟩ | ⟨-, hnot, -⟩
          · cases hop
          · exact ⟨hes, heq ▸ hopen⟩
          · exact absurd rfl (hnot capacity policy)
        · exact absurd hreset hnot
    obtain ⟨rfl, hopen⟩ := hopen
    change Answered [] _
    refine ⟨fun _ _ _ _ _ _ => List.not_mem_nil, fun τ hτ => ?_, fun hclosed => ?_, fun _ _ => rfl⟩
    · cases hτ
    · change queues.queue.closed = true at hclosed
      rw [hopen] at hclosed
      cases hclosed
  · rw [foldl_afterLoggerEvent (queue_events_isReset hreset)]
    exact h.queue_extend hcoh ha halloc hworker hstep hreset

end QueueSteps

theorem Answered.step (h : Answered history s) (hcoh : Coherent s) (hticketed : Ticketed history s)
    {a : LoggerAction Tid} (hundisturbed : Undisturbed s a)
    (hworker : ∀ final, s.worker ≠ .closing final) (hstep : s.step host a = some (s', es)) :
    Answered (es.foldl afterLoggerEvent history) s' := by
  cases loggerStep_move hstep with
  | begin request hidle =>
    rw [foldl_afterLoggerEvent (by split_ifs <;> simp [LoggerEvent.isReset])]
    exact h.begin hidle request
  | app hmove heffect =>
    rw [foldl_afterLoggerEvent hmove.queueEvents.2.2.2]
    exact h.app hcoh hticketed hmove hundisturbed heffect
  | work hmove heffect =>
    rw [foldl_afterLoggerEvent hmove.queueEvents.2.2.2]
    exact h.work hmove heffect
  | @queue a queues qes ha hqstep =>
    have halloc : a.allocates = true := by
      cases a <;> first | rfl | exact hundisturbed
    exact h.queue_step hcoh ha halloc hworker hqstep

end CppLogger
