import CppLogger.Logger.FanOut

/-!
# Following every log call

Each log call has a number. In the history of a lifecycle a call passes the checks at most
once, pushes at most once and returns at most once, the calls of one thread in order, and
a push is let in only after its call has passed the checks in the same lifecycle.
-/

namespace CppLogger

variable {Tid : Type*}

/-- The number of the log call that a thread is inside. -/
def Frame.ticket : Frame Tid → Option ℕ
  | .logEnter call | .logRunning call | .logLevel call | .logGeneration call
  | .logCapture call _ => some call.ticket
  | .logPush _ entry => some entry.ticket
  | _ => none

/-- The log call has passed both checks. -/
def Frame.checked : Frame Tid → Bool
  | .logGeneration _ | .logCapture _ _ | .logPush _ _ => true
  | _ => false

def Frame.pushing : Frame Tid → Bool
  | .logPush _ _ => true
  | _ => false

/-- The log calls that have passed both checks. -/
def passedTickets (es : List (LoggerEvent Tid)) : List ℕ :=
  es.filterMap fun
    | .passed ticket _ _ => some ticket
    | _ => none

@[simp] theorem passedTickets_append (es fs : List (LoggerEvent Tid)) :
    passedTickets (es ++ fs) = passedTickets es ++ passedTickets fs :=
  List.filterMap_append

/-- The log call saw `running_` set and its level not below the least one in force, in this
lifecycle. -/
def Checked (history : List (LoggerEvent Tid)) (ticket : ℕ) (level : LogLevel) : Prop :=
  .sawRunning ticket ∈ history ∧
    ∃ minLevel, .passed ticket level minLevel ∈ history ∧ minLevel ≤ level.toInt

/-- The checks that a log call has behind it. One that has left the lock may have done them
in an earlier lifecycle, and then carries an earlier generation. -/
def Frame.Cleared (history : List (LoggerEvent Tid)) (generation : ℕ) : Frame Tid → Prop
  | .logLevel call => .sawRunning call.ticket ∈ history
  | .logGeneration call => Checked history call.ticket call.level
  | .logCapture call g => g = generation → Checked history call.ticket call.level
  | .logPush g entry => g = generation → Checked history entry.ticket entry.record.level
  | _ => True

/-- The queue operation of the thread has not taken effect yet. -/
def LoggerState.waits (s : LoggerState Tid) (who : Option Tid) : Bool :=
  (s.call who).any Call.waiting

/-- The invariant of the log calls. -/
structure Ticketed (history : List (LoggerEvent Tid)) (s : LoggerState Tid) : Prop where
  fresh : ∀ t τ, (s.frames t).ticket = some τ → τ < s.tickets
  unique : ∀ t u τ, (s.frames t).ticket = some τ → (s.frames u).ticket = some τ → t = u
  owner : ∀ t g entry, s.frames t = .logPush g entry → entry.record.threadId = t
  cleared : ∀ t, (s.frames t).Cleared history s.queue.generation
  passedOnce : (passedTickets history).Nodup
  passed : ∀ τ ∈ passedTickets history,
    τ < s.tickets ∧ ∀ t, (s.frames t).ticket = some τ → (s.frames t).checked = true
  ordered : (pushedValues (queueEvents history)).Pairwise fun x y =>
    x.ticket ≠ y.ticket ∧ (x.record.threadId = y.record.threadId → x.ticket < y.ticket)
  pushed : ∀ x ∈ pushedValues (queueEvents history), x.ticket < s.tickets ∧
    (∀ t, (s.frames t).ticket = some x.ticket →
      (s.frames t).pushing = true ∧ s.waits (some t) = false) ∧
    ∀ τ, (s.frames x.record.threadId).ticket = some τ → x.ticket ≤ τ
  accepted : ∀ x r, .pushed x r ∈ queueEvents history → r ≠ .Closed →
    Checked history x.ticket x.record.level
  returned : ∀ τ, .logReturned τ ∈ history →
    τ < s.tickets ∧ ∀ t, (s.frames t).ticket ≠ some τ

variable {history history' : List (LoggerEvent Tid)} {host : Host Tid}
variable {s s' : LoggerState Tid} {t u : Tid} {ok : Bool} {now : ℤ} {f f' : Frame Tid}
variable {effect : Effect Tid} {es : List (LoggerEvent Tid)} {who : Option Tid}
variable {pc pc' : WorkerPc Tid} {generation : ℕ}

theorem Ticketed.initial : Ticketed [] (LoggerState.initial : LoggerState Tid) where
  fresh := by intro t τ h; cases h
  unique := by intro t u τ h; cases h
  owner := by intro t g entry h; cases h
  cleared := fun _ => trivial
  passedOnce := List.nodup_nil
  passed := by intro τ h; cases h
  ordered := .nil
  pushed := by intro x h; cases h
  accepted := by intro x r h; cases h
  returned := by intro τ h; cases h

theorem Checked.mono {ticket : ℕ} {level : LogLevel} (h : Checked history ticket level)
    (hsub : history ⊆ history') : Checked history' ticket level := by
  obtain ⟨hrunning, minLevel, hpassed, hlevel⟩ := h
  exact ⟨hsub hrunning, minLevel, hsub hpassed, hlevel⟩

theorem Frame.Cleared.mono (h : f.Cleared history generation) (hsub : history ⊆ history') :
    f.Cleared history' generation := by
  cases f with
  | logLevel => exact hsub h
  | logGeneration => exact h.mono hsub
  | logCapture | logPush => exact fun hg => (h hg).mono hsub
  | _ => trivial

theorem subset_append_left : history ⊆ history ++ es := List.subset_append_left _ _

/-! ## Application threads -/

/-- What a step of a thread does to its own log call. -/
structure CallStep (t : Tid) (f f' : Frame Tid) (es : List (LoggerEvent Tid)) : Prop where
  ticket : f'.ticket = none ∨ f'.ticket = f.ticket
  checked : f.checked = true → f'.ticket = none ∨ f'.checked = true
  pushing : f.pushing = true → f'.ticket = none
  owner : ∀ g entry, f' = .logPush g entry → entry.record.threadId = t
  passed : passedTickets es = [] ∨
    ∃ τ, passedTickets es = [τ] ∧ f.ticket = some τ ∧ f.checked = false ∧ f'.checked = true
  returned : ∀ τ, .logReturned τ ∈ es → f.ticket = some τ ∧ f'.ticket = none

theorem AppMove.callStep [Fintype Tid] (h : AppMove s t ok now f f' effect es) :
    CallStep t f f' es := by
  cases h with
  | passed =>
    exact ⟨.inr rfl, by simp [Frame.checked], by simp [Frame.pushing], by simp,
      .inr ⟨_, rfl, rfl, rfl, rfl⟩, by simp⟩
  | sawRunning | logEnter =>
    exact ⟨.inr rfl, by simp [Frame.checked], by simp [Frame.pushing], by simp, .inl rfl, by simp⟩
  | logGeneration =>
    exact ⟨.inr rfl, by simp [Frame.checked], by simp [Frame.pushing], by simp, .inl rfl, by simp⟩
  | logCapture =>
    exact ⟨.inr rfl, by simp [Frame.checked], by simp [Frame.pushing],
      by rintro g entry ⟨⟩; rfl, .inl rfl, by simp⟩
  | notRunning | filtered | captureThrew | logPush =>
    exact ⟨.inl rfl, fun _ => .inl rfl, fun _ => rfl, by simp, .inl rfl,
      by simp [Frame.ticket, eq_comm]⟩
  | _ => exact ⟨.inl rfl, fun _ => .inl rfl, fun _ => rfl, by simp, .inl rfl, by simp⟩

theorem AppMove.cleared [Fintype Tid] (h : AppMove s t ok now f f' effect es)
    (hf : f.Cleared history s.queue.generation) :
    f'.Cleared (history ++ es) s.queue.generation := by
  cases h with
  | sawRunning => exact List.mem_append_right _ (by simp)
  | passed hlevel =>
    exact ⟨List.mem_append_left _ hf, _, List.mem_append_right _ (by simp), hlevel⟩
  | logGeneration => exact fun _ => hf.mono subset_append_left
  | logCapture => exact hf.mono subset_append_left
  | _ => trivial

variable [Fintype Tid] [DecidableEq Tid]

theorem apply_tickets (h : s.apply who effect = some s') : s'.tickets = s.tickets := by
  cases effect <;> simp only [LoggerState.apply, Option.some.injEq, Option.map_eq_some_iff] at h
  case call | ret => obtain ⟨r, -, rfl⟩ := h; rfl
  all_goals subst h; rfl

omit [Fintype Tid] in
/-- A thread moves on within its log call: the claims that other threads' frames make on
tickets are unaffected, and the thread keeps its ticket or gives it up. -/
theorem ticket_update (hcall : f'.ticket = none ∨ f'.ticket = (s.frames t).ticket) {τ : ℕ}
    (hu : (Function.update s.frames t f' u).ticket = some τ) : (s.frames u).ticket = some τ := by
  by_cases hut : u = t
  · subst hut
    rw [Function.update_self] at hu
    rcases hcall with hnone | hsame
    · rw [hnone] at hu
      cases hu
    · rw [← hsame]
      exact hu
  · rwa [Function.update_of_ne hut] at hu

omit [Fintype Tid] [DecidableEq Tid] in
/-- A call passes its checks once. -/
theorem Ticketed.passedOnce_app (h : Ticketed history s) (hcall : CallStep t (s.frames t) f' es) :
    (passedTickets (history ++ es)).Nodup := by
  rw [passedTickets_append]
  rcases hcall.passed with hnone | ⟨τ, hτ, hticket, hunchecked, -⟩
  · simpa [hnone] using h.passedOnce
  · rw [hτ]
    refine List.nodup_append.mpr ⟨h.passedOnce, List.nodup_singleton τ, ?_⟩
    rintro a ha b hb rfl
    obtain rfl := List.mem_singleton.mp hb
    have hchecked := (h.passed a ha).2 t hticket
    simp [hunchecked] at hchecked

omit [Fintype Tid] in
theorem Ticketed.passed_app (h : Ticketed history s) (hcall : CallStep t (s.frames t) f' es)
    {τ : ℕ} (hτ : τ ∈ passedTickets (history ++ es)) :
    τ < s.tickets ∧ ∀ u, (Function.update s.frames t f' u).ticket = some τ →
      (Function.update s.frames t f' u).checked = true := by
  rw [passedTickets_append, List.mem_append] at hτ
  rcases hτ with hold | hnew
  · obtain ⟨hlt, hchecked⟩ := h.passed τ hold
    refine ⟨hlt, fun u hu => ?_⟩
    have hbefore := hchecked u (ticket_update hcall.ticket hu)
    by_cases hut : u = t
    · subst hut
      rw [Function.update_self] at hu ⊢
      rcases hcall.checked hbefore with hnone | hchecked'
      · rw [hnone] at hu
        cases hu
      · exact hchecked'
    · rw [Function.update_of_ne hut]
      exact hbefore
  · rcases hcall.passed with hnone | ⟨τ', hτ', hticket, -, hchecked⟩
    · rw [hnone] at hnew
      cases hnew
    · rw [hτ', List.mem_singleton] at hnew
      subst hnew
      refine ⟨h.fresh t τ hticket, fun u hu => ?_⟩
      obtain rfl := h.unique u t τ (ticket_update hcall.ticket hu) hticket
      rw [Function.update_self]
      exact hchecked

/-- A call that has pushed its record keeps its answer until it returns. -/
theorem Ticketed.pushing_app (h : Ticketed history s) (hcall : CallStep t (s.frames t) f' es)
    (heffect : s.apply (some t) effect = some s') {x : Entry Tid}
    (hx : x ∈ pushedValues (queueEvents history))
    (hu : (Function.update s.frames t f' u).ticket = some x.ticket) :
    (Function.update s.frames t f' u).pushing = true ∧ s'.waits (some u) = false := by
  obtain ⟨-, hpushing, -⟩ := h.pushed x hx
  have hbefore := hpushing u (ticket_update hcall.ticket hu)
  by_cases hut : u = t
  · subst hut
    rw [Function.update_self, hcall.pushing hbefore.1] at hu
    cases hu
  · have hwaits : s'.waits (some u) = s.waits (some u) := by
      unfold LoggerState.waits
      rw [apply_call_other heffect (by simpa using hut)]
    rw [Function.update_of_ne hut, hwaits]
    exact hbefore

theorem Ticketed.app (h : Ticketed history s)
    (hmove : AppMove s t ok now (s.frames t) f' effect es)
    (heffect : s.apply (some t) effect = some s') :
    Ticketed (history ++ es) { s' with frames := Function.update s'.frames t f' } := by
  have hcall := hmove.callStep
  have hback : ∀ {u τ}, (Function.update s.frames t f' u).ticket = some τ →
      (s.frames u).ticket = some τ := fun hu => ticket_update hcall.ticket hu
  have hqueue : s'.queue = s.queue := (apply_queues heffect).1
  have hevents : queueEvents (history ++ es) = queueEvents history := by
    rw [queueEvents_append, hmove.queueEvents.1, List.append_nil]
  rw [apply_frames heffect]
  constructor
  case fresh =>
    intro u τ hu
    change τ < s'.tickets
    rw [apply_tickets heffect]
    exact h.fresh u τ (hback hu)
  case unique => exact fun u v τ hu hv => h.unique u v τ (hback hu) (hback hv)
  case owner =>
    intro u g entry hu
    dsimp only at hu
    by_cases hut : u = t
    · subst hut
      rw [Function.update_self] at hu
      exact hcall.owner g entry hu
    · rw [Function.update_of_ne hut] at hu
      exact h.owner u g entry hu
  case cleared =>
    intro u
    change (Function.update s.frames t f' u).Cleared _ s'.queue.generation
    rw [hqueue]
    by_cases hut : u = t
    · subst hut
      rw [Function.update_self]
      exact hmove.cleared (h.cleared u)
    · rw [Function.update_of_ne hut]
      exact (h.cleared u).mono subset_append_left
  case passedOnce => exact h.passedOnce_app hcall
  case passed =>
    intro τ hτ
    obtain ⟨hlt, hchecked⟩ := h.passed_app hcall hτ
    exact ⟨hlt.trans_eq (apply_tickets heffect).symm, hchecked⟩
  case ordered =>
    rw [hevents]
    exact h.ordered
  case pushed =>
    rw [hevents]
    intro x hx
    obtain ⟨hlt, -, hle⟩ := h.pushed x hx
    have hpushing := fun u => h.pushing_app (u := u) hcall heffect hx
    exact ⟨hlt.trans_eq (apply_tickets heffect).symm, hpushing, fun τ hτ => hle τ (hback hτ)⟩
  case accepted =>
    rw [hevents]
    exact fun x r hx hr => (h.accepted x r hx hr).mono subset_append_left
  case returned =>
    intro τ hτ
    change τ < s'.tickets ∧ ∀ u, (Function.update s.frames t f' u).ticket ≠ some τ
    rw [apply_tickets heffect]
    rcases List.mem_append.mp hτ with hold | hnew
    · obtain ⟨hlt, hnot⟩ := h.returned τ hold
      exact ⟨hlt, fun u hu => hnot u (hback hu)⟩
    · obtain ⟨hticket, hnone⟩ := hcall.returned τ hnew
      refine ⟨h.fresh t τ hticket, fun u hu => ?_⟩
      obtain rfl := h.unique u t τ (hback hu) hticket
      rw [Function.update_self, hnone] at hu
      cases hu

omit [Fintype Tid] [DecidableEq Tid] in
variable (Tid) in
theorem Request.frame_ticket (request : Request) (ticket : ℕ) :
    let f : Frame Tid := request.frame ticket
    (f.ticket = none ∨ f.ticket = some ticket) ∧ f.pushing = false ∧
      ∀ (history : List (LoggerEvent Tid)) generation, f.Cleared history generation := by
  cases request <;> simp [Request.frame, Frame.ticket, Frame.pushing, Frame.Cleared]

omit [Fintype Tid] in
theorem Ticketed.begin (h : Ticketed history s) (hidle : s.frames t = .idle) (request : Request) :
    Ticketed (history ++ if request = .stop then [.stopCalled t] else [])
      { s with
        frames := Function.update s.frames t (request.frame s.tickets)
        tickets := s.tickets + 1 } := by
  obtain ⟨hticket, hpushing, hcleared⟩ := Request.frame_ticket Tid request s.tickets
  -- A ticket in the new frames is an old one of another thread, or the next one.
  have hback : ∀ {u τ}, (Function.update s.frames t (request.frame s.tickets) u).ticket = some τ →
      u ≠ t ∧ (s.frames u).ticket = some τ ∨ u = t ∧ τ = s.tickets := by
    intro u τ hu
    by_cases hut : u = t
    · subst hut
      rw [Function.update_self] at hu
      rcases hticket with hnone | hsome
      · rw [hnone] at hu
        cases hu
      · exact .inr ⟨rfl, Option.some.inj (hu.symm.trans hsome)⟩
    · rw [Function.update_of_ne hut] at hu
      exact .inl ⟨hut, hu⟩
  have hpassed : passedTickets (history ++ if request = .stop then [.stopCalled t] else []) =
      passedTickets history := by
    split_ifs <;> simp [passedTickets]
  have hevents : queueEvents (history ++ if request = .stop then [.stopCalled t] else []) =
      queueEvents history := by
    split_ifs <;> simp [queueEvents, LoggerEvent.queueEvent]
  constructor
  case fresh =>
    intro u τ hu
    rcases hback hu with ⟨-, hold⟩ | ⟨-, rfl⟩
    · exact (h.fresh u τ hold).trans (Nat.lt_succ_self _)
    · exact Nat.lt_succ_self _
  case unique =>
    intro u v τ hu hv
    rcases hback hu with ⟨-, hu'⟩ | ⟨hut, hτ⟩ <;> rcases hback hv with ⟨-, hv'⟩ | ⟨hvt, hτ'⟩
    · exact h.unique u v τ hu' hv'
    · exact absurd (h.fresh u τ hu') (by omega)
    · exact absurd (h.fresh v τ hv') (by omega)
    · rw [hut, hvt]
  case owner =>
    intro u g entry hu
    dsimp only at hu
    by_cases hut : u = t
    · subst hut
      rw [Function.update_self] at hu
      rw [hu] at hpushing
      cases hpushing
    · rw [Function.update_of_ne hut] at hu
      exact h.owner u g entry hu
  case cleared =>
    intro u
    dsimp only
    by_cases hut : u = t
    · subst hut
      rw [Function.update_self]
      exact hcleared _ _
    · rw [Function.update_of_ne hut]
      exact (h.cleared u).mono subset_append_left
  case passedOnce =>
    rw [hpassed]
    exact h.passedOnce
  case passed =>
    rw [hpassed]
    intro τ hτ
    obtain ⟨hlt, hchecked⟩ := h.passed τ hτ
    refine ⟨hlt.trans (Nat.lt_succ_self _), fun u hu => ?_⟩
    rcases hback hu with ⟨hut, hu⟩ | ⟨-, rfl⟩
    · dsimp only
      rw [Function.update_of_ne hut]
      exact hchecked u hu
    · exact absurd hlt (lt_irrefl _)
  case ordered =>
    rw [hevents]
    exact h.ordered
  case pushed =>
    rw [hevents]
    intro x hx
    obtain ⟨hlt, hpush, hle⟩ := h.pushed x hx
    refine ⟨hlt.trans (Nat.lt_succ_self _), fun u hu => ?_, fun τ hτ => ?_⟩
    · rcases hback hu with ⟨hut, hu⟩ | ⟨-, hx⟩
      · dsimp only
        rw [Function.update_of_ne hut]
        exact hpush u hu
      · omega
    · rcases hback hτ with ⟨-, hτ⟩ | ⟨-, rfl⟩
      · exact hle τ hτ
      · exact hlt.le
  case accepted =>
    rw [hevents]
    exact fun x r hx hr => (h.accepted x r hx hr).mono subset_append_left
  case returned =>
    intro τ hτ
    have hold : .logReturned τ ∈ history := by
      rcases List.mem_append.mp hτ with hold | hnew
      · exact hold
      · split_ifs at hnew <;> simp at hnew
    obtain ⟨hlt, hnot⟩ := h.returned τ hold
    refine ⟨hlt.trans (Nat.lt_succ_self _), fun u hu => ?_⟩
    rcases hback hu with ⟨-, hu⟩ | ⟨-, rfl⟩
    · exact hnot u hu
    · exact absurd hlt (lt_irrefl _)

/-! ## The worker and the queue -/

omit [Fintype Tid] [DecidableEq Tid] in
/-- Steps that do not concern the log calls. -/
theorem Ticketed.extend (h : Ticketed history s) (hframes : s'.frames = s.frames)
    (htickets : s'.tickets = s.tickets) (hgen : s'.queue.generation = s.queue.generation)
    (hwaits : ∀ u, s'.waits (some u) = true → s.waits (some u) = true)
    (hpassed : passedTickets es = []) (hreturned : ∀ τ, .logReturned τ ∉ es)
    (hpushed : pushedValues (queueEvents es) = []) : Ticketed (history ++ es) s' := by
  have hpassed' : passedTickets (history ++ es) = passedTickets history := by
    rw [passedTickets_append, hpassed, List.append_nil]
  have hpushed' : pushedValues (queueEvents (history ++ es)) =
      pushedValues (queueEvents history) := by
    rw [queueEvents_append, pushedValues_append, hpushed, List.append_nil]
  constructor
  case fresh =>
    rw [hframes, htickets]
    exact h.fresh
  case unique =>
    rw [hframes]
    exact h.unique
  case owner =>
    rw [hframes]
    exact h.owner
  case cleared =>
    rw [hframes, hgen]
    exact fun t => (h.cleared t).mono subset_append_left
  case passedOnce =>
    rw [hpassed']
    exact h.passedOnce
  case passed =>
    rw [hpassed', hframes, htickets]
    exact h.passed
  case ordered =>
    rw [hpushed']
    exact h.ordered
  case pushed =>
    rw [hpushed', hframes, htickets]
    intro x hx
    obtain ⟨hlt, hpushing, hle⟩ := h.pushed x hx
    refine ⟨hlt, fun t ht => ⟨(hpushing t ht).1, ?_⟩, hle⟩
    by_contra hw
    have := hwaits t (by simpa using hw)
    simp [(hpushing t ht).2] at this
  case accepted =>
    intro x r hx hr
    rw [queueEvents_append, List.mem_append] at hx
    rcases hx with hold | hnew
    · exact (h.accepted x r hold hr).mono subset_append_left
    · have : x ∈ pushedValues (queueEvents es) := List.mem_filterMap.mpr ⟨_, hnew, rfl⟩
      rw [hpushed] at this
      cases this
  case returned =>
    rw [hframes, htickets]
    intro τ hτ
    exact h.returned τ ((List.mem_append.mp hτ).resolve_right (hreturned τ))

omit [Fintype Tid] [DecidableEq Tid] in
theorem WorkerMove.callEvents (h : WorkerMove host s ok now pc pc' effect es) :
    passedTickets es = [] ∧ ∀ τ, .logReturned τ ∉ es := by
  cases h <;> simp [passedTickets]

theorem Ticketed.work (h : Ticketed history s)
    (hmove : WorkerMove host s ok now s.worker pc' effect es)
    (heffect : s.apply none effect = some s') :
    Ticketed (history ++ es) { s' with worker := pc' } := by
  obtain ⟨hpassed, hreturned⟩ := hmove.callEvents
  have hqueue : s'.queue = s.queue := (apply_queues heffect).1
  have htickets : s'.tickets = s.tickets := apply_tickets heffect
  have hframes : s'.frames = s.frames := apply_frames heffect
  refine h.extend hframes htickets ?_ ?_ hpassed hreturned ?_
  · change s'.queue.generation = _
    rw [hqueue]
  · intro u hu
    change (s'.call (some u)).any Call.waiting = true at hu
    rwa [apply_call_other heffect (by simp)] at hu
  · rw [hmove.queueEvents.1]
    rfl

section QueueSteps

variable {a : QueueAction (Entry Tid) (Option Tid)}
variable {queues : QueueState (Entry Tid) (Option Tid)} {qes : List (QueueEvent (Entry Tid))}

omit [Fintype Tid] [DecidableEq Tid] in
theorem queueEvents_map (who : Option Tid) (qes : List (QueueEvent (Entry Tid))) :
    queueEvents (qes.map (LoggerEvent.queue who)) = qes := by
  rw [queueEvents, List.filterMap_map]
  exact List.filterMap_some

omit [Fintype Tid] [DecidableEq Tid] in
theorem queue_callEvents (who : Option Tid) (qes : List (QueueEvent (Entry Tid))) :
    passedTickets (qes.map (LoggerEvent.queue who)) = [] ∧
      ∀ τ, .logReturned τ ∉ qes.map (LoggerEvent.queue who) := by
  constructor
  · simp only [passedTickets, List.filterMap_map, List.filterMap_eq_nil_iff]
    exact fun _ _ => rfl
  · intro τ hτ
    obtain ⟨e, -, he⟩ := List.mem_map.mp hτ
    cases he

omit [Fintype Tid] [DecidableEq Tid] in
/-- A push takes effect: its call has the greatest ticket of its thread so far. -/
theorem Ticketed.push (h : Ticketed history s) {v : Entry Tid} {g : ℕ}
    (ht : s.frames t = .logPush g v) (hbefore : s.waits (some t) = true)
    (hafter : LoggerState.waits { s with queues := queues } (some t) = false)
    (hgen : queues.queue.generation = s.queue.generation)
    (hwaits : ∀ u, LoggerState.waits { s with queues := queues } (some u) = true →
      s.waits (some u) = true)
    (hpushed : pushedValues qes = [v])
    (haccepted : (∃ r, .pushed v r ∈ qes ∧ r ≠ .Closed) → g = s.queue.generation) :
    Ticketed (history ++ qes.map (LoggerEvent.queue who)) { s with queues := queues } := by
  have hticket : (s.frames t).ticket = some v.ticket := by rw [ht]; rfl
  obtain ⟨hpassed, hreturned⟩ := queue_callEvents who qes
  have hpassed' : passedTickets (history ++ qes.map (LoggerEvent.queue who)) =
      passedTickets history := by
    rw [passedTickets_append, hpassed, List.append_nil]
  have hevents : pushedValues (queueEvents (history ++ qes.map (LoggerEvent.queue who))) =
      pushedValues (queueEvents history) ++ [v] := by
    rw [queueEvents_append, queueEvents_map, pushedValues_append, hpushed]
  -- The call has not pushed before.
  have hnew : ∀ x ∈ pushedValues (queueEvents history), x.ticket ≠ v.ticket := by
    intro x hx heq
    have := ((h.pushed x hx).2.1 t (heq ▸ hticket)).2
    simp [hbefore] at this
  constructor
  case fresh =>
    exact h.fresh
  case unique =>
    exact h.unique
  case owner =>
    exact h.owner
  case cleared =>
    intro u
    change (s.frames u).Cleared _ queues.queue.generation
    rw [hgen]
    exact (h.cleared u).mono subset_append_left
  case passedOnce =>
    rw [hpassed']
    exact h.passedOnce
  case passed =>
    rw [hpassed']
    exact h.passed
  case ordered =>
    rw [hevents]
    refine List.pairwise_append.mpr ⟨h.ordered, List.pairwise_singleton _ _, ?_⟩
    intro x hx y hy
    obtain rfl := List.mem_singleton.mp hy
    refine ⟨hnew x hx, fun hthread => ?_⟩
    have hle := (h.pushed x hx).2.2 y.ticket (by rw [hthread, h.owner t g y ht, hticket])
    exact lt_of_le_of_ne hle (hnew x hx)
  case pushed =>
    rw [hevents]
    intro x hx
    rcases List.mem_append.mp hx with hold | hself
    · obtain ⟨hlt, hpushing, hle⟩ := h.pushed x hold
      refine ⟨hlt, fun u hu => ⟨(hpushing u hu).1, ?_⟩, hle⟩
      by_contra hw
      have := hwaits u (by simpa using hw)
      simp [(hpushing u hu).2] at this
    · obtain rfl := List.mem_singleton.mp hself
      refine ⟨h.fresh t _ hticket, fun u hu => ?_, fun τ hτ => ?_⟩
      · obtain rfl := h.unique u t _ hu hticket
        exact ⟨by rw [show s.frames u = _ from ht]; rfl, hafter⟩
      · have hτ' : (s.frames x.record.threadId).ticket = some τ := hτ
        rw [h.owner t g x ht, hticket, Option.some.injEq] at hτ'
        exact hτ'.le
  case accepted =>
    intro x r hx hr
    rw [queueEvents_append, queueEvents_map, List.mem_append] at hx
    rcases hx with hold | hself
    · exact (h.accepted x r hold hr).mono subset_append_left
    · have hx : x ∈ pushedValues qes := List.mem_filterMap.mpr ⟨_, hself, rfl⟩
      rw [hpushed, List.mem_singleton] at hx
      subst hx
      have hcleared := h.cleared t
      rw [ht] at hcleared
      exact (hcleared (haccepted ⟨r, hself, hr⟩)).mono subset_append_left
  case returned =>
    intro τ hτ
    exact h.returned τ ((List.mem_append.mp hτ).resolve_right (hreturned τ))

omit [Fintype Tid] [DecidableEq Tid] in
/-- A new lifecycle knows none of the log calls, and none of them can push into it. -/
theorem Ticketed.reset (h : Ticketed history s) (hcoh : Coherent s) {config : LoggerConfig}
    (ht : s.frames t = .initResetting config)
    (hgen : queues.queue.generation = s.queue.generation + 1) :
    Ticketed [] { s with queues := queues } := by
  have hshared : ∀ u, (s.frames u).shared = false := by
    intro u
    by_cases hut : u = t
    · rw [hut, ht]
      rfl
    · exact (hcoh.exclusion t u (Ne.symm hut) (by rw [ht]; rfl)).2
  refine ⟨h.fresh, h.unique, h.owner, fun u => ?_, .nil, by simp [passedTickets], .nil,
    by simp [queueEvents, pushedValues], by simp [queueEvents], by simp⟩
  change (s.frames u).Cleared [] queues.queue.generation
  have hu := hshared u
  have hsound := hcoh.frames u
  revert hu hsound
  cases s.frames u with
  | logLevel | logGeneration => intro hu; cases hu
  | logCapture _ g | logPush g _ =>
    intro _ hsound heq
    have hle : g ≤ s.queue.generation := hsound.1
    omega
  | _ => exact fun _ _ => trivial

theorem Ticketed.queue_step (h : Ticketed history s) (hcoh : Coherent s)
    (ha : a.internal = true) (hstep : s.queues.step a = some (queues, qes)) :
    Ticketed ((qes.map (LoggerEvent.queue a.actor)).foldl afterLoggerEvent history)
      { s with queues := queues } := by
  have hwaits : ∀ u, LoggerState.waits { s with queues := queues } (some u) = true →
      s.waits (some u) = true := fun u => internal_waiting hstep ha (some u)
  obtain ⟨hpassed, hreturned⟩ := queue_callEvents a.actor qes
  cases step_move hstep with
  | call | ret => cases ha
  | @run t alloc expired c sec hc hsec =>
    rcases hsec.reset_events with ⟨capacity, policy, hop, hes⟩ | hreset
    · obtain ⟨-, -, u, config, -, hu, -⟩ := hcoh.resetting hc hop
      rw [hes]
      refine h.reset hcoh hu ?_
      rcases hsec.closed_generation with ⟨hclose, -⟩ | ⟨_, _, -, -, hgen⟩ | ⟨-, hnot, -⟩
      · rw [hop] at hclose
        cases hclose
      · exact hgen
      · exact absurd hop (hnot capacity policy)
    have hgen : sec.queue.generation = s.queue.generation := by
      rcases hsec.closed_generation with ⟨-, -, hgen⟩ | ⟨capacity, policy, hop, -⟩ | ⟨-, -, -, hgen⟩
      · exact hgen
      · obtain ⟨op, st⟩ := c
        obtain rfl : op = _ := hop
        exact absurd (by simp [hsec.of_reset]) hreset
      · exact hgen
    rw [foldl_afterLoggerEvent (queue_events_isReset hreset)]
    rcases hsec.pushed with hnone | ⟨e, v, hop, hpushed, hafter, haccepted⟩
    · refine h.extend rfl rfl hgen hwaits hpassed hreturned ?_
      rwa [queueEvents_map]
    · cases t with
      | none =>
        rcases WorkerPc.queueOp_cases (hcoh.op_worker hc) with ⟨-, -, -, hmax⟩ | ⟨-, -, hclose⟩
        · rw [hop] at hmax
          cases hmax
        · rw [hop] at hclose
          cases hclose
      | some u =>
        obtain ⟨g, entry, hu, hop'⟩ : ∃ g entry, s.frames u = .logPush g entry ∧
            c.op = .push (some g) entry := by
          rcases Frame.queueOp_cases (hcoh.op_frame hc) with hpush | ⟨config, -, hn⟩ | ⟨-, hn⟩
          · exact hpush
          · rw [hop] at hn
            cases hn
          · rw [hop] at hn
            cases hn
        obtain ⟨rfl, rfl⟩ := QueueOp.push.inj (hop.symm.trans hop')
        refine h.push hu ?_ ?_ hgen hwaits hpushed fun hr => ?_
        · change (s.call (some u)).any Call.waiting = true
          have hcall : s.call (some u) = some c := hc
          obtain ⟨op, st⟩ := c
          rw [hcall]
          rcases hsec.waiting with hst | ⟨g, hst⟩ | hst <;> simp only at hst <;> subst hst <;> rfl
        · simpa [LoggerState.waits, LoggerState.call] using hafter
        · rcases haccepted hr with ⟨-, hgen⟩ | hst
          · exact hgen
          · have hfit := hcoh.fitting _ _ hc
            rw [hop, hst] at hfit
            cases hfit with
            | notFullWait _ hown => exact Option.some.inj (hown.resolve_left (by simp))
  | notify | wake | timeout =>
    rw [foldl_afterLoggerEvent (queue_events_isReset (by simp))]
    refine h.extend ?_ ?_ ?_ hwaits hpassed hreturned ?_ <;> rfl

end QueueSteps

theorem Ticketed.step (h : Ticketed history s) (hcoh : Coherent s) {a : LoggerAction Tid}
    (hstep : s.step host a = some (s', es)) :
    Ticketed (es.foldl afterLoggerEvent history) s' := by
  cases loggerStep_move hstep with
  | begin request hidle =>
    rw [foldl_afterLoggerEvent (by split_ifs <;> simp [LoggerEvent.isReset])]
    exact h.begin hidle request
  | app hmove heffect =>
    rw [foldl_afterLoggerEvent hmove.queueEvents.2.2.2]
    exact h.app hmove heffect
  | work hmove heffect =>
    rw [foldl_afterLoggerEvent hmove.queueEvents.2.2.2]
    exact h.work hmove heffect
  | queue ha hqstep => exact h.queue_step hcoh ha hqstep

/-- The invariant of the log calls holds of every run and its current lifecycle. -/
theorem reaches_ticketed {P : LoggerState Tid → LoggerAction Tid → Prop}
    (h : (loggerSystem host).Run P .initial es s) :
    Ticketed (lifecycle es) s ∧ Coherent s := by
  refine h.monitored afterLoggerEvent (I := fun history s => Ticketed history s ∧ Coherent s)
    ⟨.initial, .initial⟩ ?_
  rintro history s a s' fs ⟨hticketed, hcoh⟩ - hstep
  exact ⟨hticketed.step hcoh hstep, hcoh.step hstep⟩

end CppLogger
