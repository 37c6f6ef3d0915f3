import CppLogger.Logger.Delivery
import CppLogger.Logger.Settings

/-!
# The calls that a sink sees

A sink of a lifecycle is called by the worker, one call after the other, and then closed
once: by `stop`, by the next `init`, or by the `init` that could not start its thread. The
one who closes it holds the lifecycle lock and has seen the worker end.
-/

namespace CppLogger

variable {Tid : Type*}

/-- What a sink is doing; `violated` is reached by a call that comes at the wrong time. -/
inductive SinkPhase
  | ready
  | writing
  | flushing
  | closed
  | violated
  deriving DecidableEq, Repr

namespace SinkPhase

/-- The phase after a call that has to come in phase `expected`. -/
def advance (phase expected next : SinkPhase) : SinkPhase :=
  if phase = expected then next else .violated

def after (k : ℕ) (phase : SinkPhase) : LoggerEvent Tid → SinkPhase
  | .write i _ _ => if i = k then phase.advance .ready .writing else phase
  | .wrote i _ => if i = k then phase.advance .writing .ready else phase
  | .flush i => if i = k then phase.advance .ready .flushing else phase
  | .flushed i _ => if i = k then phase.advance .flushing .ready else phase
  | .close i => if i = k then phase.advance .ready .closed else phase
  | _ => phase

/-- How often a sink in this phase has been closed. -/
def closings : SinkPhase → ℕ
  | .closed => 1
  | _ => 0

end SinkPhase

/-- The phase of sink `k` in a lifecycle with this history. -/
def sinkPhase (k : ℕ) (history : List (LoggerEvent Tid)) : SinkPhase :=
  history.foldl (SinkPhase.after k) .ready

/-- The event is a call of a sink, its end, or its closing. -/
def LoggerEvent.ofSink : LoggerEvent Tid → Bool
  | .write _ _ _ | .wrote _ _ | .flush _ | .flushed _ _ | .close _ => true
  | _ => false

section Phases

variable {history es : List (LoggerEvent Tid)} {k : ℕ}

theorem sinkPhase_append :
    sinkPhase k (history ++ es) = es.foldl (SinkPhase.after k) (sinkPhase k history) :=
  List.foldl_append

theorem sinkPhase_quiet (h : ∀ e ∈ es, e.ofSink = false) :
    sinkPhase k (history ++ es) = sinkPhase k history := by
  rw [sinkPhase_append]
  induction es generalizing history with
  | nil => rfl
  | cons e es ih =>
    have he := h e (by simp)
    have hstep : (sinkPhase k history).after k e = sinkPhase k history := by
      cases e <;> first | rfl | cases he
    rw [List.foldl_cons, hstep]
    exact ih fun e he => h e (by simp [he])

theorem advance_ne {phase expected next : SinkPhase}
    (h : phase.advance expected next ≠ .violated) :
    phase = expected ∧ phase.advance expected next = next := by
  unfold SinkPhase.advance at h ⊢
  split_ifs at h ⊢ with heq
  · exact ⟨heq, rfl⟩
  · exact absurd rfl h

theorem after_close [DecidableEq Tid] {phase : SinkPhase} {e : LoggerEvent Tid}
    (h : phase.after k e ≠ .violated) :
    phase ≠ .violated ∧ (phase.after k e).closings = phase.closings + [e].count (.close k) := by
  cases e with
  | write i | wrote i | flush i | flushed i | close i =>
    simp only [SinkPhase.after] at h ⊢
    by_cases hik : i = k
    · rw [if_pos hik] at h ⊢
      obtain ⟨rfl, hnext⟩ := advance_ne h
      simp [hnext, hik, SinkPhase.closings]
    · rw [if_neg hik] at h ⊢
      simp [h, hik]
  | _ => exact ⟨h, by simp [SinkPhase.after]⟩

/-- A sink that has not been called at the wrong time has been closed once, or not at all. -/
theorem count_close [DecidableEq Tid] (h : sinkPhase k history ≠ .violated) :
    history.count (.close k) = (sinkPhase k history).closings := by
  induction history using List.reverseRecOn with
  | nil => rfl
  | append_singleton history e ih =>
    rw [sinkPhase_append] at h ⊢
    obtain ⟨hbefore, hcount⟩ := after_close h
    rw [List.count_append, ih hbefore]
    exact hcount.symm

end Phases

/-! ## The invariant -/

/-- The phase that the worker's place stands for. -/
def WorkerPc.sinkPhase (k : ℕ) : WorkerPc Tid → SinkPhase
  | .write _ i true _ _ _ => if i = k then .writing else .ready
  | .flushing _ i true => if i = k then .flushing else .ready
  | _ => .ready

/-- A thread is closing the sinks, and how many it has closed. -/
def Frame.closing : Frame Tid → Option ℕ
  | .initClose _ k | .initAbandon k | .stopSinks k => some k
  | _ => none

/-- A thread has dropped the old sinks and not put new ones in place. -/
def Frame.cleared : Frame Tid → Bool
  | .initBuild _ | .initReset _ | .initResetting _ | .initConfigure _ => true
  | _ => false

/-- The phases of the sinks are those of the worker's call or of the thread that closes
them; sinks that are gone have been closed. -/
structure Orderly (history : List (LoggerEvent Tid)) (s : LoggerState Tid) : Prop where
  calls : (∀ t, (s.frames t).closing = none) →
    ∀ k < s.sinks.length, sinkPhase k history = s.worker.sinkPhase k
  closing : ∀ t j, (s.frames t).closing = some j → ∀ k < s.sinks.length,
    sinkPhase k history = if k < j then .closed else .ready
  dropped : s.sinks = [] → ∀ k < sinkCount history, sinkPhase k history = .closed
  counted : s.sinks ≠ [] → s.sinks.length = sinkCount history
  beyond : ∀ k, sinkCount history ≤ k → sinkPhase k history = .ready
  cleared : ∀ t, (s.frames t).cleared = true → s.sinks = []
  busy : ∀ k, s.sinks.length ≤ k → s.worker.sinkPhase k = .ready

variable {history : List (LoggerEvent Tid)} {host : Host Tid} {s s' : LoggerState Tid}
variable {t : Tid} {ok : Bool} {now : ℤ} {f f' : Frame Tid} {pc pc' : WorkerPc Tid}
variable {effect : Effect Tid} {es fs : List (LoggerEvent Tid)} {a : LoggerAction Tid}

theorem Orderly.initial : Orderly [] (LoggerState.initial : LoggerState Tid) where
  calls _ k hk := by cases hk
  closing t j h := by cases h
  dropped _ k hk := by cases hk
  counted h := absurd rfl h
  beyond _ _ := rfl
  cleared t h := by cases h
  busy _ _ := rfl

theorem WorkerPc.sinkPhase_ne {k : ℕ} :
    pc.sinkPhase k ≠ .closed ∧ pc.sinkPhase k ≠ .violated := by
  unfold WorkerPc.sinkPhase
  split <;> first | (split_ifs <;> simp) | simp

/-- No sink has been called at the wrong time. -/
theorem Orderly.not_violated (h : Orderly history s) (k : ℕ) :
    CppLogger.sinkPhase k history ≠ .violated := by
  by_cases hk : k < sinkCount history
  · by_cases hnil : s.sinks = []
    · simp [h.dropped hnil k hk]
    · rw [← h.counted hnil] at hk
      by_cases hclosing : ∀ t, (s.frames t).closing = none
      · rw [h.calls hclosing k hk]
        exact WorkerPc.sinkPhase_ne.2
      · simp only [not_forall] at hclosing
        obtain ⟨t, ht⟩ := hclosing
        obtain ⟨j, hj⟩ := Option.ne_none_iff_exists'.mp ht
        rw [h.closing t j hj k hk]
        split_ifs <;> simp
  · simp [h.beyond k (not_lt.mp hk)]

theorem Frame.closing_exclusive {j : ℕ} (h : f.closing = some j) : f.exclusive = true := by
  cases f <;> first | rfl | cases h

theorem Frame.cleared_exclusive (h : f.cleared = true) : f.exclusive = true := by
  cases f <;> first | rfl | cases h

theorem Frame.Sound.closing_absent {v : View} {past : Bool} (h : f.Sound v past) {j : ℕ}
    (hf : f.closing = some j) : v.absent = true := by
  cases f <;> first | exact h.2 | exact h.2.1 | cases hf

/-- While there is a worker, nobody is closing the sinks. -/
theorem Coherent.not_closing (hcoh : Coherent s) (hlive : s.worker.isAbsent = false) (t : Tid) :
    (s.frames t).closing = none := by
  cases hclosing : (s.frames t).closing with
  | none => rfl
  | some j =>
    have habsent := (hcoh.frames t).closing_absent hclosing
    simp [LoggerState.view, hlive] at habsent

/-! ## Application threads -/

/-- What a step of an application thread means for the sinks: it begins to close them,
closes one, drops them all, or puts those of a configuration in place. -/
theorem AppMove.sink_cases [Fintype Tid] (h : AppMove s t ok now f f' effect es) :
    (∃ config, f = .initConfigure config ∧ f'.closing = none ∧ f'.cleared = false ∧
        effect = .configure config ∧ es = [.configured config]) ∨
      configurations es = [] ∧
        ((∃ k, f.closing = some k ∧ k < s.sinks.length ∧ f'.closing = some (k + 1) ∧
            f'.cleared = false ∧ effect = .skip ∧ es = [.close k]) ∨
          (∀ e ∈ es, e.ofSink = false) ∧
            ((∃ k, f.closing = some k ∧ s.sinks.length ≤ k ∧ f'.closing = none ∧
                effect = .dropSinks) ∨
              f.closing = none ∧ effect.keepsSettings = true ∧
                (f'.cleared = true → f.cleared = true) ∧
                (f'.closing = none ∨ f'.closing = some 0 ∧ f.exclusive = true))) := by
  cases h with
  | initConfigure => exact .inl ⟨_, rfl, rfl, rfl, rfl, rfl⟩
  | initClose hk | initAbandon hk | stopSinks hk =>
    exact .inr ⟨rfl, .inl ⟨_, rfl, hk, rfl, rfl, rfl, rfl⟩⟩
  | initClosed hk | initAbandoned hk | stopReturn hk =>
    exact .inr ⟨rfl, .inr ⟨by simp [LoggerEvent.ofSink], .inl ⟨_, rfl, hk, rfl, rfl⟩⟩⟩
  | initAbsent | initJoin | initClosing | stopAbsent | stopJoin =>
    exact .inr ⟨rfl, .inr ⟨by simp, .inr ⟨rfl, rfl, by simp [Frame.cleared], .inr ⟨rfl, rfl⟩⟩⟩⟩
  | _ =>
    exact .inr ⟨rfl, .inr ⟨by simp [LoggerEvent.ofSink], .inr ⟨rfl, rfl, by simp [Frame.cleared],
      .inl rfl⟩⟩⟩

/-- A step that is no call of a sink and leaves the list alone. -/
theorem Orderly.quiet {history' : List (LoggerEvent Tid)} (h : Orderly history s)
    (hphase : ∀ k, CppLogger.sinkPhase k history' = CppLogger.sinkPhase k history)
    (hcount : sinkCount history' = sinkCount history) (hsinks : s'.sinks = s.sinks)
    (hworker : ∀ k, s'.worker.sinkPhase k = s.worker.sinkPhase k)
    (hnone : (∀ t, (s'.frames t).closing = none) → ∀ t, (s.frames t).closing = none)
    (hclosing : ∀ t j, (s'.frames t).closing = some j → (s.frames t).closing = some j ∨
      j = 0 ∧ (∀ u, (s.frames u).closing = none) ∧ ∀ k, s.worker.sinkPhase k = .ready)
    (hcleared : ∀ t, (s'.frames t).cleared = true → (s.frames t).cleared = true) :
    Orderly history' s' where
  calls hall k hk := by
    rw [hsinks] at hk
    rw [hphase, hworker]
    exact h.calls (hnone hall) k hk
  closing t j hj k hk := by
    rw [hsinks] at hk
    rw [hphase]
    rcases hclosing t j hj with hold | ⟨rfl, hall, hready⟩
    · exact h.closing t j hold k hk
    · rw [h.calls hall k hk, hready, if_neg (Nat.not_lt_zero k)]
  dropped hnil k hk := by
    rw [hphase]
    exact h.dropped (hsinks ▸ hnil) k (hcount ▸ hk)
  counted hne := by
    rw [hsinks] at hne ⊢
    rw [hcount]
    exact h.counted hne
  beyond k hk := by
    rw [hphase]
    exact h.beyond k (hcount ▸ hk)
  cleared t ht := by
    rw [hsinks]
    exact h.cleared t (hcleared t ht)
  busy k hk := by
    rw [hworker]
    exact h.busy k (hsinks ▸ hk)

theorem sinkCount_append (h : configurations es = []) :
    sinkCount (history ++ es) = sinkCount history := by
  simp [sinkCount, h]

variable [Fintype Tid] [DecidableEq Tid]

omit [Fintype Tid] in
theorem Orderly.begin (h : Orderly history s) (hidle : s.frames t = .idle) (request : Request) :
    Orderly (history ++ if request = .stop then [.stopCalled t] else [])
      { s with
        frames := Function.update s.frames t (request.frame s.tickets)
        tickets := s.tickets + 1 } := by
  have hout := (Request.frame_outside Tid request s.tickets).1
  have hnew : ∀ u, (Function.update s.frames t (request.frame s.tickets) u).closing =
      (s.frames u).closing ∧
      ((Function.update s.frames t (request.frame s.tickets) u).cleared = true →
        (s.frames u).cleared = true) := by
    intro u
    by_cases hut : u = t
    · subst hut
      rw [Function.update_self, hidle]
      constructor
      · cases hclosing : (request.frame s.tickets : Frame Tid).closing with
        | none => rfl
        | some j => simp [Frame.closing_exclusive hclosing] at hout
      · intro hcleared
        simp [Frame.cleared_exclusive hcleared] at hout
    · rw [Function.update_of_ne hut]
      exact ⟨rfl, id⟩
  refine h.quiet (fun k => sinkPhase_quiet ?_) (sinkCount_append ?_) rfl (fun k => rfl)
    (fun hall u => (hnew u).1 ▸ hall u) (fun u j hj => .inl ((hnew u).1 ▸ hj)) fun u => (hnew u).2
  · split_ifs <;> simp [LoggerEvent.ofSink]
  · split_ifs <;> rfl

omit [DecidableEq Tid] in
theorem AppMove.worker_sinkPhase (h : AppMove s t ok now f f' effect es)
    (hf : f.Sound s.view (s.past (some t))) (k : ℕ) :
    (effect.onWorker s.worker).sinkPhase k = s.worker.sinkPhase k := by
  cases h with
  | initJoin hw | stopJoin hw => simp [hw, Effect.onWorker, WorkerPc.sinkPhase]
  | initSpawn =>
    rw [WorkerPc.eq_absent (show s.worker.isAbsent = true from hf.2.1)]
    rfl
  | _ => rfl

omit [Fintype Tid] in
/-- The frames of the others do not hold the lock. -/
theorem Coherent.others (hcoh : Coherent s) (ht : (s.frames t).exclusive = true)
    (f' : Frame Tid) {u : Tid} (hut : u ≠ t) : (Function.update s.frames t f' u).closing = none ∧
      (Function.update s.frames t f' u).cleared = false := by
  rw [Function.update_of_ne hut]
  have hout := (hcoh.exclusion t u hut.symm ht).1
  constructor
  · cases hclosing : (s.frames u).closing with
    | none => rfl
    | some j => simp [Frame.closing_exclusive hclosing] at hout
  · by_contra hcleared
    simp [Frame.cleared_exclusive (by simpa using hcleared)] at hout

omit [Fintype Tid] in
/-- The next sink in the list is closed. -/
theorem Orderly.close (h : Orderly history s) (hcoh : Coherent s) {k : ℕ}
    (hk : k < s.sinks.length) (hf : (s.frames t).closing = some k)
    (hf' : f'.closing = some (k + 1) ∧ f'.cleared = false)
    (hsinks : s'.sinks = s.sinks) (hworker : s'.worker = s.worker)
    (hframes : s'.frames = Function.update s.frames t f') :
    Orderly (history ++ [.close k]) s' := by
  have hothers : ∀ u, u ≠ t → _ := fun u => hcoh.others (Frame.closing_exclusive hf) f'
  have hcount : sinkCount (history ++ [.close k]) = sinkCount history := sinkCount_append rfl
  have hne : s.sinks ≠ [] := List.ne_nil_of_length_pos (by omega)
  have hphase : ∀ i, CppLogger.sinkPhase i (history ++ [.close k]) =
      if k = i then (CppLogger.sinkPhase i history).advance .ready .closed
      else CppLogger.sinkPhase i history := fun i => sinkPhase_append
  constructor
  · intro hall
    have hnone := hall t
    rw [hframes, Function.update_self, hf'.1] at hnone
    cases hnone
  · intro u j hj i hi
    rw [hframes] at hj
    rw [hsinks] at hi
    by_cases hut : u = t
    · subst hut
      rw [Function.update_self, hf'.1] at hj
      cases hj
      rw [hphase, h.closing u k hf i hi]
      by_cases hki : k = i
      · subst hki
        simp [SinkPhase.advance]
      · rw [if_neg hki]
        split_ifs <;> first | rfl | omega
    · rw [(hothers u hut).1] at hj
      cases hj
  · intro hnil
    exact absurd (hsinks ▸ hnil) hne
  · intro _
    rw [hsinks, hcount]
    exact h.counted hne
  · intro i hi
    rw [hcount] at hi
    have hlength := h.counted hne
    rw [hphase, if_neg (by omega)]
    exact h.beyond i hi
  · intro u hu
    rw [hframes] at hu
    by_cases hut : u = t
    · subst hut
      rw [Function.update_self, hf'.2] at hu
      cases hu
    · rw [(hothers u hut).2] at hu
      cases hu
  · intro i hi
    rw [hworker]
    exact h.busy i (hsinks ▸ hi)

omit [Fintype Tid] [DecidableEq Tid] in
/-- A thread that has come to the end of the list has closed every sink. -/
theorem Orderly.all_closed (h : Orderly history s) {k : ℕ} (hf : (s.frames t).closing = some k)
    (hk : s.sinks.length ≤ k) (i : ℕ) (hi : i < sinkCount history) :
    CppLogger.sinkPhase i history = .closed := by
  by_cases hnil : s.sinks = []
  · exact h.dropped hnil i hi
  · rw [← h.counted hnil] at hi
    rw [h.closing t k hf i hi, if_pos (hi.trans_le hk)]

omit [Fintype Tid] [DecidableEq Tid] in
/-- All sinks have been closed, and the list is emptied. -/
theorem Orderly.drop (h : Orderly history s) {k : ℕ} (hk : s.sinks.length ≤ k)
    (hf : (s.frames t).closing = some k) (hes : ∀ e ∈ es, e.ofSink = false)
    (hconfig : configurations es = []) (hsinks : s'.sinks = []) (hworker : s'.worker = .absent) :
    Orderly (history ++ es) s' where
  calls _ i hi := by simp [hsinks] at hi
  closing u j _ i hi := by simp [hsinks] at hi
  dropped _ i hi := by
    rw [sinkCount_append hconfig] at hi
    rw [sinkPhase_quiet hes]
    exact h.all_closed hf hk i hi
  counted hne := absurd hsinks hne
  beyond i hi := by
    rw [sinkPhase_quiet hes]
    exact h.beyond i (sinkCount_append hconfig ▸ hi)
  cleared _ _ := hsinks
  busy k _ := by
    rw [hworker]
    rfl

omit [Fintype Tid] in
/-- The sinks of a configuration are put in place. -/
theorem Orderly.configure (h : Orderly history s) (hcoh : Coherent s) {config : LoggerConfig}
    (hf : s.frames t = .initConfigure config) (hnone : configurations history = [])
    (hf' : f'.closing = none ∧ f'.cleared = false) (hsinks : s'.sinks = config.newSinks)
    (hworker : s'.worker = .absent) (hframes : s'.frames = Function.update s.frames t f') :
    Orderly (history ++ [.configured config]) s' := by
  have hothers : ∀ u, u ≠ t → _ :=
    fun u => hcoh.others (show (s.frames t).exclusive = true by rw [hf]; rfl) f'
  have hready : ∀ k, CppLogger.sinkPhase k (history ++ [.configured config]) = .ready := by
    intro k
    rw [sinkPhase_quiet (by simp [LoggerEvent.ofSink])]
    exact h.beyond k (by simp [sinkCount, hnone])
  have hcount : sinkCount (history ++ [.configured config]) = config.newSinks.length := by
    rw [sinkCount, configurations_append, hnone]
    rfl
  have hframe : ∀ u, (s'.frames u).closing = none ∧ (s'.frames u).cleared = false := by
    intro u
    rw [hframes]
    by_cases hut : u = t
    · subst hut
      rwa [Function.update_self]
    · exact hothers u hut
  constructor
  · intro _ k _
    rw [hready, hworker]
    rfl
  · intro u j hj
    rw [(hframe u).1] at hj
    cases hj
  · intro hnil k hk
    rw [hcount, ← hsinks, hnil] at hk
    cases hk
  · intro _
    rw [hsinks, hcount]
  · exact fun k _ => hready k
  · intro u hu
    rw [(hframe u).2] at hu
    cases hu
  · intro k _
    rw [hworker]
    rfl

theorem Orderly.app (h : Orderly history s) (hcoh : Coherent s) (hfan : FanOut host history s)
    (hmove : AppMove s t ok now (s.frames t) f' effect es)
    (heffect : s.apply (some t) effect = some s')
    (hcoh' : Coherent { s' with frames := Function.update s'.frames t f' }) :
    Orderly (history ++ es) { s' with frames := Function.update s'.frames t f' } := by
  have hframes : Function.update s'.frames t f' = Function.update s.frames t f' := by
    rw [apply_frames heffect]
  have hworker := apply_worker heffect
  rcases hmove.sink_cases with ⟨config, hf, hclosing, hcleared, rfl, rfl⟩ |
    ⟨hconfig, ⟨k, hf, hk, hclosing, hcleared, rfl, rfl⟩ | ⟨hes, ⟨k, hf, hk, hclosing, rfl⟩ |
      ⟨hf, hkeeps, hcleared, hclosing⟩⟩⟩
  · have hlaunch := hfan.launch t
    have hsound := hcoh.frames t
    rw [hf] at hlaunch hsound
    have hsinks : s'.sinks = config.newSinks := by
      simp only [LoggerState.apply, Option.some.injEq] at heffect
      exact heffect ▸ rfl
    exact h.configure hcoh hf hlaunch.2.2 ⟨hclosing, hcleared⟩ hsinks
      (hworker.trans (WorkerPc.eq_absent hsound.2.1)) hframes
  · exact h.close hcoh hk hf ⟨hclosing, hcleared⟩ (apply_sameSettings heffect rfl).sinks hworker
      hframes
  · have hsinks : s'.sinks = [] := by
      simp only [LoggerState.apply, Option.some.injEq] at heffect
      exact heffect ▸ rfl
    exact h.drop hk hf hes hconfig hsinks
      (hworker.trans (WorkerPc.eq_absent ((hcoh.frames t).closing_absent hf)))
  · have hphase : ∀ k, s'.worker.sinkPhase k = s.worker.sinkPhase k := by
      rw [hworker]
      exact hmove.worker_sinkPhase (hcoh.frames t)
    have hothers : ∀ u, u ≠ t → Function.update s'.frames t f' u = s.frames u :=
      fun u hut => by rw [hframes, Function.update_of_ne hut]
    have hself : Function.update s'.frames t f' t = f' := Function.update_self ..
    refine h.quiet (fun k => sinkPhase_quiet hes) (sinkCount_append hconfig)
      (apply_sameSettings heffect hkeeps).sinks hphase (fun hall u => ?_) (fun u j hj => ?_)
      fun u hu => ?_
    · by_cases hut : u = t
      · exact hut ▸ hf
      · exact hothers u hut ▸ hall u
    · by_cases hut : u = t
      · subst hut
        dsimp only at hj
        rw [hself] at hj
        rcases hclosing with hnone | ⟨hzero, hexclusive⟩
        · rw [hnone] at hj
          cases hj
        · rw [hzero] at hj
          cases hj
          refine .inr ⟨rfl, fun v => ?_, fun k => ?_⟩
          · by_cases hvu : v = u
            · exact hvu ▸ hf
            · rw [← hothers v hvu, hframes]
              exact (hcoh.others hexclusive _ hvu).1
          · have hsound := hcoh'.frames u
            dsimp only at hsound
            rw [hself] at hsound
            have habsent : s'.worker = .absent := WorkerPc.eq_absent (hsound.closing_absent hzero)
            rw [← hphase, habsent]
            rfl
      · exact .inl (hothers u hut ▸ hj)
    · by_cases hut : u = t
      · subst hut
        dsimp only at hu
        rw [hself] at hu
        exact hcleared hu
      · exact hothers u hut ▸ hu

/-! ## The worker and the queue -/

omit [Fintype Tid] [DecidableEq Tid] in
/-- The worker calls the sinks one after the other. -/
theorem WorkerMove.sinkPhase (h : WorkerMove host s ok now pc pc' effect fs) {k : ℕ} :
    fs.foldl (SinkPhase.after k) (pc.sinkPhase k) = pc'.sinkPhase k := by
  cases h with
  | @write nf i | @flush site i | @wrote nf i | @flushed site i | @writeThrew nf i
  | @flushThrew site i | @lastFlushThrew failed i =>
    by_cases hik : i = k <;> simp [SinkPhase.after, WorkerPc.sinkPhase, SinkPhase.advance, hik]
  | _ => rfl

omit [Fintype Tid] [DecidableEq Tid] in
/-- It calls no sink that is not in the list. -/
theorem WorkerMove.sinkPhase_beyond (h : WorkerMove host s ok now pc pc' effect fs) {k : ℕ}
    (hk : s.sinks.length ≤ k) : pc'.sinkPhase k = .ready := by
  cases h with
  | write hi | flush hi =>
    simp only [WorkerPc.sinkPhase]
    rw [if_neg (by omega)]
  | _ => rfl

theorem Orderly.work (h : Orderly history s) (hcoh : Coherent s) (hsinks : s.sinks ≠ [])
    (hmove : WorkerMove host s ok now s.worker pc' effect es)
    (heffect : s.apply none effect = some s') :
    Orderly (history ++ es) { s' with worker := pc' } := by
  have hsame : s'.sinks = s.sinks := (apply_sameSettings heffect hmove.keepsSettings).sinks
  have hcount : sinkCount (history ++ es) = sinkCount history :=
    sinkCount_append hmove.queueEvents.2.2.1
  have hnone := hcoh.not_closing hmove.live
  have hcalls := h.calls hnone
  have hclear : ∀ u, (s.frames u).cleared = false := by
    intro u
    by_contra hcleared
    exact hsinks (h.cleared u (by simpa using hcleared))
  constructor
  · intro _ k hk
    change k < s'.sinks.length at hk
    rw [hsame] at hk
    rw [sinkPhase_append, hcalls k hk]
    exact hmove.sinkPhase
  · intro u j hj
    have hclosing : (s.frames u).closing = some j := apply_frames heffect ▸ hj
    rw [hnone u] at hclosing
    cases hclosing
  · exact fun hnil => absurd (hsame ▸ hnil) hsinks
  · intro _
    rw [hcount]
    exact hsame ▸ h.counted hsinks
  · intro k hk
    rw [hcount] at hk
    have hlength : s.sinks.length ≤ k := h.counted hsinks ▸ hk
    rw [sinkPhase_append, h.beyond k hk, ← h.busy k hlength, hmove.sinkPhase]
    exact (hmove.sinkPhase_beyond hlength).trans (h.busy k hlength).symm
  · intro u hu
    have hcleared : (s.frames u).cleared = true := apply_frames heffect ▸ hu
    exact absurd (h.cleared u hcleared) hsinks
  · intro k hk
    change s'.sinks.length ≤ k at hk
    rw [hsame] at hk
    exact hmove.sinkPhase_beyond hk

theorem Orderly.queue_step (h : Orderly history s) (hcoh : Coherent s)
    {b : QueueAction (Entry Tid) (Option Tid)} {queues : QueueState (Entry Tid) (Option Tid)}
    {qes : List (QueueEvent (Entry Tid))} (ha : b.internal = true)
    (hstep : s.queues.step b = some (queues, qes)) :
    Orderly ((qes.map (LoggerEvent.queue b.actor)).foldl afterLoggerEvent history)
      { s with queues := queues } := by
  by_cases hreset : .reset ∈ qes
  · rcases hcoh.queue_cases ha hstep with ⟨rfl, habsent, t, config, -, ht⟩ | ⟨hnot, -⟩ |
      ⟨vs, -, rfl, -⟩
    · have hnil : s.sinks = [] := h.cleared t (by rw [ht]; rfl)
      refine ⟨fun _ k hk => ?_, fun u j _ k hk => ?_, fun _ k hk => ?_, fun hne => absurd hnil hne,
        fun _ _ => rfl, fun _ _ => hnil, h.busy⟩
      · simp [hnil] at hk
      · simp [hnil] at hk
      · cases hk
    · exact absurd hreset hnot
    · simp at hreset
  · rw [foldl_afterLoggerEvent (queue_events_isReset hreset)]
    refine h.quiet (fun k => sinkPhase_quiet ?_) (sinkCount_append ?_) rfl (fun _ => rfl) id
      (fun u j => .inl) fun u => id
    · intro e he
      obtain ⟨qe, -, rfl⟩ := List.mem_map.mp he
      rfl
    · simp [configurations, List.filterMap_map]

theorem Orderly.step (h : Orderly history s) (hcoh : Coherent s) (hfan : FanOut host history s)
    (hstep : s.step host a = some (s', es)) : Orderly (es.foldl afterLoggerEvent history) s' := by
  have hcoh' := hcoh.step hstep
  cases loggerStep_move hstep with
  | begin request hidle =>
    rw [foldl_afterLoggerEvent (by split_ifs <;> simp [LoggerEvent.isReset])]
    exact h.begin hidle request
  | app hmove heffect =>
    rw [foldl_afterLoggerEvent hmove.queueEvents.2.2.2]
    exact h.app hcoh hfan hmove heffect hcoh'
  | work hmove heffect =>
    rw [foldl_afterLoggerEvent hmove.queueEvents.2.2.2]
    obtain ⟨config, -, haccepted, hsinks, -⟩ := hfan.inForce hmove.live
    exact h.work hcoh (hsinks ▸ config.newSinks_ne_nil haccepted) hmove heffect
  | queue ha hqstep => exact h.queue_step hcoh ha hqstep

theorem reaches_orderly {P : LoggerState Tid → LoggerAction Tid → Prop}
    (h : (loggerSystem host).Run P .initial es s) :
    Orderly (lifecycle es) s ∧ FanOut host (lifecycle es) s ∧ Coherent s := by
  refine h.monitored afterLoggerEvent
    (I := fun history s => Orderly history s ∧ FanOut host history s ∧ Coherent s)
    ⟨.initial, .initial, .initial⟩ ?_
  rintro history s a s' fs ⟨horderly, hfan, hcoh⟩ - hstep
  exact ⟨horderly.step hcoh hfan hstep, hfan.step hcoh hstep, hcoh.step hstep⟩

/-! ## The protocol -/

/-- Nothing of the worker comes after a sink has been closed. -/
def ClosedLast (history : List (LoggerEvent Tid)) : Prop :=
  history.Pairwise fun e e' => (∃ k, e = .close k) → e'.byWorker = false

omit [Fintype Tid] in
/-- While there is a worker, no sink has been closed. -/
theorem Orderly.open_of_worker (h : Orderly history s) (hcoh : Coherent s)
    (hfan : FanOut host history s) (hlive : s.worker.isAbsent = false) (k : ℕ) :
    .close k ∉ history := by
  intro hmem
  obtain ⟨config, -, haccepted, hsinks, -⟩ := hfan.inForce hlive
  have hcount := h.counted (hsinks ▸ config.newSinks_ne_nil haccepted)
  have hclosings := count_close (h.not_violated k)
  have hpos : 0 < (CppLogger.sinkPhase k history).closings :=
    hclosings ▸ List.count_pos_iff.mpr hmem
  by_cases hk : k < sinkCount history
  · rw [h.calls (hcoh.not_closing hlive) k (hcount ▸ hk)] at hpos
    have hne : s.worker.sinkPhase k ≠ .closed := WorkerPc.sinkPhase_ne.1
    cases hphase : s.worker.sinkPhase k <;> simp_all [SinkPhase.closings]
  · rw [h.beyond k (not_lt.mp hk)] at hpos
    cases hpos

omit [Fintype Tid] [DecidableEq Tid] in
theorem WorkerMove.not_close (h : WorkerMove host s ok now pc pc' effect fs) (k : ℕ) :
    .close k ∉ fs := by
  cases h <;> simp

theorem ClosedLast.step (h : ClosedLast history) (horderly : Orderly history s)
    (hcoh : Coherent s) (hfan : FanOut host history s)
    (hstep : s.step host a = some (s', es)) : ClosedLast (es.foldl afterLoggerEvent history) := by
  rcases reset_cases hstep with hnone | ⟨who, rfl⟩
  · rw [foldl_afterLoggerEvent hnone]
    have hunworked : Unworked es → ClosedLast (history ++ es) := by
      intro hes
      refine List.pairwise_append.mpr ⟨h, ?_, fun e _ e' he' _ => hes e' he'⟩
      exact List.pairwise_of_forall_mem_list fun e _ e' he' _ => hes e' he'
    cases hcoh.worker_view hstep with
    | moved ha hmove =>
      refine List.pairwise_append.mpr ⟨h, ?_, ?_⟩
      · refine List.pairwise_of_forall_mem_list ?_
        rintro e he e' - ⟨k, rfl⟩
        exact absurd he (hmove.not_close k)
      · rintro e he e' - ⟨k, rfl⟩
        exact absurd he (horderly.open_of_worker hcoh hfan hmove.live k)
    | launched _ _ _ _ hes | joined _ _ _ hes | absent _ _ hes | stayed _ _ _ hes =>
      exact hunworked hes
  · exact List.Pairwise.nil

theorem reaches_closedLast {P : LoggerState Tid → LoggerAction Tid → Prop}
    (h : (loggerSystem host).Run P .initial es s) : ClosedLast (lifecycle es) := by
  suffices ClosedLast (lifecycle es) ∧ Orderly (lifecycle es) s ∧ FanOut host (lifecycle es) s ∧
    Coherent s from this.1
  refine h.monitored afterLoggerEvent
    (I := fun history s => ClosedLast history ∧ Orderly history s ∧ FanOut host history s ∧
      Coherent s) ⟨.nil, .initial, .initial, .initial⟩ ?_
  rintro history s a s' fs ⟨hlast, horderly, hfan, hcoh⟩ - hstep
  exact ⟨hlast.step horderly hcoh hfan hstep, horderly.step hcoh hfan hstep,
    hfan.step hcoh hstep, hcoh.step hstep⟩

/-- A sink is closed when the worker is gone. -/
theorem sinkClosed_step (hcoh : Coherent s) (hstep : s.step host a = some (s', es)) {k : ℕ}
    (hk : .close k ∈ es) : s.worker = .absent := by
  cases loggerStep_move hstep with
  | begin request hidle => split_ifs at hk <;> simp at hk
  | @app t ok now next effect es s₁ hmove heffect =>
    rcases hmove.sink_cases with ⟨config, -, -, -, -, rfl⟩ | ⟨-, ⟨i, hf, -⟩ | ⟨hes, -⟩⟩
    · simp at hk
    · exact WorkerPc.eq_absent ((hcoh.frames t).closing_absent hf)
    · cases hes _ hk
  | work hmove heffect => exact absurd hk (hmove.not_close k)
  | queue ha hqstep => simp at hk

/-- When the next lifecycle begins or `stop` returns, every sink has been closed. -/
theorem Orderly.end_step (h : Orderly history s) (hcoh : Coherent s)
    (hstep : s.step host a = some (s', es))
    (hend : (∃ who, .queue who .reset ∈ es) ∨ ∃ t, .stopReturned t ∈ es) {k : ℕ}
    (hk : k < sinkCount history) : CppLogger.sinkPhase k history = .closed := by
  cases loggerStep_move hstep with
  | begin request hidle => split_ifs at hend <;> simp at hend
  | @app t ok now next effect es s₁ hmove heffect =>
    have hsame := hmove.queueEvents.2.2.2
    rcases hend with ⟨who, hreset⟩ | ⟨u, hreturned⟩
    · cases hsame _ hreset
    · generalize hf : s.frames t = f at hmove
      cases hmove with
      | @stopReturn i hi => exact h.all_closed (by rw [hf]; rfl) hi k hk
      | _ => simp at hreturned
  | work hmove heffect =>
    rcases hend with ⟨who, hreset⟩ | ⟨u, hreturned⟩
    · cases hmove.queueEvents.2.2.2 _ hreset
    · generalize s.worker = pc at hmove
      cases hmove <;> simp at hreturned
  | @queue b queues qes ha hqstep =>
    have hreset : .reset ∈ qes := by
      rcases hend with ⟨who, hreset⟩ | ⟨u, hreturned⟩
      · obtain ⟨qe, hqe, heq⟩ := List.mem_map.mp hreset
        cases heq
        exact hqe
      · simp at hreturned
    rcases hcoh.queue_cases ha hqstep with ⟨-, -, t, config, -, ht⟩ | ⟨hnot, -⟩ | ⟨vs, -, rfl, -⟩
    · exact h.dropped (h.cleared t (by rw [ht]; rfl)) k hk
    · exact absurd hreset hnot
    · simp at hreset

/-- A sink of a lifecycle sees calls that do not overlap, and one closing after the worker
has gone; it has seen it when the next lifecycle begins and when `stop` returns. -/
theorem sink_protocol (h : (loggerSystem host).Reaches .initial es s) :
    (∀ k, CppLogger.sinkPhase k (lifecycle es) ≠ .violated) ∧ ClosedLast (lifecycle es) ∧
      ∀ a s' fs, s.step host a = some (s', fs) → ∀ k,
        (.close k ∈ fs → s.worker = .absent) ∧
        (((∃ who, .queue who .reset ∈ fs) ∨ ∃ t, .stopReturned t ∈ fs) →
          k < sinkCount (lifecycle es) →
            CppLogger.sinkPhase k (lifecycle es) = .closed ∧
              (lifecycle es).count (.close k) = 1) := by
  obtain ⟨horderly, hfan, hcoh⟩ := reaches_orderly h
  have hlast : ClosedLast (lifecycle es) := reaches_closedLast h
  refine ⟨horderly.not_violated, hlast, fun a s' fs hstep k => ⟨sinkClosed_step hcoh hstep, ?_⟩⟩
  intro hend hk
  have hclosed := horderly.end_step hcoh hstep hend hk
  refine ⟨hclosed, ?_⟩
  rw [count_close (horderly.not_violated k), hclosed]
  rfl

theorem sink_protocol_stop :
    ∃ es s s' fs, (loggerSystem epochHost).Reaches .initial es s ∧
      s.step epochHost (.app .first true 0) = some (s', fs) ∧ .stopReturned .first ∈ fs ∧
      .flushed 0 true ∈ lifecycle es ∧ (lifecycle es).count (.close 0) = 1 := by
  obtain ⟨es, s, s', fs, hrun, hstep, hreturned, hflushed, hcount⟩ :
      ∃ es s s' fs, (loggerSystem epochHost).Reaches .initial es s ∧
        s.step epochHost (.app .first true 0) = some (s', fs) ∧ .stopReturned .first ∈ fs ∧
        .flushed 0 true ∈ lifecycle es ∧ 0 < sinkCount (lifecycle es) :=
    ⟨_, _, _, _,
      .of_schedule (initSchedule .first oneSink ++ (stopSchedule .first).dropLast) (by decide),
      (Option.some_get (by decide)).symm, by decide, by decide, by decide⟩
  exact ⟨es, s, s', fs, hrun, hstep, hreturned, hflushed,
    (((sink_protocol hrun).2.2 _ s' fs hstep 0).2 (.inr ⟨_, hreturned⟩) hcount).2⟩

end CppLogger
