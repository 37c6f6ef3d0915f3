import CppLogger.Logger.History

/-!
# The fan-out to the sinks

Every batch the worker removes is handed, formatted, to the sinks one after the other. At
any moment the sinks in front have the batch in hand and the sinks behind do not; a
failure stops the worker in the middle and leaves it at that.
-/

namespace CppLogger

variable {Tid : Type*}

/-- How many sinks the configuration in force has. -/
def sinkCount (history : List (LoggerEvent Tid)) : ℕ :=
  ((configurations history).head?.map fun config => config.newSinks.length).getD 0

/-- The batches `done` have reached every sink, `last` the first `j` of them. -/
structure Delivery (history : List (LoggerEvent Tid)) (done last : List (List (Entry Tid)))
    (j : ℕ) : Prop where
  taken : takenBatches history = done ++ last
  short : last.length ≤ 1
  handed : ∀ i, batchesTo i history =
    if sinkCount history ≤ i then [] else if i < j then done ++ last else done

/-- The batch the worker has in hand, and how many sinks have got it. -/
def WorkerPc.pending (call : Option (Call (Entry Tid))) :
    WorkerPc Tid → List (List (Entry Tid)) × ℕ
  | .popping _ _ =>
    match call with
    | some ⟨_, .notify (.values vs)⟩ => ([vs], 0)
    | some ⟨_, .ret (.values vs)⟩ => ([vs], 0)
    | _ => ([], 0)
  | .format _ batch _ _ => ([batch], 0)
  | .write _ k busy batch _ _ => ([batch], k + busy.toNat)
  | _ => ([], 0)

/-- Nothing has been taken or handed out yet. -/
def Untouched (history : List (LoggerEvent Tid)) : Prop :=
  takenBatches history = [] ∧ ∀ k, handedTo k history = []

/-- The members that `init` sets are those of the one configuration of the lifecycle. -/
def InForce (history : List (LoggerEvent Tid)) (s : LoggerState Tid) : Prop :=
  ∃ config, configurations history = [config] ∧ config.rejected = false ∧
    s.sinks = config.newSinks ∧ s.writeBatchSize = config.writeBatchSize ∧
    s.flushPolicy = config.flushPolicy

/-- What `init` has brought about on its way to a new worker. -/
def Frame.Launch (history : List (LoggerEvent Tid)) (s : LoggerState Tid) (past : Bool) :
    Frame Tid → Prop
  | .initJoin config | .initClose config _ | .initBuild config | .initReset config =>
    config.rejected = false
  | .initResetting config =>
    config.rejected = false ∧ (past = true → Untouched history ∧ configurations history = [])
  | .initConfigure config =>
    config.rejected = false ∧ Untouched history ∧ configurations history = []
  | .initRunning | .initSpawn => Untouched history ∧ InForce history s
  | _ => True

/-- The texts of a batch. -/
def formatLines (host : Host Tid) (batch : List (Entry Tid)) : List Text :=
  batch.map fun entry => formatLine host entry.record

/-- The worker's batch has the right size, and its texts are those of the batch. -/
def WorkerPc.Formats (host : Host Tid) (writeBatchSize : ℕ) : WorkerPc Tid → Prop
  | .format _ batch formattedBatch _ =>
    batch ≠ [] ∧ batch.length ≤ writeBatchSize ∧
      formattedBatch = formatLines host (batch.take formattedBatch.length)
  | .write _ _ _ batch formattedBatch _ =>
    batch ≠ [] ∧ batch.length ≤ writeBatchSize ∧ formattedBatch = formatLines host batch
  | _ => True

/-- What a sink is handed: a batch of admissible size, formatted. -/
def WellFormed (host : Host Tid) (history : List (LoggerEvent Tid))
    (p : List (Entry Tid) × List Text) : Prop :=
  p.1 ≠ [] ∧ p.2 = formatLines host p.1 ∧
    ∃ config, configurations history = [config] ∧ p.1.length ≤ config.writeBatchSize

/-- The invariant of the fan-out. -/
structure FanOut (host : Host Tid) (history : List (LoggerEvent Tid)) (s : LoggerState Tid) :
    Prop where
  launch : ∀ t, (s.frames t).Launch history s (s.past (some t))
  inForce : s.worker.isAbsent = false → InForce history s
  delivery : ∃ done last j, Delivery history done last j ∧
    (s.worker.looping = true → (last, j) = s.worker.pending (s.call none))
  formats : s.worker.Formats host s.writeBatchSize
  cache : s.cache.Valid host
  wellFormed : ∀ k, ∀ p ∈ handedTo k history, WellFormed host history p

variable {history history' : List (LoggerEvent Tid)} {host : Host Tid}
variable {s s' : LoggerState Tid} {t u : Tid} {ok : Bool} {now : ℤ} {f f' : Frame Tid}
variable {effect : Effect Tid} {es : List (LoggerEvent Tid)} {who : Option Tid}
variable {pc pc' : WorkerPc Tid}

theorem Delivery.initial : Delivery ([] : List (LoggerEvent Tid)) [] [] 0 where
  taken := rfl
  short := by simp
  handed i := by simp [batchesTo, handedTo]

theorem FanOut.initial : FanOut host [] (LoggerState.initial : LoggerState Tid) where
  launch := fun _ => trivial
  inForce := by intro h; cases h
  delivery := ⟨[], [], 0, .initial, by intro h; cases h⟩
  formats := trivial
  cache := by intro h; cases h
  wellFormed := by simp [handedTo]

/-! ## Histories that tell the same -/

/-- The two histories agree on what the fan-out is about. -/
structure Agrees (history history' : List (LoggerEvent Tid)) : Prop where
  taken : takenBatches history' = takenBatches history
  handed : ∀ k, handedTo k history' = handedTo k history
  configurations : configurations history' = configurations history

theorem Agrees.delivery (h : Agrees history history') {done last : List (List (Entry Tid))}
    {j : ℕ} (hd : Delivery history done last j) : Delivery history' done last j where
  taken := h.taken.trans hd.taken
  short := hd.short
  handed i := by
    unfold batchesTo sinkCount
    rw [h.handed, h.configurations]
    exact hd.handed i

theorem Agrees.untouched (h : Agrees history history') (hu : Untouched history) :
    Untouched history' :=
  ⟨h.taken.trans hu.1, fun k => (h.handed k).trans (hu.2 k)⟩

theorem Agrees.wellFormed (h : Agrees history history')
    (hw : ∀ k, ∀ p ∈ handedTo k history, WellFormed host history p) :
    ∀ k, ∀ p ∈ handedTo k history', WellFormed host history' p := by
  intro k p hp
  rw [h.handed] at hp
  unfold WellFormed
  rw [h.configurations]
  exact hw k p hp

/-- The settings of the lifecycle are unchanged. -/
structure SameSettings (s s' : LoggerState Tid) : Prop where
  sinks : s'.sinks = s.sinks
  writeBatchSize : s'.writeBatchSize = s.writeBatchSize
  flushPolicy : s'.flushPolicy = s.flushPolicy

theorem InForce.congr (h : InForce history s)
    (hh : configurations history' = configurations history)
    (hs : SameSettings s s') : InForce history' s' := by
  obtain ⟨config, hc, haccepted, hsinks, hsize, hpolicy⟩ := h
  exact ⟨config, hh.trans hc, haccepted, hs.sinks.trans hsinks,
    hs.writeBatchSize.trans hsize, hs.flushPolicy.trans hpolicy⟩

theorem Frame.Launch.congr {past : Bool} (h : f.Launch history s past)
    (hh : Agrees history history') (hs : SameSettings s s') : f.Launch history' s' past := by
  cases f with
  | initResetting config =>
    exact ⟨h.1, fun hp => ⟨hh.untouched (h.2 hp).1, hh.configurations.trans (h.2 hp).2⟩⟩
  | initConfigure config =>
    exact ⟨h.1, hh.untouched h.2.1, hh.configurations.trans h.2.2⟩
  | initRunning | initSpawn => exact ⟨hh.untouched h.1, h.2.congr hh.configurations hs⟩
  | _ => exact h

theorem Frame.Launch.of_not_exclusive {past : Bool} (hf : f.exclusive = false) :
    f.Launch history s past := by
  cases f <;> trivial

theorem agrees_append (htaken : takenBatches es = []) (hhanded : ∀ k, handedTo k es = [])
    (hconfig : configurations es = []) : Agrees history (history ++ es) where
  taken := by simp [htaken]
  handed k := by simp [hhanded]
  configurations := by simp [hconfig]

/-! ## Application threads -/

theorem FanOut.begin [DecidableEq Tid] (h : FanOut host history s)
    (hidle : s.frames t = .idle) (request : Request) :
    FanOut host (history ++ if request = .stop then [.stopCalled t] else [])
      { s with
        frames := Function.update s.frames t (request.frame s.tickets)
        tickets := s.tickets + 1 } := by
  have hh : Agrees history (history ++ if request = .stop then [.stopCalled t] else []) := by
    refine agrees_append ?_ ?_ ?_ <;> split_ifs <;> simp [takenBatches, handedTo, configurations]
  obtain ⟨done, last, j, hd, hp⟩ := h.delivery
  refine ⟨fun u => ?_, fun ha => (h.inForce ha).congr hh.configurations ⟨rfl, rfl, rfl⟩,
    ⟨done, last, j, hh.delivery hd, hp⟩, h.formats, h.cache, hh.wellFormed h.wellFormed⟩
  dsimp only
  by_cases hut : u = t
  · subst hut
    rw [Function.update_self]
    exact .of_not_exclusive (Request.frame_outside Tid request s.tickets).1
  · rw [Function.update_of_ne hut]
    exact (h.launch u).congr hh ⟨rfl, rfl, rfl⟩

def Effect.keepsSettings : Effect Tid → Bool
  | .configure _ | .dropSinks => false
  | _ => true

/-- What a step of an application thread means for the fan-out: `init` puts a configuration
into force, makes a worker, or a thread waits for one; sinks are dropped, and the settings
change, only while there is no worker. -/
theorem AppMove.fanOut_cases [Fintype Tid] (h : AppMove s t ok now f f' effect es)
    (hf : f.Sound s.view (s.past (some t))) :
    (∃ config, f = .initConfigure config ∧ f' = .initRunning ∧ effect = .configure config ∧
        es = [.configured config] ∧ s.worker = .absent) ∨
      configurations es = [] ∧
        (f = .initSpawn ∧ effect = .spawn ∨ effect = .join ∨
          effect = .dropSinks ∧ s.worker = .absent ∧ f.exclusive = true ∨
          effect.keepsSettings = true ∧ ∀ pc : WorkerPc Tid, effect.onWorker pc = pc) := by
  have habsent : s.view.absent = true → s.worker = .absent := WorkerPc.eq_absent
  cases h with
  | initConfigure => exact .inl ⟨_, rfl, rfl, rfl, rfl, habsent hf.2.1⟩
  | initSpawn => exact .inr ⟨rfl, .inl ⟨rfl, rfl⟩⟩
  | initJoin | stopJoin => exact .inr ⟨rfl, .inr (.inl rfl)⟩
  | initClosed => exact .inr ⟨rfl, .inr (.inr (.inl ⟨rfl, habsent hf.2, rfl⟩))⟩
  | initAbandoned | stopReturn =>
    exact .inr ⟨rfl, .inr (.inr (.inl ⟨rfl, habsent hf.2.1, rfl⟩))⟩
  | _ => exact .inr ⟨rfl, .inr (.inr (.inr ⟨rfl, fun _ => rfl⟩))⟩

variable [Fintype Tid] [DecidableEq Tid]

theorem apply_sameSettings (h : s.apply who effect = some s')
    (hkeeps : effect.keepsSettings = true) : SameSettings s s' := by
  cases effect <;> simp only [LoggerState.apply, Option.some.injEq, Option.map_eq_some_iff] at h
  case configure | dropSinks => cases hkeeps
  case call | ret =>
    obtain ⟨r, -, rfl⟩ := h
    exact ⟨rfl, rfl, rfl⟩
  all_goals subst h; exact ⟨rfl, rfl, rfl⟩

theorem apply_cache (h : s.apply who effect = some s') (hv : s.cache.Valid host)
    (hset : ∀ cache, effect ≠ .setCache cache) : s'.cache.Valid host := by
  cases effect <;> simp only [LoggerState.apply, Option.some.injEq, Option.map_eq_some_iff] at h
  case setCache cache => exact absurd rfl (hset cache)
  case configure =>
    subst h
    intro hhas
    cases hhas
  case call | ret =>
    obtain ⟨r, -, rfl⟩ := h
    exact hv
  all_goals subst h; exact hv

/-- The launch proceeds step by step. -/
theorem AppMove.launch (h : AppMove s t ok now f f' effect es)
    (hl : f.Launch history s (s.past (some t))) (heffect : s.apply (some t) effect = some s') :
    f'.Launch (history ++ es) s' (effect.onPast (s.past (some t))) := by
  cases h with
  | initAccepted _ hc => exact hc
  | initAbsent | initJoin | initClose | initClosed | initBuild => exact hl
  | initReset => exact ⟨hl, by simp [Effect.onPast]⟩
  | initResetting hc =>
    have hpast : s.past (some t) = true := by simp [LoggerState.past, hc, Call.entered]
    rw [List.append_nil]
    exact ⟨hl.1, hl.2 hpast⟩
  | @initConfigure config =>
    obtain ⟨haccepted, ⟨htaken, hhanded⟩, hnone⟩ := hl
    simp only [LoggerState.apply, Option.some.injEq] at heffect
    subst heffect
    refine ⟨⟨?_, fun k => ?_⟩, config, ?_, haccepted, rfl, rfl, rfl⟩
    · rw [takenBatches_append, htaken]
      rfl
    · rw [handedTo_append, hhanded]
      rfl
    · rw [configurations_append, hnone]
      rfl
  | initRunning =>
    have hsame := apply_sameSettings heffect rfl
    rw [List.append_nil]
    exact ⟨hl.1, hl.2.congr rfl hsame⟩
  | _ => trivial

omit [Fintype Tid] [DecidableEq Tid] in
/-- Nothing taken, nothing handed out. -/
theorem Untouched.delivery (h : Untouched history) : Delivery history [] [] 0 where
  taken := h.1
  short := by simp
  handed i := by simp [batchesTo, h.2]

omit [DecidableEq Tid] in
theorem AppMove.keeps_outside (h : AppMove s t ok now f f' effect es)
    (hf : f.exclusive = false) : effect.keepsSettings = true ∧ configurations es = [] := by
  cases h <;> first | exact ⟨rfl, rfl⟩ | cases hf

omit [DecidableEq Tid] in
theorem AppMove.noCache (h : AppMove s t ok now f f' effect es) (cache : TimestampCache) :
    effect ≠ .setCache cache := by
  rintro rfl
  cases h

/-- The other threads launch on, undisturbed. -/
theorem FanOut.launch_update (h : FanOut host history s) (hcoh : Coherent s)
    (hmove : AppMove s t ok now (s.frames t) f' effect es)
    (heffect : s.apply (some t) effect = some s') :
    ∀ u, (Function.update s'.frames t f' u).Launch (history ++ es) s' (s'.past (some u)) := by
  intro u
  rw [apply_frames heffect]
  by_cases hut : u = t
  · subst hut
    rw [Function.update_self, (apply_queues heffect).2.2.2]
    exact hmove.launch (h.launch u) heffect
  · rw [Function.update_of_ne hut]
    cases ht : (s.frames t).exclusive with
    | true => exact .of_not_exclusive (hcoh.exclusion t u (Ne.symm hut) ht).1
    | false =>
      obtain ⟨hkeeps, hconfig⟩ := hmove.keeps_outside ht
      obtain ⟨-, htaken, hhanded, -⟩ := hmove.queueEvents
      have hpast : s'.past (some u) = s.past (some u) := by
        unfold LoggerState.past
        rw [apply_call_other heffect (by simpa using hut)]
      rw [hpast]
      exact (h.launch u).congr (agrees_append htaken hhanded hconfig)
        (apply_sameSettings heffect hkeeps)

theorem FanOut.app (h : FanOut host history s) (hcoh : Coherent s)
    (hmove : AppMove s t ok now (s.frames t) f' effect es)
    (heffect : s.apply (some t) effect = some s') :
    FanOut host (history ++ es) { s' with frames := Function.update s'.frames t f' } := by
  have hlaunch := h.launch_update hcoh hmove heffect
  have hworker := apply_worker heffect
  have hcall : s'.call none = s.call none := apply_call_other heffect (by simp)
  have hcache : s'.cache.Valid host := apply_cache heffect h.cache hmove.noCache
  obtain ⟨done, last, j, hd, hp⟩ := h.delivery
  obtain ⟨-, htaken, hhanded, -⟩ := hmove.queueEvents
  rcases hmove.fanOut_cases (hcoh.frames t) with ⟨config, -, rfl, rfl, rfl, habsent⟩ |
    ⟨hconfig, hcases⟩
  · have habsent' : s'.worker = .absent := hworker.trans habsent
    have hl := hlaunch t
    rw [Function.update_self] at hl
    obtain ⟨hunt, -⟩ := hl
    refine ⟨hlaunch, ?_, ⟨[], [], 0, hunt.delivery, ?_⟩, ?_, hcache, ?_⟩
    · simp [habsent', WorkerPc.isAbsent]
    · simp [habsent', WorkerPc.looping]
    · simp [habsent', WorkerPc.Formats]
    · intro k p hk
      rw [hunt.2] at hk
      cases hk
  · have hh : Agrees history (history ++ es) := agrees_append htaken hhanded hconfig
    have hwell := hh.wellFormed h.wellFormed
    rcases hcases with ⟨hspawn, rfl⟩ | rfl | ⟨rfl, habsent, -⟩ | ⟨hkeeps, hkeepsWorker⟩
    · have hl := h.launch t
      rw [hspawn] at hl
      have hsame : SameSettings s s' := apply_sameSettings heffect rfl
      have hforce : InForce (history ++ es) s' := hl.2.congr hh.configurations hsame
      refine ⟨hlaunch, fun _ => hforce,
        ⟨[], [], 0, (hh.untouched hl.1).delivery, ?_⟩, ?_, hcache, hwell⟩
      · simp [hworker, Effect.onWorker, WorkerPc.pending]
      · simp [hworker, Effect.onWorker, WorkerPc.Formats]
    · refine ⟨hlaunch, ?_, ⟨done, last, j, hh.delivery hd, ?_⟩, ?_, hcache, hwell⟩
      · simp [hworker, Effect.onWorker, WorkerPc.isAbsent]
      · simp [hworker, Effect.onWorker, WorkerPc.looping]
      · simp [hworker, Effect.onWorker, WorkerPc.Formats]
    · have habsent' : s'.worker = .absent := hworker.trans habsent
      refine ⟨hlaunch, ?_, ⟨done, last, j, hh.delivery hd, ?_⟩, ?_, hcache, hwell⟩
      · simp [habsent', WorkerPc.isAbsent]
      · simp [habsent', WorkerPc.looping]
      · simp [habsent', WorkerPc.Formats]
    · have hsame := apply_sameSettings heffect hkeeps
      rw [hkeepsWorker] at hworker
      refine ⟨hlaunch, fun ha => ?_, ⟨done, last, j, hh.delivery hd, fun hl => ?_⟩, ?_, hcache,
        hwell⟩
      · have hforce : InForce (history ++ es) s' :=
          (h.inForce (hworker ▸ ha)).congr hh.configurations hsame
        exact hforce
      · change (last, j) = s'.worker.pending (s'.call none)
        rw [hworker, hcall]
        exact hp (hworker ▸ hl)
      · change s'.worker.Formats host s'.writeBatchSize
        rw [hworker, hsame.writeBatchSize]
        exact h.formats

/-! ## The worker -/

omit [Fintype Tid] [DecidableEq Tid] in
/-- No thread is launching a worker while there is one. -/
theorem Frame.Launch.of_worker {past past' : Bool} (h : f.Launch history s past)
    (hf : f.Sound s.view past) (hw : s.view.absent = false) : f.Launch history' s' past' := by
  cases f with
  | initResetting | initConfigure | initRunning | initSpawn => simp [hw, Frame.Sound] at hf
  | _ => exact h

theorem apply_call_self {op : QueueOp (Entry Tid)} (h : s.apply who (.call op) = some s') :
    s'.call who = some ⟨op, .enter⟩ := by
  simp only [LoggerState.apply, Option.map_eq_some_iff] at h
  obtain ⟨⟨queues, qes⟩, hstep, rfl⟩ := h
  cases step_move hstep with
  | call => simp [LoggerState.call]

omit [Fintype Tid] [DecidableEq Tid] in
/-- Sink `k` is handed the batch that the sinks before it have got. -/
theorem Delivery.write {done : List (List (Entry Tid))} {batch : List (Entry Tid)} {k : ℕ}
    {formattedBatch : List Text} (h : Delivery history done [batch] k)
    (hk : k < sinkCount history) :
    Delivery (history ++ [.write k batch formattedBatch]) done [batch] (k + 1) where
  taken := by
    rw [takenBatches_append, h.taken]
    simp [takenBatches]
  short := h.short
  handed i := by
    have hcount : sinkCount (history ++ [.write k batch formattedBatch]) = sinkCount history := by
      simp [sinkCount, configurations]
    have hwrite : batchesTo i [LoggerEvent.write k batch formattedBatch] =
        if k = i then [batch] else [] := by
      unfold batchesTo handedTo
      split_ifs with hki <;> simp [hki]
    rw [hcount, batchesTo_append, h.handed i, hwrite]
    by_cases hki : k = i
    · subst hki
      simp [not_le.mpr hk]
    · simp only [hki, if_false, List.append_nil]
      split_ifs <;> first | rfl | omega

omit [Fintype Tid] [DecidableEq Tid] in
/-- Every sink has got the batch. -/
theorem Delivery.complete {done last : List (List (Entry Tid))} {k : ℕ}
    (h : Delivery history done last k) (hk : sinkCount history ≤ k) :
    Delivery history (done ++ last) [] 0 where
  taken := by simpa using h.taken
  short := by simp
  handed i := by
    rw [h.handed i]
    split_ifs <;> first | rfl | omega

omit [Fintype Tid] [DecidableEq Tid] in
/-- The events of a step of the worker that concern the sinks. -/
theorem WorkerMove.handed (h : WorkerMove host s ok now pc pc' effect es) :
    (∀ k, handedTo k es = []) ∨
      ∃ nf k batch formattedBatch flag, pc = .write nf k false batch formattedBatch flag ∧
        pc' = .write nf k true batch formattedBatch flag ∧ k < s.sinks.length ∧
        effect = .skip ∧ es = [.write k batch formattedBatch] := by
  cases h with
  | write hk => exact .inr ⟨_, _, _, _, _, rfl, rfl, hk, rfl, rfl⟩
  | _ => exact .inl fun _ => rfl

/-- The batch in hand changes with the worker's place as the deliveries do. -/
theorem WorkerMove.pending (h : WorkerMove host s ok now pc pc' effect es)
    (heffect : s.apply none effect = some s') (hn : s.sinks.length = sinkCount history)
    {done last : List (List (Entry Tid))} {j : ℕ} (hd : Delivery history done last j)
    (hp : pc.looping = true → (last, j) = pc.pending (s.call none)) :
    ∃ done' last' j', Delivery (history ++ es) done' last' j' ∧
      (pc'.looping = true → (last', j') = pc'.pending (s'.call none)) := by
  obtain ⟨-, htaken, hconfig, -⟩ := h.queueEvents
  have hkeep : (∀ k, handedTo k es = []) →
      (pc'.looping = true → pc.looping = true ∧ pc'.pending (s'.call none) =
        pc.pending (s.call none)) →
      ∃ done' last' j', Delivery (history ++ es) done' last' j' ∧
        (pc'.looping = true → (last', j') = pc'.pending (s'.call none)) := by
    intro hhanded hpending
    refine ⟨done, last, j, (agrees_append htaken hhanded hconfig).delivery hd, fun hl => ?_⟩
    obtain ⟨hl', heq⟩ := hpending hl
    rw [heq]
    exact hp hl'
  cases h with
  | popBatchFor | popBatch =>
    refine hkeep (fun _ => rfl) fun _ => ⟨rfl, ?_⟩
    rw [apply_call_self heffect]
    rfl
  | took hc =>
    refine hkeep (fun _ => rfl) fun _ => ⟨rfl, ?_⟩
    simp [WorkerPc.pending, hc]
  | @tookNothing _ _ op r hc hr =>
    refine hkeep (fun _ => rfl) fun _ => ⟨rfl, ?_⟩
    cases r <;> simp_all [WorkerPc.pending]
  | @write nf k batch texts flag hk =>
    have hp' := hp rfl
    simp only [WorkerPc.pending, Bool.toNat_false, Nat.add_zero, Prod.mk.injEq] at hp'
    obtain ⟨rfl, rfl⟩ := hp'
    exact ⟨done, _, _, hd.write (hn ▸ hk), fun _ => rfl⟩
  | @written nf k batch texts flag hk =>
    have hp' := hp rfl
    simp only [WorkerPc.pending, Bool.toNat_false, Nat.add_zero, Prod.mk.injEq] at hp'
    obtain ⟨rfl, rfl⟩ := hp'
    rw [List.append_nil]
    exact ⟨_, _, _, hd.complete (hn ▸ hk), fun _ => rfl⟩
  | wrote =>
    refine hkeep (fun _ => rfl) fun _ => ⟨rfl, ?_⟩
    simp [WorkerPc.pending]
  | @flush site | @flushed site =>
    refine hkeep (fun _ => rfl) fun hl => ?_
    cases site <;> first | exact ⟨rfl, rfl⟩ | cases hl
  | _ =>
    refine hkeep (fun _ => rfl) fun hl => ?_
    first | exact ⟨rfl, rfl⟩ | cases hl

omit [Fintype Tid] [DecidableEq Tid] in
theorem formatLines_take_succ {batch : List (Entry Tid)} {n : ℕ} {entry : Entry Tid}
    (h : batch[n]? = some entry) :
    formatLines host (batch.take (n + 1)) =
      formatLines host (batch.take n) ++ [formatLine host entry.record] := by
  rw [List.take_add_one, h]
  simp [formatLines]

omit [Fintype Tid] [DecidableEq Tid] in
/-- What the worker has formatted are the lines of its batch. -/
theorem WorkerMove.formats (h : WorkerMove host s ok now pc pc' effect es)
    (hpc : pc.Formats host s.writeBatchSize) (hcache : s.cache.Valid host)
    (hbatch : ∀ op batch, s.call none = some ⟨op, .ret (.values batch)⟩ →
      batch ≠ [] ∧ batch.length ≤ s.writeBatchSize) :
    pc'.Formats host s.writeBatchSize := by
  cases h with
  | took hc => exact ⟨(hbatch _ _ hc).1, (hbatch _ _ hc).2, by simp [formatLines]⟩
  | @format nf batch texts flag entry hentry =>
    obtain ⟨hne, hlen, htexts⟩ := hpc
    refine ⟨hne, hlen, ?_⟩
    rw [List.length_append, List.length_singleton, formatLines_take_succ hentry,
      (formatMessage_valid hcache entry.record).1, ← htexts]
  | @formatted nf batch texts flag hle =>
    obtain ⟨hne, hlen, htexts⟩ := hpc
    refine ⟨hne, hlen, ?_⟩
    rwa [List.take_of_length_le hle] at htexts
  | write | wrote => exact hpc
  | _ => trivial

omit [Fintype Tid] [DecidableEq Tid] in
theorem InForce.sinkCount (h : InForce history s) : s.sinks.length = sinkCount history := by
  obtain ⟨config, hc, -, hsinks, -⟩ := h
  simp [CppLogger.sinkCount, hc, hsinks]

omit [Fintype Tid] [DecidableEq Tid] in
theorem WorkerMove.keepsSettings (h : WorkerMove host s ok now pc pc' effect es) :
    effect.keepsSettings = true := by
  cases h <;> rfl

omit [Fintype Tid] [DecidableEq Tid] in
theorem WorkerMove.setCache (h : WorkerMove host s ok now pc pc' effect es)
    (hcache : s.cache.Valid host) {cache : TimestampCache} (he : effect = .setCache cache) :
    cache.Valid host := by
  cases h <;> cases he
  exact (formatMessage_valid hcache _).2

omit [Fintype Tid] [DecidableEq Tid] in
/-- A batch that the queue hands out has the size that was asked for. -/
theorem Coherent.batch_size (hcoh : Coherent s) {op : QueueOp (Entry Tid)}
    {batch : List (Entry Tid)} (hc : s.call none = some ⟨op, .ret (.values batch)⟩) :
    batch ≠ [] ∧ batch.length ≤ s.writeBatchSize := by
  cases hcoh.fitting none _ hc with
  | values hop hne hlen =>
    rcases WorkerPc.queueOp_cases (hcoh.op_worker hc) with ⟨nf, timeout, -, hmax⟩ | ⟨-, -, hclose⟩
    · obtain rfl := Option.some.inj (hop.symm.trans hmax)
      exact ⟨hne, hlen⟩
    · simp only at hclose
      subst hclose
      cases hop

theorem FanOut.work (h : FanOut host history s) (hcoh : Coherent s)
    (hmove : WorkerMove host s ok now s.worker pc' effect es)
    (heffect : s.apply none effect = some s') :
    FanOut host (history ++ es) { s' with worker := pc' } := by
  obtain ⟨hlive, -⟩ := hmove.onView s.view
  obtain ⟨-, htaken, hconfig, -⟩ := hmove.queueEvents
  have hforce := h.inForce hlive
  have hsame := apply_sameSettings heffect hmove.keepsSettings
  have hconfigs : configurations (history ++ es) = configurations history := by simp [hconfig]
  obtain ⟨done, last, j, hd, hp⟩ := h.delivery
  obtain ⟨done', last', j', hd', hp'⟩ := hmove.pending heffect hforce.sinkCount hd hp
  refine ⟨fun u => ?_, fun _ => ?_, ⟨done', last', j', hd', hp'⟩, ?_, ?_, ?_⟩
  · rw [apply_frames heffect]
    exact (h.launch u).of_worker (hcoh.frames u) hlive
  · have hforce' : InForce (history ++ es) s' := hforce.congr hconfigs hsame
    exact hforce'
  · change pc'.Formats host s'.writeBatchSize
    rw [hsame.writeBatchSize]
    exact hmove.formats h.formats h.cache fun op batch hc => hcoh.batch_size hc
  · change s'.cache.Valid host
    by_cases hset : ∃ cache, effect = .setCache cache
    · obtain ⟨cache, rfl⟩ := hset
      simp only [LoggerState.apply, Option.some.injEq] at heffect
      subst heffect
      exact hmove.setCache h.cache rfl
    · exact apply_cache heffect h.cache fun cache he => hset ⟨cache, he⟩
  · intro k p hk
    rw [handedTo_append, List.mem_append] at hk
    have hold : ∀ p, WellFormed host history p → WellFormed host (history ++ es) p := by
      rintro p ⟨hne, hlines, hsize⟩
      exact ⟨hne, hlines, hconfigs ▸ hsize⟩
    rcases hk with hk | hk
    · exact hold p (h.wellFormed k p hk)
    rcases hmove.handed with hnone | ⟨nf, i, batch, texts, flag, hpc, -, -, -, rfl⟩
    · rw [hnone] at hk
      cases hk
    · have hformats := h.formats
      rw [hpc] at hformats
      obtain ⟨hne, hlen, htexts⟩ := hformats
      obtain rfl : p = (batch, texts) := by
        by_cases hik : i = k <;> simp [handedTo, hik] at hk
        exact hk
      obtain ⟨config, hc, -, -, hsize, -⟩ := hforce
      exact hold _ ⟨hne, htexts, config, hc, hsize ▸ hlen⟩

/-! ## Sections of the queue -/

omit [Fintype Tid] [DecidableEq Tid] in
theorem Stirred.pending {c c' : Option (Call (Entry Tid))} (h : Stirred c c') :
    pc.pending c' = pc.pending c := by
  rcases h with rfl | ⟨⟨op, st⟩, rfl, ⟨cv, hcv⟩, rfl⟩
  · rfl
  · cases pc <;> first | rfl | cases cv <;> cases st <;> rfl

omit [Fintype Tid] [DecidableEq Tid] in
theorem pending_nothing {op : QueueOp (Entry Tid)} {st : Stage (Entry Tid)} {nf : ℤ}
    {timeout : Option ℤ} (hst : ∀ vs, st ≠ .notify (.values vs) ∧ st ≠ .ret (.values vs)) :
    (WorkerPc.popping nf timeout).pending (some ⟨op, st⟩) = ([], 0) := by
  cases st with
  | notify r | ret r => cases r <;> first | rfl | simp at hst
  | _ => rfl

section QueueSteps

variable {a : QueueAction (Entry Tid) (Option Tid)}
variable {queues : QueueState (Entry Tid) (Option Tid)} {qes : List (QueueEvent (Entry Tid))}

/-- What a step inside the queue means for the fan-out: `init` starts a new history, the
worker takes a batch, or neither. -/
theorem Coherent.queue_cases (hcoh : Coherent s) (ha : a.internal = true)
    (hstep : s.queues.step a = some (queues, qes)) :
    (qes = [.reset] ∧ s.worker = .absent ∧
        ∃ t config, a.actor = some t ∧ s.frames t = .initResetting config) ∨
      (.reset ∉ qes ∧ (∀ vs, .taken vs ∉ qes) ∧
        s.worker.pending (queues.calls none) = s.worker.pending (s.call none)) ∨
      ∃ vs, a.actor = none ∧ qes = [.taken vs] ∧ s.worker.pending (s.call none) = ([], 0) ∧
        s.worker.pending (queues.calls none) = ([vs], 0) := by
  have hother : a.actor ≠ none →
      s.worker.pending (queues.calls none) = s.worker.pending (s.call none) :=
    fun hne => (step_stirred hstep hne.symm).pending
  cases step_move hstep with
  | call | ret => cases ha
  | @run t alloc expired c sec hc hsec =>
    rcases hsec.reset_events with ⟨capacity, policy, hop, hes⟩ | hreset
    · obtain ⟨-, habsent, u, config, rfl, hu, -⟩ := hcoh.resetting hc hop
      exact .inl ⟨hes, WorkerPc.eq_absent habsent, u, config, rfl, hu⟩
    cases t with
    | some u =>
      refine .inr (.inl ⟨hreset, ?_, hother (by simp [QueueAction.actor])⟩)
      rcases hsec.taken with ⟨n, hmax, -, -⟩ | ⟨htaken, -⟩
      · rcases Frame.queueOp_cases (hcoh.op_frame hc) with ⟨g, entry, -, hop⟩ | ⟨config, -, hop⟩ |
          ⟨-, hop⟩ <;> rw [hop] at hmax <;> cases hmax
      · exact htaken
    | none =>
      have hcall : s.call none = some c := hc
      have hbefore : s.worker.pending (s.call none) = ([], 0) := by
        obtain ⟨op, st⟩ := c
        rw [hcall]
        rcases WorkerPc.queueOp_cases (hcoh.op_worker hc) with ⟨nf, timeout, hpc, -⟩ |
          ⟨final, hpc, -⟩ <;> rw [hpc]
        · rcases hsec.waiting with hst | ⟨g, hst⟩ | hst <;> simp only at hst <;> subst hst <;> rfl
        · rfl
      simp only [Function.update_self]
      rw [hbefore]
      rcases hsec.taken with ⟨n, hmax, hes, hst⟩ | ⟨htaken, hst⟩
      · rcases WorkerPc.queueOp_cases (hcoh.op_worker hc) with ⟨nf, timeout, hpc, -⟩ |
          ⟨final, -, hop⟩
        · rw [hpc, hst]
          exact .inr (.inr ⟨_, rfl, hes, rfl, rfl⟩)
        · rw [hop] at hmax
          cases hmax
      · refine .inr (.inl ⟨hreset, htaken, ?_⟩)
        rcases WorkerPc.queueOp_cases (hcoh.op_worker hc) with ⟨nf, timeout, hpc, -⟩ |
          ⟨final, hpc, -⟩ <;> rw [hpc]
        · exact pending_nothing hst
        · rfl
  | @notify t target c sig stage calls hc hsig =>
    refine .inr (.inl ⟨by simp, by simp, ?_⟩)
    by_cases ht : t = none
    · subst ht
      have hcall : s.call none = some c := hc
      dsimp only
      rw [hcall, Function.update_self]
      cases s.worker <;> try rfl
      rcases Call.signal_cases hsig with ⟨e, v, r, rfl, -, rfl⟩ | ⟨r, rfl, -, rfl⟩ |
        ⟨op, n, r, rfl, -, -, rfl⟩ | ⟨r, rfl, -, rfl⟩ | ⟨rfl, -, rfl⟩
      · cases r <;> rfl
      · cases r <;> rfl
      · cases r <;> rfl
      · have hfit := hcoh.fitting none _ hc
        cases hfit with
        | closed => rfl
        | took hop => cases hop
      · rfl
    · exact hother ht
  | @wake t c hc hs =>
    refine .inr (.inl ⟨by simp, by simp, ?_⟩)
    by_cases ht : t = none
    · subst ht
      refine Stirred.pending (.inr ⟨c, hc, hs.elim (⟨_, ·⟩) (⟨_, ·⟩), ?_⟩)
      exact Function.update_self none (some c.woken) s.queues.calls
    · exact hother ht
  | @timeout t c hc hs =>
    refine .inr (.inl ⟨by simp, by simp, ?_⟩)
    by_cases ht : t = none
    · subst ht
      refine Stirred.pending (.inr ⟨c, hc, ⟨_, Call.sleepsOn_of_isTimed hs⟩, ?_⟩)
      exact Function.update_self none (some c.woken) s.queues.calls
    · exact hother ht

omit [Fintype Tid] [DecidableEq Tid] in
theorem queue_events_agree (htaken : ∀ vs, .taken vs ∉ qes) :
    Agrees history (history ++ qes.map (LoggerEvent.queue who)) := by
  refine agrees_append ?_ ?_ ?_ <;>
    simp only [takenBatches, handedTo, configurations, List.filterMap_map,
      List.filterMap_eq_nil_iff]
  · intro e he
    cases e with
    | taken vs => exact absurd he (htaken vs)
    | _ => rfl
  · exact fun _ _ _ => rfl
  · exact fun _ _ => rfl

omit [Fintype Tid] [DecidableEq Tid] in
theorem queue_events_isReset (hreset : .reset ∉ qes) :
    ∀ e ∈ qes.map (LoggerEvent.queue who), e.isReset = false := by
  intro e he
  obtain ⟨qe, hqe, rfl⟩ := List.mem_map.mp he
  cases qe with
  | reset => exact absurd hqe hreset
  | _ => rfl

/-- A launching thread that has not run its reset has not run any section. -/
theorem FanOut.launch_queue (h : FanOut host history s) (hcoh : Coherent s)
    (ha : a.internal = true) (hstep : s.queues.step a = some (queues, qes))
    (hreset : .reset ∉ qes) (hh : Agrees history history') (u : Tid) :
    (s.frames u).Launch history' { s with queues := queues }
      (LoggerState.past { s with queues := queues } (some u)) := by
  have hlaunch : (s.frames u).Launch history' { s with queues := queues } (s.past (some u)) :=
    (h.launch u).congr hh ⟨rfl, rfl, rfl⟩
  rcases (internal_step hstep ha (some u)).2 with hsame | ⟨⟨alloc, expired, rfl⟩, -⟩
  · change (s.frames u).Launch history' _ ((queues.calls (some u)).any Call.entered)
    rw [hsame]
    exact hlaunch
  · cases step_move hstep with
    | @run _ _ _ c sec hc hsec =>
      cases hf : s.frames u with
      | initResetting config =>
        have hop := hcoh.op_frame hc
        rw [hf] at hop
        obtain ⟨op, st⟩ := c
        cases hop
        exact absurd (by simp [hsec.of_reset]) hreset
      | _ =>
        rw [hf] at hlaunch
        exact hlaunch

theorem FanOut.queue_step (h : FanOut host history s) (hcoh : Coherent s)
    (ha : a.internal = true) (hstep : s.queues.step a = some (queues, qes)) :
    FanOut host ((qes.map (LoggerEvent.queue a.actor)).foldl afterLoggerEvent history)
      { s with queues := queues } := by
  obtain ⟨done, last, j, hd, hp⟩ := h.delivery
  rcases hcoh.queue_cases ha hstep with ⟨rfl, habsent, t, config, -, ht⟩ |
    ⟨hreset, htaken, hpending⟩ | ⟨vs, hactor, rfl, hbefore, hafter⟩
  · have hnew : ([.reset].map (LoggerEvent.queue a.actor)).foldl afterLoggerEvent history = [] :=
      rfl
    rw [hnew]
    refine ⟨fun u => ?_, ?_, ⟨[], [], 0, .initial, ?_⟩, ?_, h.cache, by simp [handedTo]⟩
    · by_cases hut : u = t
      · subst hut
        have hlaunch := h.launch u
        rw [ht] at hlaunch
        dsimp only
        rw [ht]
        exact ⟨hlaunch.1, fun _ => ⟨⟨rfl, fun _ => rfl⟩, rfl⟩⟩
      · exact .of_not_exclusive (hcoh.exclusion t u (Ne.symm hut) (by rw [ht]; rfl)).1
    · simp [habsent, WorkerPc.isAbsent]
    · simp [habsent, WorkerPc.looping]
    · simp [habsent, WorkerPc.Formats]
  · have hh : Agrees history (history ++ qes.map (LoggerEvent.queue a.actor)) :=
      queue_events_agree htaken
    rw [foldl_afterLoggerEvent (queue_events_isReset hreset)]
    exact ⟨h.launch_queue hcoh ha hstep hreset hh,
      fun hw => (h.inForce hw).congr hh.configurations ⟨rfl, rfl, rfl⟩,
      ⟨done, last, j, hh.delivery hd, fun hl => (hp hl).trans hpending.symm⟩, h.formats, h.cache,
      hh.wellFormed h.wellFormed⟩
  · rw [foldl_afterLoggerEvent (queue_events_isReset (by simp))]
    have hlooping : s.worker.looping = true := by
      revert hafter
      cases s.worker <;> simp [WorkerPc.pending, WorkerPc.looping]
    have hlast := (hp hlooping).trans hbefore
    simp only [Prod.mk.injEq] at hlast
    obtain ⟨rfl, rfl⟩ := hlast
    have hconfig : configurations (history ++ [.queue a.actor (.taken vs)]) =
        configurations history := by simp [configurations]
    have hhanded : ∀ k, handedTo k (history ++ [.queue a.actor (.taken vs)]) =
        handedTo k history := by simp [handedTo]
    refine ⟨fun u => ?_, fun hw => (h.inForce hw).congr hconfig ⟨rfl, rfl, rfl⟩,
      ⟨done, [vs], 0, ⟨?_, by simp, fun i => ?_⟩, fun _ => hafter.symm⟩, h.formats, h.cache, ?_⟩
    · exact (h.launch u).of_worker (hcoh.frames u) (by
        revert hlooping
        cases hpc : s.worker <;> simp [LoggerState.view, hpc, WorkerPc.isAbsent, WorkerPc.looping])
    · rw [takenBatches_append, hd.taken]
      simp [takenBatches]
    · have hold := hd.handed i
      unfold batchesTo sinkCount at hold ⊢
      simp only [List.map_cons, List.map_nil]
      rw [hhanded, hconfig, hold]
      simp
    · intro k p hk
      simp only [List.map_cons, List.map_nil] at hk ⊢
      rw [hhanded] at hk
      unfold WellFormed
      rw [hconfig]
      exact h.wellFormed k p hk

end QueueSteps

theorem FanOut.step (h : FanOut host history s) (hcoh : Coherent s) {a : LoggerAction Tid}
    (hstep : s.step host a = some (s', es)) :
    FanOut host (es.foldl afterLoggerEvent history) s' := by
  cases loggerStep_move hstep with
  | begin request hidle =>
    rw [foldl_afterLoggerEvent (by split_ifs <;> simp [LoggerEvent.isReset])]
    exact h.begin hidle request
  | app hmove heffect =>
    rw [foldl_afterLoggerEvent hmove.queueEvents.2.2.2]
    exact h.app hcoh hmove heffect
  | work hmove heffect =>
    rw [foldl_afterLoggerEvent hmove.queueEvents.2.2.2]
    exact h.work hcoh hmove heffect
  | queue ha hqstep => exact h.queue_step hcoh ha hqstep

/-- The fan-out invariant holds of every run and its current lifecycle. -/
theorem reaches_fanOut {P : LoggerState Tid → LoggerAction Tid → Prop}
    (h : (loggerSystem host).Run P .initial es s) :
    FanOut host (lifecycle es) s ∧ Coherent s := by
  refine h.monitored afterLoggerEvent (I := fun history s => FanOut host history s ∧ Coherent s)
    ⟨.initial, .initial⟩ ?_
  rintro history s a s' fs ⟨hfan, hcoh⟩ - hstep
  exact ⟨hfan.step hcoh hstep, hcoh.step hstep⟩

end CppLogger
