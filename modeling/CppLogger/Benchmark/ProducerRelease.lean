import CppLogger.Benchmark.StartProtocol

/-!
# The release of the producers

Once `start` has returned the group, the workers wait for their release, so that what they
hold in thread-local storage outlives the drain of the logger. The owner of the group may
call `releaseAndJoin`, as often as it likes, and in the end destroys the group, which calls
it once more.
-/

namespace CppLogger

variable {N M : ℕ} {E : Type*}

/-- Where the owner of a group stands. `destructor` tells who has called `releaseAndJoin`. -/
inductive OwnerPc
  | starting
  | holding
  | releaseAndJoin (destructor : Bool) (pc : ReleasePc)
  | destroyed
  deriving DecidableEq, Repr

/-- A group and the thread that has called `start`. -/
structure OwnedGroup (N : ℕ) (E : Type*) where
  group : ProducerGroup N E := .initial
  owner : OwnerPc := .starting

def OwnedGroup.initial : OwnedGroup N E := {}

inductive OwnedAction (N : ℕ) (E : Type*)
  | group (action : GroupAction N E)
  | owner
  | call (destructor : Bool)

/-- The steps of the threads, apart from the calls that the owner decides on. -/
def OwnedAction.ofThread : OwnedAction N E → Bool
  | .group action => action.ofThread
  | .owner => true
  | .call _ => false

def OwnedAction.wakeup : OwnedAction N E → Bool
  | .group action => action.wakeup
  | _ => false

def OwnedAction.isCall : OwnedAction N E → Bool
  | .call _ => true
  | _ => false

/-- Where the owner goes on behind a step of `releaseAndJoin`. -/
def OwnerPc.behindRelease (destructor : Bool) : Option ReleasePc → OwnerPc
  | some pc => .releaseAndJoin destructor pc
  | none => if destructor then .destroyed else .holding

namespace OwnedGroup

/-- The next step of `releaseAndJoin`, or the return of `start`. -/
def ownerStep (s : OwnedGroup N E) : Option (OwnedGroup N E × List (GroupEvent N E)) :=
  match s.owner with
  | .starting =>
    match s.group.caller with
    | .returned => some ({ s with owner := .holding }, [])
    | _ => none
  | .releaseAndJoin destructor pc =>
    (s.group.releaseAndJoin pc).map fun (group, next, joins) =>
      ({ group, owner := .behindRelease destructor next }, joins)
  | .holding | .destroyed => none

/-- The owner calls `releaseAndJoin`, or destroys the group. -/
def call (s : OwnedGroup N E) (destructor : Bool) : Option (OwnedGroup N E) :=
  match s.owner with
  | .holding => some { s with owner := .releaseAndJoin destructor .release }
  | _ => none

end OwnedGroup

/-- The producers from the construction of their group to its end. -/
def ownedSystem (N M : ℕ) (E : Type*) :
    TransitionSystem (OwnedGroup N E) (OwnedAction N E) (GroupEvent N E) where
  step s
    | .group action =>
      ((groupSystem N M E).step s.group action).map fun r => ({ s with group := r.1 }, r.2)
    | .owner => s.ownerStep
    | .call destructor => (s.call destructor).map fun s' => (s', [])

/-- The thread of the worker has been joined. -/
def GroupEvent.joins (i : Fin N) : GroupEvent N E → Bool
  | .joined j => decide (j = i)
  | _ => false

/-- The workers may exit, but those asleep are yet to be told. -/
def OwnerPc.releasing : OwnerPc → Bool
  | .releaseAndJoin _ .notifyRelease => true
  | _ => false

namespace ProducerGroup

variable {s t s₁ : ProducerGroup N E} {i : Fin N} {pc pc' : ProducerPc E}
variable {es fs : List (GroupEvent N E)}

/-! ## What a step joins -/

theorem joins_update {joined : Fin N → Bool} {j : Fin N} (hj : joined j = false) (i : Fin N) :
    List.countP (GroupEvent.joins i) [(.joined j : GroupEvent N E)] + (joined i).toNat =
      (Function.update joined j true i).toNat := by
  by_cases hij : j = i
  · subst hij
    simp [GroupEvent.joins, hj]
  · simp [GroupEvent.joins, hij, Function.update_of_ne (Ne.symm hij)]

theorem WorkerMove.joins (h : WorkerMove M s i pc pc' s₁ fs) (j : Fin N) :
    fs.countP (GroupEvent.joins j) = 0 := by
  cases h <;> rfl

theorem ReleaseMove.joins {rpc : ReleasePc} {next : Option ReleasePc}
    (h : ReleaseMove s rpc t next fs) (i : Fin N) :
    fs.countP (GroupEvent.joins i) + (s.joined i).toNat = (t.joined i).toNat := by
  cases h with
  | join next hless hjoined hexited => exact joins_update hjoined i
  | _ => exact Nat.zero_add _

theorem CallerMove.joins {caller : StartPc E} (h : CallerMove s caller t fs) (i : Fin N) :
    fs.countP (GroupEvent.joins i) + (s.joined i).toNat = (t.joined i).toNat := by
  cases h with
  | join failure destructor next hless hjoined hexited => exact joins_update hjoined i
  | _ => exact Nat.zero_add _

/-- A thread is joined at most once, also where `releaseAndJoin` runs a second time. -/
theorem joins_step {a : GroupAction N E} (h : (groupSystem N M E).step s a = some (t, fs))
    (i : Fin N) : fs.countP (GroupEvent.joins i) + (s.joined i).toNat = (t.joined i).toNat := by
  cases a with
  | caller outcome => exact (startStep_move h).joins i
  | worker j outcome =>
    obtain ⟨pc, s₁, hmove, rfl⟩ := workerLoop_move h
    rw [hmove.joins, Nat.zero_add]
    exact congrArg (fun joined => (joined i).toNat) hmove.same.joined.symm
  | wakeCaller =>
    obtain ⟨s', hwake, heq⟩ := Option.map_eq_some_iff.mp h
    cases heq
    exact (wakeCaller_move hwake).joins i
  | wakeWorker j =>
    obtain ⟨s', hwake, heq⟩ := Option.map_eq_some_iff.mp h
    cases heq
    obtain ⟨pc, -, rfl⟩ := wakeWorker_move (M := M) hwake
    exact Nat.zero_add _
  | tick elapsed =>
    cases h
    exact Nat.zero_add _

/-! ## A worker after its completion -/

theorem WorkerMove.ending (h : WorkerMove M s i pc pc' s₁ fs) (hdone : pc.done = true) :
    fs = [] ∧ (pc' = .asleepRelease → s.releaseWorkers = false) ∧
      (pc' = .exited → s.releaseWorkers = true) := by
  cases h with
  | notifyCompletion | wakeRelease => exact ⟨rfl, nofun, nofun⟩
  | awaitRelease =>
    refine ⟨rfl, fun hpc => ?_, fun hpc => ?_⟩ <;>
      cases hrelease : s.releaseWorkers <;> simp [afterRelease, hrelease] at hpc ⊢
  | _ => cases hdone

theorem WorkerMove.returned (h : WorkerMove M s i pc pc' s₁ fs) (hreturned : s.caller = .returned) :
    s₁.caller = .returned := by
  cases h with
  | recordPrepare | recordSubmit => rwa [recordWorkerFailure_eq]
  | arrive | notifyCompletion =>
    dsimp only
    rw [hreturned]
    rfl
  | _ => exact hreturned

end ProducerGroup

namespace OwnedGroup

open ProducerGroup

variable {s t : OwnedGroup N E} {i : Fin N} {es fs : List (GroupEvent N E)}

/-! ## The invariant after the return of `start` -/

/-- What holds of a worker that waits for its release, or has got it. -/
def WaitOk (released : Bool) (owner : OwnerPc) : ProducerPc E → Prop
  | .asleepRelease => released = false ∨ owner.releasing = true
  | .exited => released = true
  | _ => True

/-- What the flag and the joined threads tell of the owner. -/
def OwnerOk (released : Bool) (joined : Fin N → Bool) : OwnerPc → Prop
  | .starting => False
  | .holding => released = true → ∀ i, joined i = true
  | .releaseAndJoin _ .release => True
  | .releaseAndJoin _ .notifyRelease => released = true
  | .releaseAndJoin _ (.join next) => released = true ∧ ∀ i : Fin N, i < next → joined i = true
  | .destroyed => ∀ i, joined i = true

/-- Nothing is left to do for the workers but to wait for their release. -/
structure Held (s : OwnedGroup N E) : Prop where
  returned : s.group.caller = .returned
  launched : s.group.launched = N
  done : s.group.AllDone
  waiting : ∀ i, WaitOk s.group.releaseWorkers s.owner (s.group.workers i)
  joined : ∀ i, s.group.joined i = true → s.group.workers i = .exited
  owner : OwnerOk s.group.releaseWorkers s.group.joined s.owner

/-- The group as `start` returns it. -/
theorem held_of_returned {g : ProducerGroup N E} (h : Barrier g)
    (hreturned : g.caller = .returned) : Held { group := g, owner := .holding } := by
  have hok := h.caller
  rw [hreturned] at hok
  obtain ⟨hlaunched, -, hrelease, hdone, -⟩ := hok
  refine ⟨hreturned, hlaunched, hdone, fun i => ?_, h.joined, fun hreleased => ?_⟩
  · have hworker := h.workers i
    cases hpc : g.workers i with
    | asleepRelease => exact .inl hrelease
    | exited =>
      rw [hpc] at hworker
      exact hworker.2
    | _ => trivial
  · cases hrelease.symm.trans hreleased

theorem waitOk_of_move {g g₁ : ProducerGroup N E} {pc pc' : ProducerPc E}
    (h : WorkerMove M g i pc pc' g₁ fs) (hdone : pc.done = true) (owner : OwnerPc) :
    WaitOk g.releaseWorkers owner pc' := by
  obtain ⟨-, hasleep, hexited⟩ := h.ending hdone
  cases pc' with
  | asleepRelease => exact .inl (hasleep rfl)
  | exited => exact hexited rfl
  | _ => trivial

theorem Held.step_worker (h : Held s) {pc : ProducerPc E} {g₁ : ProducerGroup N E}
    (hmove : WorkerMove M s.group i (s.group.workers i) pc g₁ fs) :
    Held { s with group := g₁.goto i pc } where
  returned := hmove.returned h.returned
  launched := hmove.same.launched.trans h.launched
  done j := by
    dsimp only
    rw [goto_workers, hmove.same.workers]
    by_cases hj : j = i
    · subst hj
      rw [Function.update_self]
      exact (hmove.done (h.done j)).1
    · rw [Function.update_of_ne hj]
      exact h.done j
  waiting j := by
    change WaitOk g₁.releaseWorkers s.owner ((g₁.goto i pc).workers j)
    rw [goto_workers, hmove.same.workers, hmove.same.releaseWorkers]
    by_cases hj : j = i
    · subst hj
      rw [Function.update_self]
      exact waitOk_of_move hmove (h.done j) s.owner
    · rw [Function.update_of_ne hj]
      exact h.waiting j
  joined j hj := by
    have hexited : s.group.workers j = .exited := h.joined j (hmove.same.joined ▸ hj)
    have hne : j ≠ i := by
      rintro rfl
      exact hmove.alive.2.1 hexited
    dsimp only
    rw [goto_workers, Function.update_of_ne hne, hmove.same.workers, hexited]
  owner := by
    change OwnerOk g₁.releaseWorkers g₁.joined s.owner
    rw [hmove.same.releaseWorkers, hmove.same.joined]
    exact h.owner

/-- The workers do nothing that could be observed any more. -/
theorem Held.step_group (h : Held s) {a : GroupAction N E} {g : ProducerGroup N E}
    (hstep : (groupSystem N M E).step s.group a = some (g, fs)) :
    Held { s with group := g } ∧ fs = [] := by
  rcases step_cases hstep with ⟨i, pc, g₁, hmove, rfl⟩ | hmove | ⟨elapsed, rfl, rfl⟩
  · exact ⟨h.step_worker hmove, (hmove.ending (h.done i)).1⟩
  · rw [h.returned] at hmove
    cases hmove
  · exact ⟨⟨h.returned, h.launched, h.done, h.waiting, h.joined, h.owner⟩, rfl⟩

theorem waitOk_notifyRelease {owner owner' : OwnerPc} {pc : ProducerPc E}
    (h : WaitOk true owner pc) : WaitOk true owner' pc.notifyRelease := by
  cases pc with
  | exited => exact h
  | _ => trivial

/-- A step of `releaseAndJoin` keeps the invariant and joins at most a thread that has exited. -/
theorem Held.step_release {destructor : Bool} {pc : ReleasePc} {next : Option ReleasePc}
    {g' : ProducerGroup N E} (h : Held s) (howner : s.owner = .releaseAndJoin destructor pc)
    (hmove : ReleaseMove s.group pc g' next fs) :
    Held { group := g', owner := .behindRelease destructor next } ∧
      ∀ x ∈ fs, ∃ i, x = .joined i := by
  obtain ⟨g, owner⟩ := s
  obtain ⟨hreturned, hlaunched, hdone, hwaiting, hjoined, hok⟩ := h
  dsimp only at *
  rw [howner] at hok hwaiting
  have hexited : ∀ i, g'.joined i = true → g'.workers i = .exited := fun i => hmove.exited hjoined
  have hall : ∀ i : Fin N, (i : ℕ) < g.launched := fun i => i.isLt.trans_eq hlaunched.symm
  have hnew := hmove
  cases hmove with
  | release =>
    refine ⟨⟨hreturned, hlaunched, hdone, fun i => ?_, hexited, rfl⟩, nofun⟩
    cases hpc : g.workers i with
    | asleepRelease => exact .inr rfl
    | exited => exact rfl
    | _ => trivial
  | notifyRelease =>
    have hreleased : g.releaseWorkers = true := hok
    refine ⟨⟨hreturned, hlaunched, fun i => ?_, fun i => ?_, hexited, hreleased, nofun⟩, nofun⟩
    · exact (notifyRelease_done (g.workers i)).trans (hdone i)
    · have hwait := hwaiting i
      dsimp only at hwait ⊢
      rw [hreleased] at hwait ⊢
      exact waitOk_notifyRelease hwait
  | skip next hless hjoin =>
    obtain ⟨hreleased, hbefore⟩ := hok
    exact ⟨⟨hreturned, hlaunched, hdone, hwaiting, hexited, hreleased, fun i hi =>
      hnew.before (fun i hi _ => hbefore i hi) hi (hall i)⟩, nofun⟩
  | join next hless hjoin =>
    obtain ⟨hreleased, hbefore⟩ := hok
    exact ⟨⟨hreturned, hlaunched, hdone, hwaiting, hexited, hreleased, fun i hi =>
      hnew.before (fun i hi _ => hbefore i hi) hi (hall i)⟩,
      fun x hx => ⟨_, List.mem_singleton.mp hx⟩⟩
  | joined hle =>
    obtain ⟨hreleased, hbefore⟩ := hok
    have hjoin : ∀ i, g'.joined i = true := fun i => hbefore i ((hall i).trans_le hle)
    refine ⟨⟨hreturned, hlaunched, hdone, fun i => ?_, hexited, ?_⟩, nofun⟩
    · dsimp only
      rw [hexited i (hjoin i)]
      exact hreleased
    · cases destructor with
      | true => exact hjoin
      | false => exact fun _ => hjoin

/-- The owner has seen `start` return, or goes on in `releaseAndJoin`. -/
theorem ownerStep_cases (hstep : s.ownerStep = some (t, fs)) :
    (s.owner = .starting ∧ s.group.caller = .returned ∧ t = { s with owner := .holding } ∧
        fs = []) ∨
      ∃ destructor pc g next, s.owner = .releaseAndJoin destructor pc ∧
        ReleaseMove s.group pc g next fs ∧
        t = { group := g, owner := .behindRelease destructor next } := by
  unfold ownerStep at hstep
  cases howner : s.owner with
  | starting =>
    rw [howner] at hstep
    dsimp only at hstep
    split at hstep
    · next hreturned =>
      cases hstep
      exact .inl ⟨rfl, hreturned, rfl, rfl⟩
    · cases hstep
  | releaseAndJoin destructor pc =>
    rw [howner] at hstep
    obtain ⟨⟨g, next, joins⟩, hrelease, heq⟩ := Option.map_eq_some_iff.mp hstep
    cases heq
    exact .inr ⟨destructor, pc, g, next, rfl, releaseAndJoin_move hrelease, rfl⟩
  | holding | destroyed =>
    rw [howner] at hstep
    cases hstep

/-! ## Every run -/

/-- Before and after the return of `start`. What is observed after it are the joins. -/
inductive Lifetime (M : ℕ) (es : List (GroupEvent N E)) : OwnedGroup N E → Prop
  | starting {g : ProducerGroup N E} (h : (groupSystem N M E).Reaches .initial es g) :
      Lifetime M es { group := g, owner := .starting }
  | held {s : OwnedGroup N E} (h : Held s) {es₀ es₁ : List (GroupEvent N E)}
      {g : ProducerGroup N E} (hes : es = es₀ ++ es₁)
      (hreaches : (groupSystem N M E).Reaches .initial es₀ g) (hreturned : g.caller = .returned)
      (hjoins : ∀ x ∈ es₁, ∃ i, x = .joined i) : Lifetime M es s

theorem Held.call (h : Held s) {destructor : Bool} (hcall : s.call destructor = some t) :
    Held t ∧ t.group = s.group := by
  obtain ⟨g, owner⟩ := s
  obtain ⟨hreturned, hlaunched, hdone, hwaiting, hjoined, howner⟩ := h
  cases owner with
  | holding =>
    cases hcall
    exact ⟨⟨hreturned, hlaunched, hdone, hwaiting, hjoined, trivial⟩, rfl⟩
  | _ => cases hcall

theorem Lifetime.step (h : Lifetime M es s) {a : OwnedAction N E}
    (hstep : (ownedSystem N M E).step s a = some (t, fs)) :
    Lifetime M (es ++ fs) t ∧
      ∀ i, fs.countP (GroupEvent.joins i) + (s.group.joined i).toNat =
        (t.group.joined i).toNat := by
  cases a with
  | group a =>
    obtain ⟨⟨g', fs'⟩, hgroup, heq⟩ := Option.map_eq_some_iff.mp hstep
    cases heq
    refine ⟨?_, joins_step hgroup⟩
    cases h with
    | starting h => exact .starting (.tail h trivial hgroup)
    | held h hes hreaches hreturned hjoins =>
      obtain ⟨hheld, rfl⟩ := h.step_group hgroup
      exact .held hheld ((List.append_nil _).trans hes) hreaches hreturned hjoins
  | owner =>
    rcases ownerStep_cases hstep with ⟨hstarting, hreturned, rfl, rfl⟩ |
      ⟨destructor, pc, g, next, howner, hmove, rfl⟩
    · refine ⟨?_, fun i => Nat.zero_add _⟩
      cases h with
      | starting h =>
        rw [List.append_nil]
        exact .held (held_of_returned (reaches_barrier h) hreturned) (List.append_nil es).symm h
          hreturned nofun
      | held h =>
        have hok := h.owner
        rw [hstarting] at hok
        exact hok.elim
    · refine ⟨?_, hmove.joins⟩
      cases h with
      | starting h => cases howner
      | held h hes hreaches hreturned hjoins =>
        obtain ⟨hheld, hnew⟩ := h.step_release howner hmove
        refine .held hheld (by rw [hes, List.append_assoc]) hreaches hreturned fun x hx => ?_
        rcases List.mem_append.mp hx with hold | hfresh
        · exact hjoins x hold
        · exact hnew x hfresh
  | call destructor =>
    obtain ⟨s', hcall, heq⟩ := Option.map_eq_some_iff.mp hstep
    cases heq
    cases h with
    | starting h => cases hcall
    | held h hes hreaches hreturned hjoins =>
      obtain ⟨hheld, hsame⟩ := h.call hcall
      refine ⟨.held hheld ((List.append_nil _).trans hes) hreaches hreturned hjoins, fun i => ?_⟩
      rw [hsame]
      exact Nat.zero_add _

theorem reaches_lifetime (h : (ownedSystem N M E).Reaches .initial es s) :
    Lifetime M es s ∧ ∀ i, es.countP (GroupEvent.joins i) = (s.group.joined i).toNat := by
  refine h.invariant (I := fun es s => Lifetime M es s ∧
    ∀ i, es.countP (GroupEvent.joins i) = (s.group.joined i).toNat)
    ⟨.starting .refl, fun i => rfl⟩ ?_
  rintro es s a t fs ⟨hlifetime, hcount⟩ - hstep
  obtain ⟨hlifetime', hcount'⟩ := hlifetime.step hstep
  refine ⟨hlifetime', fun i => ?_⟩
  rw [List.countP_append, hcount i, ← hcount' i, Nat.add_comm]

theorem Lifetime.submitting (h : Lifetime M es s) {k : ℕ}
    (hpc : s.group.workers i = .submitting k) : k < M := by
  cases h with
  | starting h => exact (reaches_chronicle h).submitting hpc
  | held h =>
    have hdone := h.done i
    rw [hpc] at hdone
    cases hdone

/-! ## The end of the group -/

/-- Some thread can take a step of its own. -/
def Progresses (M : ℕ) (s : OwnedGroup N E) : Prop :=
  ∃ a : OwnedAction N E, a.ofThread = true ∧ ((ownedSystem N M E).step s a).isSome = true

/-- The group has been destroyed, or `start` has thrown. -/
def Ended (s : OwnedGroup N E) : Prop :=
  s.owner = .destroyed ∨ ∃ failure, s.group.caller = .threw failure

theorem progresses_of_group (h : s.group.Progresses M) : s.Progresses M := by
  obtain ⟨a, ha, hstep⟩ := h
  obtain ⟨r, hr⟩ := Option.isSome_iff_exists.mp hstep
  refine ⟨.group a, ha, ?_⟩
  change (((groupSystem N M E).step s.group a).map _).isSome = true
  rw [hr]
  rfl

theorem progresses_of_owner (h : s.ownerStep.isSome = true) : s.Progresses M :=
  ⟨.owner, rfl, h⟩

/-- While the owner waits for a worker to exit, that worker can go on. -/
theorem Held.progresses (h : Held s) (hholding : s.owner ≠ .holding)
    (hdestroyed : s.owner ≠ .destroyed) : s.Progresses M := by
  obtain ⟨g, owner⟩ := s
  obtain ⟨-, -, hdone, hwaiting, -, howner⟩ := h
  dsimp only at *
  cases owner with
  | starting => exact absurd howner id
  | holding => exact absurd rfl hholding
  | destroyed => exact absurd rfl hdestroyed
  | releaseAndJoin destructor pc =>
    rcases g.releaseAndJoin_blocked pc with hsome | ⟨i, hnext, -, hexited⟩
    · exact progresses_of_owner (Option.isSome_map.trans hsome)
    · subst hnext
      apply progresses_of_group
      apply progresses_of_runnable (i := i)
      have hworker := hdone i
      have hwait := hwaiting i
      cases hpc : g.workers i with
      | asleepRelease =>
        rw [hpc] at hwait
        rcases hwait with hfalse | hfalse
        · cases howner.1.symm.trans hfalse
        · cases hfalse
      | exited => exact absurd hpc hexited
      | notifyCompletion | awaitRelease => rfl
      | _ =>
        rw [hpc] at hworker
        cases hworker

theorem Lifetime.progresses (h : Lifetime M es s) (hholding : s.owner ≠ .holding)
    (hended : ¬s.Ended) : s.Progresses M := by
  cases h with
  | starting h =>
    rename_i g
    by_cases hfinished : g.Finished
    · rcases finished_iff.mp hfinished with hreturned | hthrew
      · apply progresses_of_owner
        unfold ownerStep
        dsimp only
        rw [hreturned]
        rfl
      · exact absurd (.inr hthrew) hended
    · exact progresses_of_group ((reaches_barrier h).progresses hfinished)
  | held h => exact h.progresses hholding fun hdestroyed => hended (.inl hdestroyed)

/-- At the end the threads have been joined, and nobody is left that could touch the group. -/
theorem Lifetime.ended (h : Lifetime M es s) (hended : s.Ended) (i : Fin N) :
    (s.group.joined i = true ↔ (i : ℕ) < s.group.launched) ∧
      (s.group.workers i).runnable = false := by
  cases h with
  | starting h =>
    rename_i g
    obtain hfalse | ⟨failure, hthrew⟩ := hended
    · cases hfalse
    have hbarrier := reaches_barrier h
    have hall : g.AllJoined := by
      have hok := hbarrier.caller
      rwa [hthrew] at hok
    have hlaunched : (i : ℕ) < g.launched → g.workers i = .exited := fun hless =>
      hbarrier.joined i (hall i hless)
    have hnew : g.launched ≤ i → g.workers i = .unlaunched := (hbarrier.unlaunched i).mpr
    refine ⟨⟨fun hjoined => ?_, hall i⟩, ?_⟩
    · by_contra hless
      exact nomatch (hbarrier.joined i hjoined).symm.trans (hnew (not_lt.mp hless))
    · rcases Nat.lt_or_ge i g.launched with hless | hle
      · exact congrArg ProducerPc.runnable (hlaunched hless)
      · exact congrArg ProducerPc.runnable (hnew hle)
  | held h =>
    obtain hdestroyed | ⟨failure, hthrew⟩ := hended
    · have hok := h.owner
      rw [hdestroyed] at hok
      refine ⟨⟨fun _ => ?_, fun _ => hok i⟩, congrArg ProducerPc.runnable (h.joined i (hok i))⟩
      rw [h.launched]
      exact i.isLt
    · cases h.returned.symm.trans hthrew

/-! ## What is left to do -/

/-- The steps that the owner has left at most, with one more for each worker it may wake. -/
def ownerRemaining (N : ℕ) : OwnerPc → ℕ
  | .starting => 1
  | .holding | .destroyed => 0
  | .releaseAndJoin _ pc => pc.remaining N

def remaining (M : ℕ) (s : OwnedGroup N E) : ℕ := s.group.remaining M + ownerRemaining N s.owner

/-- What an action may add: a spurious wakeup one step, a call those of `releaseAndJoin`. -/
def gain (a : OwnedAction N E) : ℕ := a.wakeup.toNat + (2 * N + 3) * a.isCall.toNat

theorem remaining_owner (hstep : s.ownerStep = some (t, fs)) :
    1 + t.remaining M ≤ s.remaining M := by
  rcases ownerStep_cases hstep with ⟨hstarting, -, rfl, -⟩ |
    ⟨destructor, pc, g, next, howner, hmove, rfl⟩
  · unfold remaining
    rw [hstarting]
    exact (Nat.add_comm _ _).le
  · have hspent := hmove.remaining (M := M)
    have hcaller : g.caller.remaining N M g.launched =
        s.group.caller.remaining N M s.group.launched := by cases hmove <;> rfl
    have hbehind : ownerRemaining N (.behindRelease destructor next) =
        next.elim 0 (ReleasePc.remaining N) := by
      cases next with
      | some pc => rfl
      | none => cases destructor <;> rfl
    have howning : ownerRemaining N (.releaseAndJoin destructor pc) = pc.remaining N := rfl
    simp only [remaining, ProducerGroup.remaining, hbehind, hcaller, howner, howning]
    omega

theorem remaining_call {destructor : Bool} (hcall : s.call destructor = some t) :
    t.remaining M ≤ s.remaining M + (2 * N + 3) := by
  obtain ⟨g, owner⟩ := s
  cases owner with
  | holding =>
    cases hcall
    exact le_rfl
  | _ => cases hcall

theorem Lifetime.spends (h : Lifetime M es s) {a : OwnedAction N E}
    (hstep : (ownedSystem N M E).step s a = some (t, fs)) :
    a.ofThread.toNat + t.remaining M ≤ s.remaining M + gain a := by
  cases a with
  | group a =>
    obtain ⟨⟨g', fs'⟩, hgroup, heq⟩ := Option.map_eq_some_iff.mp hstep
    cases heq
    have hone := remaining_step (fun i k => h.submitting) hgroup
    simp only [OwnedAction.ofThread, gain, OwnedAction.wakeup, OwnedAction.isCall, remaining,
      Bool.toNat_false]
    omega
  | owner => exact (remaining_owner hstep).trans (Nat.le_add_right _ _)
  | call destructor =>
    obtain ⟨s', hcall, heq⟩ := Option.map_eq_some_iff.mp hstep
    cases heq
    have hone := remaining_call (M := M) hcall
    simp only [OwnedAction.ofThread, gain, OwnedAction.wakeup, OwnedAction.isCall,
      Bool.toNat_false, Bool.toNat_true]
    omega

open TransitionSystem

theorem sum_gain (taken : List (Taken (OwnedGroup N E) (OwnedAction N E) (GroupEvent N E))) :
    (taken.map fun x => gain x.action).sum =
      taken.countP (·.action.wakeup) + (2 * N + 3) * taken.countP (·.action.isCall) := by
  have hcount : ∀ b : Bool, (if b = true then 1 else 0) = b.toNat := by decide
  induction taken with
  | nil => rfl
  | cons x taken ih =>
    rw [List.map_cons, List.sum_cons, ih, List.countP_cons, List.countP_cons, hcount, hcount, gain]
    ring

theorem remaining_run (h : (ownedSystem N M E).Reaches .initial es s)
    {taken : List (Taken (OwnedGroup N E) (OwnedAction N E) (GroupEvent N E))}
    (hrun : (ownedSystem N M E).stepwise.Reaches s taken t) :
    taken.countP (·.action.ofThread) ≤
      s.remaining M + taken.countP (·.action.wakeup) +
        (2 * N + 3) * taken.countP (·.action.isCall) := by
  obtain ⟨-, hspends⟩ := hrun.spends
    (I := fun u => ∃ gs, (ownedSystem N M E).Reaches .initial gs u)
    (fun u => u.remaining M) (·.ofThread) gain ⟨es, h⟩ fun u a v fs hu _ hstep => by
      obtain ⟨gs, hgs⟩ := hu
      exact ⟨⟨_, .tail hgs trivial hstep⟩, (reaches_lifetime hgs).1.spends hstep⟩
  rw [sum_gain] at hspends
  omega

/-! ## From the construction to the end -/

theorem Lifetime.exited (h : Lifetime M es s) (hexited : s.group.workers i = .exited) :
    s.group.releaseWorkers = true := by
  cases h with
  | starting h =>
    have hok := (reaches_barrier h).workers i
    rw [hexited] at hok
    exact hok.2
  | held h =>
    have hwait := h.waiting i
    rwa [hexited] at hwait

theorem Lifetime.submitted (h : Lifetime M es s) (howner : s.owner ≠ .starting) :
    (∀ i, submittedBy i es = List.range M) ∧ ∀ failure, .failed failure ∉ es := by
  cases h with
  | starting => exact absurd rfl howner
  | held h hes hreaches hreturned hjoins =>
    rename_i es₀ es₁ g
    have hbarrier := reaches_barrier hreaches
    have hchronicle := reaches_chronicle hreaches
    refine ⟨fun i => ?_, fun failure hfailed => ?_⟩
    · have hnone : submittedBy i es₁ = [] := by
        refine List.filterMap_eq_nil_iff.mpr fun x hx => ?_
        obtain ⟨j, rfl⟩ := hjoins x hx
        rfl
      rw [hes, submittedBy_append, hnone, List.append_nil]
      exact hchronicle.submittedBy_returned hbarrier hreturned i
    · rw [hes] at hfailed
      rcases List.mem_append.mp hfailed with hold | hnew
      · exact hchronicle.not_returned hbarrier hold hreturned
      · obtain ⟨j, hj⟩ := hjoins _ hnew
        cases hj

theorem workerLoop_of_not_runnable {g : ProducerGroup N E} {outcome : Option E}
    (h : (g.workers i).runnable = false) : g.workerLoop M i outcome = none := by
  cases hstep : g.workerLoop M i outcome with
  | none => rfl
  | some r => exact nomatch (runnable_of_workerLoop hstep).symm.trans h

/-- No worker exits before its release. The owner is never stuck while it releases the workers,
however often it does, and comes to the end of it. When the group is gone, after `start` has
thrown or the owner has destroyed the group, each of its threads has been joined once and none
of them can take another step in it. -/
theorem group_lifetime (h : (ownedSystem N M E).Reaches .initial es s) :
    (∀ i, s.group.workers i = .exited → s.group.releaseWorkers = true) ∧
      (s.owner ≠ .holding → ¬s.Ended → s.Progresses M) ∧
      (∀ taken t, (ownedSystem N M E).stepwise.Reaches s taken t →
        taken.countP (·.action.ofThread) ≤ s.remaining M + taken.countP (·.action.wakeup) +
          (2 * N + 3) * taken.countP (·.action.isCall)) ∧
      (s.owner ≠ .starting →
        (∀ i, submittedBy i es = List.range M) ∧ ∀ failure, .failed failure ∉ es) ∧
      (s.Ended → ∀ i,
        es.countP (GroupEvent.joins i) = (if (i : ℕ) < s.group.launched then 1 else 0) ∧
          ∀ outcome, s.group.workerLoop M i outcome = none) := by
  obtain ⟨hlifetime, hcount⟩ := reaches_lifetime h
  refine ⟨fun i => hlifetime.exited, hlifetime.progresses, fun taken t => remaining_run h,
    hlifetime.submitted, fun hended i => ?_⟩
  obtain ⟨hjoined, hblocked⟩ := hlifetime.ended hended i
  refine ⟨?_, fun outcome => workerLoop_of_not_runnable hblocked⟩
  rw [hcount i]
  by_cases hless : (i : ℕ) < s.group.launched
  · rw [hjoined.mpr hless, if_pos hless]
    rfl
  · rw [Bool.eq_false_iff.mpr fun hi => hless (hjoined.mp hi), if_neg hless]
    rfl

/-- One producer submits its message; it is released while it sleeps, and the destructor finds
it joined. -/
def releasedSchedule : List (OwnedAction 1 Unit) :=
  [.group (.caller none), .group (.caller none), .group (.caller none), .group (.worker 0 none),
    .group (.worker 0 none), .group (.caller none), .group (.caller none), .group (.worker 0 none),
    .group (.worker 0 none), .group (.worker 0 none), .group (.worker 0 none),
    .group (.worker 0 none), .group (.worker 0 none), .group (.worker 0 none),
    .group (.caller none), .group (.caller none), .owner, .call false, .owner, .owner,
    .group (.worker 0 none), .owner, .owner, .call true, .owner, .owner, .owner, .owner]

theorem group_lifetime_released :
    ∃ es s, (ownedSystem 1 1 Unit).Reaches .initial es s ∧ s.owner = .destroyed ∧
      es.countP (GroupEvent.joins 0) = 1 := by
  have hrun : (ownedSystem 1 1 Unit).Reaches .initial _ _ :=
    .of_schedule releasedSchedule (by decide)
  refine ⟨_, _, hrun, by decide, ?_⟩
  have hended := (group_lifetime hrun).2.2.2.2 (.inl (by decide)) 0
  exact hended.1.trans (if_pos (by decide))

end OwnedGroup

end CppLogger
