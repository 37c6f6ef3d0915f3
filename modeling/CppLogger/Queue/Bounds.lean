import CppLogger.Queue.QueueSystem
import Mathlib.Order.Bounds.Basic

/-!
# Bounds of the queue, and what exceptions leave behind

The queue never holds more than its capacity, and `highWaterMark_` is the largest size it
has had since the latest reset. An operation that throws has changed nothing, with one
exception: under `DropOldest` the oldest element is removed and counted before the new one
is constructed.
-/

namespace CppLogger

variable {T Tid : Type*} {q : BlockingQueue T} {alloc : Bool} {op : QueueOp T} {st : Stage T}
variable {sec : Section T}

/-! ## The high-water mark -/

/-- The mark lies between the size and the capacity. -/
def BlockingQueue.Bounded (q : BlockingQueue T) : Prop :=
  q.size ≤ q.highWaterMark ∧ q.highWaterMark ≤ q.capacity

theorem BlockingQueue.Bounded.emplace (h : q.Bounded) (hroom : q.size < q.capacity) (v : T) :
    (q.emplaceLocked v).Bounded := by
  obtain ⟨hsize, hmark⟩ := h
  constructor
  · rw [q.emplaceLocked_size, q.emplaceLocked_highWaterMark]
    omega
  · rw [q.emplaceLocked_capacity, q.emplaceLocked_highWaterMark]
    omega

theorem BlockingQueue.evictOldest_size (q : BlockingQueue T) : q.evictOldest.size = q.size - 1 :=
  List.length_tail

theorem BlockingQueue.Bounded.evict (h : q.Bounded) : q.evictOldest.Bounded := by
  obtain ⟨hsize, hmark⟩ := h
  refine ⟨?_, hmark⟩
  rw [q.evictOldest_size]
  exact (Nat.sub_le _ _).trans hsize

theorem BlockingQueue.Bounded.take (h : q.Bounded) (n : ℕ) : (q.takeFront n).queue.Bounded := by
  obtain ⟨hsize, hmark⟩ := h
  refine ⟨?_, hmark⟩
  have hdrop : (q.takeFront n).queue.size = q.size - n := List.length_drop
  rw [hdrop]
  exact (Nat.sub_le _ _).trans hsize

/-- With an element gone there is room for another. -/
theorem BlockingQueue.evictOldest_room (h : q.Bounded) :
    q.evictOldest.size < q.evictOldest.capacity := by
  have hpos := q.capacity_pos
  have hsize := h.1.trans h.2
  have hcapacity : q.evictOldest.capacity = q.capacity := rfl
  rw [q.evictOldest_size, hcapacity]
  omega

/-- Every section keeps the bounds. -/
theorem Outcome.keeps_bounded (h : Outcome q alloc op st sec) (hq : q.Bounded) : sec.queue.Bounded := by
  cases h with
  | enqueued hopen hroom => exact hq.emplace hroom _
  | droppedOldest => exact hq.evict.emplace (q.evictOldest_room hq) _
  | abandoned => exact hq.evict
  | took => exact hq.take _
  | resets => exact ⟨Nat.le_refl 0, Nat.zero_le _⟩
  | _ => exact hq

/-- The mark stays, unless a section makes the queue larger than ever or resets it. -/
theorem Outcome.mark (h : Outcome q alloc op st sec) :
    (sec.queue.highWaterMark = q.highWaterMark ∧ .reset ∉ sec.events) ∨
      sec.queue.highWaterMark = sec.queue.size := by
  cases h with
  | enqueued =>
    rw [q.emplaceLocked_highWaterMark, q.emplaceLocked_size]
    rcases le_total (q.size + 1) q.highWaterMark with hle | hle
    · exact .inl ⟨max_eq_left hle, by simp⟩
    · exact .inr (max_eq_right hle)
  | droppedOldest =>
    rw [BlockingQueue.emplaceLocked_highWaterMark, BlockingQueue.emplaceLocked_size]
    have hmark : q.evictOldest.highWaterMark = q.highWaterMark := rfl
    rcases le_total (q.evictOldest.size + 1) q.evictOldest.highWaterMark with hle | hle
    · exact .inl ⟨(max_eq_left hle).trans hmark, by simp⟩
    · exact .inr (max_eq_right hle)
  | resets => exact .inr rfl
  | _ => exact .inl ⟨rfl, by simp⟩

/-- Only a reset lowers the mark. -/
theorem Outcome.mark_mono (h : Outcome q alloc op st sec) (hreset : .reset ∉ sec.events) :
    q.highWaterMark ≤ sec.queue.highWaterMark := by
  cases h with
  | enqueued =>
    rw [q.emplaceLocked_highWaterMark]
    exact le_max_left _ _
  | droppedOldest =>
    rw [BlockingQueue.emplaceLocked_highWaterMark]
    exact le_max_left q.highWaterMark _
  | resets => exact absurd (List.mem_singleton_self _) hreset
  | _ => exact le_rfl

section Runs

variable [Fintype Tid] [DecidableEq Tid] {s s₀ s' : QueueState T Tid} {a : QueueAction T Tid}
variable {es fs : List (QueueEvent T)}

theorem bounded_step (h : s.step a = some (s', es)) (hs : s.queue.Bounded) : s'.queue.Bounded := by
  rcases step_queue h with ⟨hsame, -⟩ | ⟨alloc, op, st, sec, hsec, hqueue, -⟩
  · exact hsame ▸ hs
  · exact hqueue ▸ hsec.keeps_bounded hs

theorem reaches_bounded (h : (queueSystem T Tid).Reaches .initial es s) : s.queue.Bounded :=
  h.stable ⟨Nat.zero_le _, Nat.zero_le _⟩ fun _ _ _ _ hs _ hstep => bounded_step hstep hs

/-- Along a run without a reset the mark only rises. -/
theorem reaches_mark_mono (h : (queueSystem T Tid).Reaches s₀ es s) (hreset : .reset ∉ es) :
    s₀.queue.highWaterMark ≤ s.queue.highWaterMark := by
  induction h with
  | refl => exact le_rfl
  | @tail es fs s t a _ _ hstep ih =>
    rw [List.mem_append, not_or] at hreset
    refine (ih hreset.1).trans ?_
    rcases step_queue hstep with ⟨hsame, -⟩ | ⟨alloc, op, st, sec, hsec, hqueue, hevents⟩
    · rw [hsame]
    · rw [hqueue]
      exact hsec.mark_mono (hevents ▸ hreset.2)

/-- The sizes the queue has had in a run, at moments after the latest reset. -/
def sizesSinceReset (es : List (QueueEvent T)) (s : QueueState T Tid) : Set ℕ :=
  {n | ∃ es₁ es₂ s₁, (queueSystem T Tid).Reaches .initial es₁ s₁ ∧
    (queueSystem T Tid).Reaches s₁ es₂ s ∧ es = es₁ ++ es₂ ∧ .reset ∉ es₂ ∧ s₁.queue.size = n}

theorem size_mem_sizesSinceReset (h : (queueSystem T Tid).Reaches .initial es s) :
    s.queue.size ∈ sizesSinceReset es s :=
  ⟨es, [], s, h, .refl, (List.append_nil es).symm, List.not_mem_nil, rfl⟩

theorem sizesSinceReset_step {n : ℕ} (hn : n ∈ sizesSinceReset es s)
    (hstep : s.step a = some (s', fs)) (hreset : .reset ∉ fs) : n ∈ sizesSinceReset (es ++ fs) s' := by
  obtain ⟨es₁, es₂, s₁, hbefore, hafter, rfl, hnone, hsize⟩ := hn
  refine ⟨es₁, es₂ ++ fs, s₁, hbefore, hafter.tail trivial hstep, List.append_assoc _ _ _, ?_, hsize⟩
  rw [List.mem_append, not_or]
  exact ⟨hnone, hreset⟩

/-- The queue once had the size that the mark tells. -/
theorem mark_mem_sizesSinceReset (h : (queueSystem T Tid).Reaches .initial es s) :
    s.queue.highWaterMark ∈ sizesSinceReset es s := by
  induction h with
  | refl => exact size_mem_sizesSinceReset .refl
  | @tail es fs s t a hrun hp hstep ih =>
    have hnow := size_mem_sizesSinceReset (hrun.tail hp hstep)
    rcases step_queue hstep with ⟨hsame, rfl⟩ | ⟨alloc, op, st, sec, hsec, hqueue, rfl⟩
    · rw [hsame]
      exact sizesSinceReset_step ih hstep List.not_mem_nil
    · rcases hsec.mark with ⟨hkept, hreset⟩ | hgrown
      · rw [hqueue, hkept]
        exact sizesSinceReset_step ih hstep hreset
      · rw [hqueue, hgrown, ← hqueue]
        exact hnow

/-- Bounded memory and an exact high-water mark. -/
theorem high_water_mark (h : (queueSystem T Tid).Reaches .initial es s) :
    1 ≤ s.queue.capacity ∧ s.queue.size ≤ s.queue.highWaterMark ∧
      s.queue.highWaterMark ≤ s.queue.capacity ∧
      IsGreatest (sizesSinceReset es s) s.queue.highWaterMark := by
  obtain ⟨hsize, hmark⟩ := reaches_bounded h
  refine ⟨s.queue.capacity_pos, hsize, hmark, mark_mem_sizesSinceReset h, ?_⟩
  rintro n ⟨es₁, es₂, s₁, hbefore, hafter, rfl, hreset, rfl⟩
  calc s₁.queue.size ≤ s₁.queue.highWaterMark := (reaches_bounded hbefore).1
    _ ≤ s.queue.highWaterMark := reaches_mark_mono hafter hreset

/-- Two pushes into a queue of one place; the second one replaces the first element. -/
def replaceSchedule : List (QueueAction ℕ TwoThreads) :=
  [.call .first (.reset 1 .DropOldest), .run .first true false, .ret .first,
    .call .first (.push none 5), .run .first true false, .notify .first none, .ret .first,
    .call .second (.push none 6), .run .second true false]

theorem high_water_mark_replace :
    ∃ es s, (queueSystem ℕ TwoThreads).Reaches .initial es s ∧ s.queue.queue = [6] ∧
      IsGreatest (sizesSinceReset es s) 1 := by
  obtain ⟨es, s, hrun, hqueue, hmark⟩ : ∃ es s, (queueSystem ℕ TwoThreads).Reaches .initial es s ∧
      s.queue.queue = [6] ∧ s.queue.highWaterMark = 1 :=
    ⟨_, _, .of_schedule replaceSchedule (by decide), by decide, by decide⟩
  exact ⟨es, s, hrun, hqueue, hmark ▸ (high_water_mark hrun).2.2.2⟩

end Runs

/-! ## Exceptions -/

/-- A section that throws leaves the queue alone, or has evicted an element already. -/
theorem Outcome.threw (h : Outcome q alloc op st sec) (hthrew : sec.stage = .ret .threw) :
    (sec.queue = q ∧ ¬ q.Evicting op st) ∨ (sec.queue = q.evictOldest ∧ q.Evicting op st) := by
  cases h with
  | pushThrew hopen hroom hst halloc =>
    refine .inl ⟨rfl, ?_⟩
    rcases hst with ⟨rfl, -⟩ | rfl
    · exact fun h => absurd h.2.2.2 (not_le.mpr hroom)
    · exact id
  | abandoned hopen hgen hpolicy hfull halloc => exact .inr ⟨rfl, hopen, hgen, hpolicy, hfull⟩
  | popThrew hop hst hne halloc => exact .inl ⟨rfl, q.not_evicting hop st⟩
  | _ => cases hthrew

theorem evictOldest_changes (q : BlockingQueue T) (hfull : q.capacity ≤ q.size) :
    q.evictOldest.queue ≠ q.queue := by
  have hpos := q.capacity_pos
  intro hsame
  have hlength := congrArg List.length hsame
  have htail : q.evictOldest.queue.length = q.size - 1 := List.length_tail
  have hsize : q.queue.length = q.size := rfl
  omega

/-- An operation that throws leaves the queue as it found it, exactly when it is not a push
that evicts. -/
theorem strong_exception_guarantee [Fintype Tid] [DecidableEq Tid] {s s' : QueueState T Tid}
    {t : Tid} {alloc expired : Bool} {es : List (QueueEvent T)} {c : Call T}
    (hc : s.calls t = some c) (hstep : s.step (.run t alloc expired) = some (s', es))
    (hthrew : s'.calls t = some ⟨c.op, .ret .threw⟩) :
    (s'.queue.queue = s.queue.queue ∧ s'.queue.droppedCount = s.queue.droppedCount ∧
        s'.queue.highWaterMark = s.queue.highWaterMark) ↔
      ¬ s.queue.Evicting c.op c.stage := by
  cases step_move hstep with
  | @run _ _ _ c' sec hc' hsec =>
    obtain rfl : c' = c := Option.some.inj (hc'.symm.trans hc)
    have hstage : sec.stage = .ret .threw := by
      simpa using hthrew
    rcases hsec.threw hstage with ⟨hsame, hnot⟩ | ⟨hevicted, hevicting⟩
    · exact ⟨fun _ => hnot, fun _ => by simp [hsame]⟩
    · have hfull : s.queue.capacity ≤ s.queue.size := by
        unfold BlockingQueue.Evicting at hevicting
        split at hevicting
        · exact hevicting.2.2.2
        · exact hevicting.elim
      constructor
      · intro hsame
        refine absurd hsame.1 ?_
        rw [hevicted]
        exact evictOldest_changes s.queue hfull
      · exact fun hnot => absurd hevicting hnot

/-- A push whose element cannot be constructed, with room in the queue or without. -/
def throwingSchedule (capacity : ℕ) : List (QueueAction ℕ TwoThreads) :=
  [.call .first (.reset capacity .DropOldest), .run .first true false, .ret .first,
    .call .first (.push none 5), .run .first true false, .notify .first none, .ret .first,
    .call .second (.push none 6)]

theorem strong_exception_guarantee_room :
    ∃ es s s', (queueSystem ℕ TwoThreads).Reaches .initial es s ∧
      s.step (.run .second false false) = some (s', [.threw]) ∧ s'.queue.queue = s.queue.queue := by
  obtain ⟨es, s, s', hrun, hc, hstep, hthrew, hqueue⟩ : ∃ es s s',
      (queueSystem ℕ TwoThreads).Reaches .initial es s ∧
      s.calls .second = some ⟨.push none 6, .enter⟩ ∧
      s.step (.run .second false false) = some (s', [.threw]) ∧
      s'.calls .second = some ⟨.push none 6, .ret .threw⟩ ∧
      s.queue.capacity = 2 ∧ s.queue.size = 1 :=
    ⟨_, _, _, .of_schedule (throwingSchedule 2) (by decide), by decide, rfl, by decide, by decide⟩
  refine ⟨es, s, s', hrun, hstep, ((strong_exception_guarantee hc hstep hthrew).mpr ?_).1⟩
  rintro ⟨-, -, -, hfull⟩
  omega

/-- Under `DropOldest` a full queue loses its element to a push that throws. -/
theorem oldest_lost_on_throw :
    ∃ es s s', (queueSystem ℕ TwoThreads).Reaches .initial es s ∧
      s.step (.run .second false false) = some (s', [.evicted [5], .abandoned]) ∧
      s'.calls .second = some ⟨.push none 6, .ret .threw⟩ ∧
      s.queue.queue = [5] ∧ s.queue.droppedCount = 0 ∧
      s'.queue.queue = [] ∧ s'.queue.droppedCount = 1 :=
  ⟨_, _, _, .of_schedule (throwingSchedule 1) (by decide), rfl, by decide, by decide, by decide,
    by decide, by decide⟩

end CppLogger
