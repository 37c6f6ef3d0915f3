import CppLogger.Queue.BlockingQueue

/-!
# A batch into the caller's vector

`popBatch` fills a vector that the caller passes by reference. Here the section of
`popBatchImpl` is taken apart: what the vector holds and how much it has reserved, the
call of `reserve`, and the loop that moves the elements. The length of a batch is bounded
by the caller's limit and by what the queue holds, but the reservation only by the limit.
-/

namespace CppLogger

/-- A `std::vector` whose `max_size()` is `maxSize`. -/
structure OutVector (T : Type*) (maxSize : ℕ) where
  contents : List T
  capacity : ℕ
  fits : contents.length ≤ capacity
  bounded : capacity ≤ maxSize

/-- What a call of `popBatch` comes to: it waits for data, returns, or lets an exception of
the vector through. -/
inductive BatchOutcome (T : Type*) (maxSize : ℕ)
  | waits
  | returned (result : Bool) (queue : BlockingQueue T) (values : OutVector T maxSize)
  | length_error (queue : BlockingQueue T) (values : OutVector T maxSize)

variable {T : Type*} {maxSize : ℕ}

namespace OutVector

variable (values : OutVector T maxSize)

def clear : OutVector T maxSize :=
  { values with contents := [], fits := Nat.zero_le _ }

/-- `reserve(n)`; `none` is `std::length_error`. -/
def reserve (n : ℕ) : Option (OutVector T maxSize) :=
  if h : n ≤ maxSize then
    some { values with
      capacity := max values.capacity n
      fits := values.fits.trans (le_max_left _ _)
      bounded := max_le values.bounded h }
  else none

/-- `emplace_back(value)`, which grows the vector if it has to. -/
def emplaceBack (value : T) : Option (OutVector T maxSize) :=
  if h : values.contents.length < maxSize then
    some { contents := values.contents ++ [value]
           capacity := max values.capacity (values.contents.length + 1)
           fits := by simp
           bounded := max_le values.bounded h }
  else none

end OutVector

/-- What the section of `popBatchImpl` shows of the call. -/
def BatchOutcome.Shows (sec : Section T) : BatchOutcome T maxSize → Prop
  | .waits => sec.stage = .notEmptyWait true
  | .returned true q values => sec.queue = q ∧ sec.stage = .notify (.values values.contents)
  | .returned false q _ => sec.queue = q ∧ sec.stage = .ret .none
  | .length_error q _ => sec.queue = q ∧ sec.stage = .ret .threw

namespace BlockingQueue

/-- The loop of `popBatchImpl`, with `count` iterations left. -/
def moveFront : ℕ → BlockingQueue T → OutVector T maxSize → BatchOutcome T maxSize
  | 0, q, values => .returned true q values
  | count + 1, q, values =>
    match q.queue with
    | [] => .returned true q values
    | value :: queue =>
      match values.emplaceBack value with
      | none => .length_error q values
      | some values => moveFront count { q with queue := queue } values

/-- `popBatch`, the mutex being free. -/
def popBatch (q : BlockingQueue T) (values : OutVector T maxSize) (maxCount : ℕ) :
    BatchOutcome T maxSize :=
  let values := values.clear
  if maxCount = 0 then .returned false q values
  else if ¬(q.closed ∨ q.queue ≠ []) then .waits
  else if q.queue = [] then .returned false q values
  else if values.capacity < maxCount then
    match values.reserve maxCount with
    | none => .length_error q values
    | some values => moveFront maxCount q values
  else moveFront maxCount q values

/-- `count` calls of `pop`, one after the other; `none` when one of them has to wait or
finds the queue closed and drained. -/
def pops : ℕ → BlockingQueue T → Option (List T × BlockingQueue T)
  | 0, q => some ([], q)
  | count + 1, q =>
    match q.pop with
    | ⟨q, .notify (.values [value]), _⟩ => (pops count q).map fun r => (value :: r.1, r.2)
    | _ => none

variable {q : BlockingQueue T} {values : OutVector T maxSize}

/-- The loop moves what it has iterations for. -/
theorem moveFront_spec (count : ℕ) (hroom : values.contents.length + count ≤ maxSize) :
    ∃ filled : OutVector T maxSize, filled.contents = values.contents ++ q.queue.take count ∧
      moveFront count q values = .returned true (q.takeFront count).queue filled := by
  induction count generalizing q values with
  | zero => exact ⟨values, by simp, rfl⟩
  | succ count ih =>
    cases hqueue : q.queue with
    | nil =>
      refine ⟨values, by simp, ?_⟩
      have hsame : (q.takeFront (count + 1)).queue = q := by
        simp only [takeFront, hqueue, List.drop_nil]
        rw [← hqueue]
      rw [moveFront, hqueue, hsame]
    | cons value queue =>
      have hlt : values.contents.length < maxSize := by omega
      let pushed : OutVector T maxSize :=
        { contents := values.contents ++ [value]
          capacity := max values.capacity (values.contents.length + 1)
          fits := by simp
          bounded := max_le values.bounded hlt }
      have hpushed : pushed.contents.length + count ≤ maxSize := by
        simp [pushed]
        omega
      obtain ⟨filled, hfilled, hmove⟩ := ih (q := { q with queue := queue }) hpushed
      refine ⟨filled, by simp [hfilled, pushed], ?_⟩
      rw [moveFront, hqueue]
      simp only [OutVector.emplaceBack, hlt, dite_true, takeFront, hqueue, List.drop_succ_cons]
      exact hmove

/-- Calls of `pop` that find enough take the elements in their order. -/
theorem pops_spec (count : ℕ) (hcount : count ≤ q.size) :
    q.pops count = some (q.queue.take count, (q.takeFront count).queue) := by
  induction count generalizing q with
  | zero => rfl
  | succ count ih =>
    cases hqueue : q.queue with
    | nil => simp [size, hqueue] at hcount
    | cons value queue =>
      have hpop : q.pop =
          ⟨{ q with queue := queue }, .notify (.values [value]), [.taken [value]]⟩ := by
        simp [pop, takeFront, hqueue]
      have hrest : count ≤ ({ q with queue := queue } : BlockingQueue T).size := by
        simpa [size, hqueue] using hcount
      rw [pops, hpop]
      simp [ih hrest, takeFront, hqueue]

/-- With data in the queue, everything depends on the reservation. -/
theorem popBatch_cases (values : OutVector T maxSize) (hq : q.queue ≠ []) {maxCount : ℕ}
    (hpos : 1 ≤ maxCount) :
    (maxCount ≤ maxSize → ∃ filled : OutVector T maxSize,
      filled.contents = q.queue.take maxCount ∧
      q.popBatch values maxCount = .returned true (q.takeFront maxCount).queue filled) ∧
    (maxSize < maxCount → q.popBatch values maxCount = .length_error q values.clear) := by
  have hne : maxCount ≠ 0 := by omega
  constructor
  · intro hmax
    by_cases hcap : values.clear.capacity < maxCount
    · let reserved : OutVector T maxSize :=
        { values.clear with
          capacity := max values.clear.capacity maxCount
          fits := values.clear.fits.trans (le_max_left _ _)
          bounded := max_le values.clear.bounded hmax }
      have hroom : reserved.contents.length + maxCount ≤ maxSize := by
        simpa [reserved, OutVector.clear]
      obtain ⟨filled, hfilled, hmove⟩ := moveFront_spec (q := q) maxCount hroom
      refine ⟨filled, hfilled, ?_⟩
      simpa [popBatch, hne, hq, hcap, OutVector.reserve, hmax] using hmove
    · have hroom : values.clear.contents.length + maxCount ≤ maxSize := by
        simpa [OutVector.clear]
      obtain ⟨filled, hfilled, hmove⟩ := moveFront_spec (q := q) maxCount hroom
      exact ⟨filled, hfilled, by simp [popBatch, hne, hq, hcap, hmove]⟩
  · intro hmax
    have hcap : values.clear.capacity < maxCount := values.clear.bounded.trans_lt hmax
    simp [popBatch, hne, hq, hcap, OutVector.reserve, not_le.mpr hmax]

/-- In the concurrent queue the call is the section whose allocation succeeds when the
vector could be as long as the limit. -/
theorem popBatch_shows (q : BlockingQueue T) (values : OutVector T maxSize) (maxCount : ℕ) :
    (q.popBatch values maxCount).Shows (q.popBatchImpl maxCount (decide (maxCount ≤ maxSize))) := by
  by_cases hzero : maxCount = 0
  · simp [popBatch, popBatchImpl, hzero, BatchOutcome.Shows]
  by_cases hq : q.queue = []
  · cases hclosed : q.closed <;>
      simp [popBatch, popBatchImpl, waitNotEmpty, hzero, hq, hclosed, BatchOutcome.Shows]
  · obtain ⟨hfits, hthrows⟩ :=
      popBatch_cases values hq (Nat.one_le_iff_ne_zero.mpr hzero)
    by_cases hmax : maxCount ≤ maxSize
    · obtain ⟨filled, hfilled, hreturned⟩ := hfits hmax
      rw [hreturned]
      simp [popBatchImpl, waitNotEmpty, hzero, hq, hmax, BatchOutcome.Shows, hfilled]
    · rw [hthrows (by omega)]
      simp [popBatchImpl, waitNotEmpty, hzero, hq, hmax, BatchOutcome.Shows]

/-! ## Repeated `pop` -/

/-- The call returns what as many calls of `pop` would have returned, and leaves the queue as
they would have left it. -/
def BatchAgrees (q : BlockingQueue T) (values : OutVector T maxSize) (maxCount : ℕ) : Prop :=
  ∃ taken after filled, q.pops (min maxCount q.size) = some (taken, after) ∧
    q.popBatch values maxCount = .returned true after filled ∧ filled.contents = taken

theorem take_min_size (n : ℕ) : (q.takeFront (min n q.size)).queue = (q.takeFront n).queue := by
  simp only [takeFront, size]
  congr 1
  by_cases h : n ≤ q.queue.length
  · rw [min_eq_left h]
  · rw [min_eq_right (by omega), List.drop_length, List.drop_of_length_le (by omega)]

/-- A batch agrees with repeated `pop` exactly when the vector could be as long as the
caller's limit, however few elements there are. -/
theorem batchAgrees_iff (values : OutVector T maxSize) (hq : q.queue ≠ []) {maxCount : ℕ}
    (hpos : 1 ≤ maxCount) : BatchAgrees q values maxCount ↔ maxCount ≤ maxSize := by
  constructor
  · rintro ⟨taken, after, filled, -, hreturned, -⟩
    by_contra hmax
    rw [(popBatch_cases values hq hpos).2 (by omega)] at hreturned
    cases hreturned
  · intro hmax
    obtain ⟨filled, hfilled, hreturned⟩ := (popBatch_cases values hq hpos).1 hmax
    refine ⟨_, _, filled, pops_spec _ (min_le_right _ _), ?_, ?_⟩
    · rw [take_min_size, hreturned]
    · rw [hfilled, size, ← List.take_take, List.take_length]

/-- Three elements of which two are taken, into a vector that holds something else. -/
theorem batchAgrees_two :
    BatchAgrees { queue := [5, 6, 7] }
      (⟨[1], 1, by decide, by decide⟩ : OutVector ℕ (2 ^ 61 - 1)) 2 :=
  (batchAgrees_iff _ (by decide) (by decide)).mpr (by decide)

/-- With one element in the queue and no limit but the range of `size_t` the call throws,
whereas `pop` returns the element. -/
theorem popBatch_unlimited :
    ¬∀ (q : BlockingQueue ℕ) (values : OutVector ℕ (2 ^ 61 - 1)) (maxCount : ℕ), q.queue ≠ [] →
      1 ≤ maxCount → maxCount < wordBound → BatchAgrees q values maxCount := by
  intro h
  obtain ⟨taken, after, filled, -, hreturned, -⟩ :=
    h { queue := [5] } ⟨[], 0, by decide, by decide⟩ (wordBound - 1) (by decide) (by decide)
      (by decide)
  have hthrows : popBatch { queue := [5] }
      (⟨[], 0, by decide, by decide⟩ : OutVector ℕ (2 ^ 61 - 1)) (wordBound - 1) =
      .length_error { queue := [5] } ⟨[], 0, by decide, by decide⟩ := by
    rfl
  rw [hthrows] at hreturned
  cases hreturned

end BlockingQueue

end CppLogger
