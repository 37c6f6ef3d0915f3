import Mathlib.Data.Fintype.Card
import Mathlib.Tactic

/-!
# Counting the members of a finite family

A census counts how many threads are at a kind of program point. Counting
invariants of concurrent programs need to know how it changes when one thread moves.
-/

variable {ι α : Type*} [Fintype ι]

/-- How many members of the family satisfy `p`. -/
def census (p : α → Bool) (f : ι → α) : ℕ := (Finset.univ.filter fun i => p (f i) = true).card

variable {p : α → Bool} {f : ι → α}

theorem census_pos : 0 < census p f ↔ ∃ i, p (f i) = true := by
  simp [census, Finset.card_pos, Finset.Nonempty]

theorem census_eq_zero : census p f = 0 ↔ ∀ i, p (f i) = false := by
  simp [census, Finset.card_eq_zero, Finset.filter_eq_empty_iff]

theorem census_eq_card : census p f = Fintype.card ι ↔ ∀ i, p (f i) = true := by
  rw [census, ← Finset.card_univ, Finset.card_filter_eq_iff]
  simp

/-- One member moves from `f i` to `x`: it leaves the census and enters it again. -/
theorem census_update [DecidableEq ι] (p : α → Bool) (f : ι → α) (i : ι) (x : α) :
    census p (Function.update f i x) + (p (f i)).toNat = census p f + (p x).toNat := by
  have hsplit : ∀ g : ι → α, census p g =
      ((Finset.univ.erase i).filter fun j => p (g j) = true).card + (p (g i)).toNat := by
    intro g
    unfold census
    rw [← Finset.insert_erase (Finset.mem_univ i), Finset.filter_insert]
    cases hg : p (g i) <;> simp
  have hrest : ((Finset.univ.erase i).filter fun j => p (Function.update f i x j) = true) =
      (Finset.univ.erase i).filter fun j => p (f j) = true := by
    apply Finset.filter_congr
    intro j hj
    rw [Function.update_of_ne (Finset.ne_of_mem_erase hj)]
  rw [hsplit (Function.update f i x), hsplit f, hrest, Function.update_self]
  omega

theorem census_congr {g : ι → α} (h : ∀ i, p (f i) = p (g i)) : census p f = census p g := by
  simp only [census, h]

/-- What the members weigh together when one of them moves. -/
theorem sum_update [DecidableEq ι] (w : α → ℕ) (f : ι → α) (i : ι) (x : α) :
    ∑ j, w (Function.update f i x j) + w (f i) = ∑ j, w (f j) + w x := by
  have hrest : ∑ j ∈ Finset.univ.erase i, w (Function.update f i x j) =
      ∑ j ∈ Finset.univ.erase i, w (f j) := by
    refine Finset.sum_congr rfl fun j hj => ?_
    rw [Function.update_of_ne (Finset.ne_of_mem_erase hj)]
  have hafter := Finset.add_sum_erase Finset.univ (fun j => w (Function.update f i x j))
    (Finset.mem_univ i)
  have hbefore := Finset.add_sum_erase Finset.univ (fun j => w (f j)) (Finset.mem_univ i)
  simp only [Function.update_self] at hafter
  omega

/-- One member pays for its step, and the others do not become dearer. -/
theorem sum_pays [DecidableEq ι] {f g : ι → ℕ} {cost credit : ℕ} (i : ι)
    (hothers : ∀ j, j ≠ i → g j ≤ f j) (hi : cost + g i ≤ f i + credit) :
    cost + ∑ j, g j ≤ ∑ j, f j + credit := by
  have hrest : ∑ j ∈ Finset.univ.erase i, g j ≤ ∑ j ∈ Finset.univ.erase i, f j :=
    Finset.sum_le_sum fun j hj => hothers j (Finset.ne_of_mem_erase hj)
  have hbefore := Finset.add_sum_erase Finset.univ f (Finset.mem_univ i)
  have hafter := Finset.add_sum_erase Finset.univ g (Finset.mem_univ i)
  omega
