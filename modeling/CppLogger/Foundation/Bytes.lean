import Mathlib.Data.List.Basic
import Mathlib.Tactic

/-!
# Byte strings, machine words and terminated records

Strings are lists of characters, one for each byte, so their length is their size in
bytes. Unsigned 64-bit arithmetic is arithmetic modulo `2 ^ 64`. The last part is the
framing law: records written one after the other, each followed by a separator, are
recovered by splitting at the separator exactly when no record contains it.
-/

/-- Bytes of a string. -/
abbrev Text := List Char

/-- One more than the largest value of an unsigned 64-bit integer. -/
def wordBound : ℕ := 2 ^ 64

/-- The value an unsigned 64-bit integer holds after a computation. -/
def word64 (n : ℕ) : ℕ := n % wordBound

@[simp] theorem word64_of_lt {n : ℕ} (h : n < wordBound) : word64 n = n := Nat.mod_eq_of_lt h

@[simp] theorem word64_word64_add (m n : ℕ) : word64 (word64 m + n) = word64 (m + n) := by
  simp [word64]

namespace Framing

variable {α : Type*}

/-- Every record followed by one separator. -/
def terminate (sep : α) (records : List (List α)) : List α :=
  records.flatMap fun r => r ++ [sep]

@[simp] theorem terminate_nil (sep : α) : terminate sep [] = [] := rfl

@[simp] theorem terminate_append (sep : α) (rs ss : List (List α)) :
    terminate sep (rs ++ ss) = terminate sep rs ++ terminate sep ss := by
  simp [terminate]

theorem terminate_singleton (sep : α) (r : List α) : terminate sep [r] = r ++ [sep] := by
  simp [terminate]

variable [BEq α] [LawfulBEq α]

theorem splitOn_terminate (sep : α) (rs : List (List α)) :
    (terminate sep rs).splitOn sep = rs.flatMap (fun r => r.splitOn sep) ++ [[]] := by
  induction rs with
  | nil => simp [terminate, List.splitOn_nil]
  | cons r rs ih =>
    have hcons : terminate sep (r :: rs) = r ++ sep :: terminate sep rs := by
      simp [terminate]
    rw [hcons, List.splitOn_append_cons_self, ih]
    simp

omit [LawfulBEq α] in
theorem splitOn_length_pos (sep : α) (r : List α) : 0 < (r.splitOn sep).length :=
  List.length_pos_of_ne_nil (List.splitOn_ne_nil sep r)

/-- A record splits into one piece exactly when the separator does not occur in it. -/
theorem splitOn_length_eq_one (sep : α) (r : List α) :
    (r.splitOn sep).length = 1 ↔ sep ∉ r := by
  constructor
  · intro hone hmem
    obtain ⟨xs, ys, rfl⟩ := List.append_of_mem hmem
    rw [List.splitOn_append_cons_self, List.length_append] at hone
    have hx := splitOn_length_pos sep xs
    have hy := splitOn_length_pos sep ys
    omega
  · intro hmem
    simp [List.splitOn_eq_singleton hmem]

omit [LawfulBEq α] in
theorem length_le_flatMap_splitOn (sep : α) (rs : List (List α)) :
    rs.length ≤ (rs.flatMap fun r => r.splitOn sep).length := by
  induction rs with
  | nil => simp
  | cons r rs ih =>
    have := splitOn_length_pos sep r
    simp only [List.flatMap_cons, List.length_append, List.length_cons]
    omega

/-- The framing law: splitting recovers the records exactly when none of them
contains the separator. The last piece is the empty one after the final separator. -/
theorem splitOn_terminate_eq_iff (sep : α) (rs : List (List α)) :
    (terminate sep rs).splitOn sep = rs ++ [[]] ↔ ∀ r ∈ rs, sep ∉ r := by
  rw [splitOn_terminate, List.append_cancel_right_eq]
  induction rs with
  | nil => simp
  | cons r rs ih =>
    constructor
    · intro h
      have hlen := congrArg List.length h
      simp only [List.flatMap_cons, List.length_append, List.length_cons] at hlen
      have hpos := splitOn_length_pos sep r
      have hrest := length_le_flatMap_splitOn sep rs
      have hr : sep ∉ r := (splitOn_length_eq_one sep r).mp (by omega)
      have htail : rs.flatMap (fun r => r.splitOn sep) = rs := by
        simpa [List.splitOn_eq_singleton hr] using h
      exact List.forall_mem_cons.mpr ⟨hr, ih.mp htail⟩
    · intro h
      obtain ⟨hr, hrest⟩ := List.forall_mem_cons.mp h
      simp [List.splitOn_eq_singleton hr, ih.mpr hrest]

end Framing
