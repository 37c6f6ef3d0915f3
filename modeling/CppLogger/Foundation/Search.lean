import Mathlib.Data.List.DropRight

/-!
# Occurrences of a word in a text

A word that occurs in a concatenation occurs in one of its parts, or begins in the first
and ends in the second. Texts that are put together from parts are read back by ruling
out the last case, or where a letter delimits a part that does not contain it.
-/

namespace Search

variable {α : Type*} {a b before word after : List α}

/-- Where an occurrence in a concatenation lies. -/
inductive Place (a b before word after : List α) : Prop
  | first (rest : List α) (h : a = before ++ word ++ rest)
  | second (rest : List α) (h : before = a ++ rest) (hb : b = rest ++ word ++ after)
  | across (u v : List α) (hu : u ≠ []) (hv : v ≠ []) (h : word = u ++ v)
      (ha : a = before ++ u) (hb : b = v ++ after)

theorem place (h : a ++ b = before ++ word ++ after) : Place a b before word after := by
  rw [List.append_assoc, List.append_eq_append_iff] at h
  rcases h with ⟨rest, hbefore, hb⟩ | ⟨u, ha, hword⟩
  · exact .second rest hbefore (by rw [hb, List.append_assoc])
  · rcases List.append_eq_append_iff.mp hword with ⟨rest, hu, -⟩ | ⟨v, hw, hv⟩
    · exact .first rest (by rw [ha, hu, List.append_assoc])
    · by_cases hu : u = []
      · subst hu
        exact .second [] (by simpa using ha.symm) (by simpa [hw] using hv)
      · by_cases hempty : v = []
        · subst hempty
          exact .first [] (by simp [ha, hw])
        · exact .across u v hu hempty hw ha hv

/-- A word of two letters occurs across a boundary only when one of them is on each side. -/
theorem across_pair {x y : α} {u v : List α} (hu : u ≠ []) (hv : v ≠ []) (h : [x, y] = u ++ v) :
    u = [x] ∧ v = [y] := by
  obtain ⟨u₀, us, rfl⟩ := List.exists_cons_of_ne_nil hu
  obtain ⟨v₀, vs, rfl⟩ := List.exists_cons_of_ne_nil hv
  cases us with
  | nil => simpa [eq_comm] using h
  | cons u₁ us => simp at h

/-! ## Fields with a delimiter -/

variable [DecidableEq α] {c : α} {field rest : List α}

theorem takeWhile_field (h : c ∉ field) : (field ++ c :: rest).takeWhile (· ≠ c) = field := by
  rw [List.takeWhile_append_of_pos]
  · simp
  · intro x hx
    simpa using fun heq : x = c => h (heq ▸ hx)

theorem dropWhile_field (h : c ∉ field) :
    (field ++ c :: rest).dropWhile (· ≠ c) = c :: rest := by
  rw [List.dropWhile_append_of_pos]
  · simp
  · intro x hx
    simpa using fun heq : x = c => h (heq ▸ hx)

theorem rtakeWhile_field (h : c ∉ field) : (rest ++ c :: field).rtakeWhile (· ≠ c) = field := by
  have hreverse : (rest ++ c :: field).reverse = field.reverse ++ c :: rest.reverse := by simp
  rw [List.rtakeWhile, hreverse, takeWhile_field (by simpa using h), List.reverse_reverse]

theorem rdropWhile_field (h : c ∉ field) :
    (rest ++ c :: field).rdropWhile (· ≠ c) = rest ++ [c] := by
  have hreverse : (rest ++ c :: field).reverse = field.reverse ++ c :: rest.reverse := by simp
  rw [List.rdropWhile, hreverse, dropWhile_field (by simpa using h)]
  simp

end Search
