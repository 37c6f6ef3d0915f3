/-!
# Running stateful computations with exceptions

A computation that throws keeps the state it has reached. These are the rules by which a
run is followed from one statement to the next.
-/

namespace Statement

variable {ε σ α β : Type _} {s s' : σ}

theorem get_bind (f : σ → EStateM ε σ β) : ((get : EStateM ε σ σ) >>= f) s = f s s := rfl

theorem set_bind (f : PUnit → EStateM ε σ β) :
    ((set s' : EStateM ε σ PUnit) >>= f) s = f ⟨⟩ s' := rfl

theorem modify_bind (g : σ → σ) (f : PUnit → EStateM ε σ β) :
    ((modify g : EStateM ε σ PUnit) >>= f) s = f ⟨⟩ (g s) := rfl

theorem pure_run (a : α) : (pure a : EStateM ε σ α) s = .ok a s := rfl

/-- A statement that returns is followed by the next one. -/
theorem bind_ok {x : EStateM ε σ α} {a : α} (h : x s = .ok a s') (f : α → EStateM ε σ β) :
    (x >>= f) s = f a s' := by
  simp only [bind, EStateM.bind, h]

/-- What follows a statement that throws is not run. -/
theorem bind_error {x : EStateM ε σ α} {e : ε} (h : x s = .error e s') (f : α → EStateM ε σ β) :
    (x >>= f) s = .error e s' := by
  simp only [bind, EStateM.bind, h]

/-- What is done on every way out comes after the statement that returns, -/
theorem finally_ok {x : EStateM ε σ α} {y : EStateM ε σ β} {a : α} {b : β} {s'' : σ}
    (h : x s = .ok a s') (hy : y s' = .ok b s'') : (tryFinally x y) s = .ok a s'' := by
  simp only [tryFinally, Functor.map, EStateM.map, tryFinally', h, hy]

/-- and before the exception goes on. -/
theorem finally_error {x : EStateM ε σ α} {y : EStateM ε σ β} {e : ε} {b : β} {s'' : σ}
    (h : x s = .error e s') (hy : y s' = .ok b s'') : (tryFinally x y) s = .error e s'' := by
  simp only [tryFinally, Functor.map, EStateM.map, tryFinally', h, hy]

/-- Two statements return only if each of them does. -/
theorem of_bind_ok {x : EStateM ε σ α} {f : α → EStateM ε σ β} {b : β}
    (h : (x >>= f) s = .ok b s') : ∃ a s₁, x s = .ok a s₁ ∧ f a s₁ = .ok b s' := by
  simp only [bind, EStateM.bind] at h
  split at h
  · exact ⟨_, _, ‹_›, h⟩
  · cases h

/-- What is known of the end of a run: `Q` where it returns, `R` where it throws. -/
inductive Ends (Q : α → σ → Prop) (R : ε → σ → Prop) : EStateM.Result ε σ α → Prop
  | ok {a : α} {s : σ} (h : Q a s) : Ends Q R (.ok a s)
  | error {e : ε} {s : σ} (h : R e s) : Ends Q R (.error e s)

theorem Ends.mono {Q Q' : α → σ → Prop} {R R' : ε → σ → Prop} {r : EStateM.Result ε σ α}
    (h : Ends Q R r) (hQ : ∀ a s, Q a s → Q' a s) (hR : ∀ e s, R e s → R' e s) : Ends Q' R' r := by
  cases h with
  | ok h => exact .ok (hQ _ _ h)
  | error h => exact .error (hR _ _ h)

/-- The rule of sequences: the second statement begins where the first one returns. -/
theorem Ends.bind {x : EStateM ε σ α} {f : α → EStateM ε σ β} {Q : α → σ → Prop}
    {Q' : β → σ → Prop} {R : ε → σ → Prop} (h : Ends Q R (x s))
    (hf : ∀ a s', Q a s' → Ends Q' R (f a s')) : Ends Q' R ((x >>= f) s) := by
  cases hx : x s with
  | ok a s' =>
    rw [hx] at h
    cases h with
    | ok h =>
      rw [bind_ok hx]
      exact hf a s' h
  | error e s' =>
    rw [hx] at h
    cases h with
    | error h =>
      rw [bind_error hx]
      exact .error h

/-- The rule of handlers: the handler begins where the exception has been thrown. -/
theorem Ends.tryCatch {x : EStateM ε σ α} {f : ε → EStateM ε σ α} {Q : α → σ → Prop}
    {R R' : ε → σ → Prop} (h : Ends Q R (x s)) (hf : ∀ e s', R e s' → Ends Q R' (f e s')) :
    Ends Q R' ((tryCatch x f : EStateM ε σ α) s) := by
  change Ends Q R' (EStateM.tryCatch x f s)
  unfold EStateM.tryCatch
  cases hx : x s with
  | ok a s' =>
    rw [hx] at h
    cases h with
    | ok h => exact .ok h
  | error e s' =>
    rw [hx] at h
    cases h with
    | error h => exact hf e s' h

/-- The rule of loops: what holds of the elements that are done is kept by one more, which
begins where the last one has returned. -/
theorem Ends.forM {l : List α} {f : α → EStateM ε σ PUnit} (I : List α → σ → Prop)
    {R : ε → σ → Prop} (h : I [] s)
    (hf : ∀ done a todo s, l = done ++ a :: todo → I done s →
      Ends (fun _ t => I (done ++ [a]) t) R (f a s)) : Ends (fun _ t => I l t) R (l.forM f s) := by
  suffices hrest : ∀ todo done s, l = done ++ todo → I done s →
      Ends (fun _ t => I l t) R (todo.forM f s) from hrest l [] s rfl h
  intro todo
  induction todo with
  | nil =>
    rintro done s rfl hI
    rw [List.append_nil]
    exact .ok hI
  | cons a todo ih =>
    intro done s hl hI
    change Ends _ _ ((f a >>= fun _ => todo.forM f) s)
    refine (hf done a todo s hl hI).bind fun _ s' hI' => ih (done ++ [a]) s' ?_ hI'
    rw [hl, List.append_assoc]
    rfl

/-- The same of a loop that collects what its statements return. -/
theorem Ends.mapM {l : List α} {f : α → EStateM ε σ β} (I : List α → List β → σ → Prop)
    {R : ε → σ → Prop} (h : I [] [] s)
    (hf : ∀ done a todo bs s, l = done ++ a :: todo → I done bs s →
      Ends (fun b t => I (done ++ [a]) (bs ++ [b]) t) R (f a s)) :
    Ends (fun bs t => I l bs t) R (l.mapM f s) := by
  suffices hrest : ∀ todo done bs s, l = done ++ todo → I done bs s →
      Ends (fun cs t => I l (bs ++ cs) t) R (todo.mapM f s) by
    have hall := hrest l [] [] s rfl h
    simpa only [List.nil_append] using hall
  intro todo
  induction todo with
  | nil =>
    rintro done bs s rfl hI
    rw [List.append_nil, List.mapM_nil]
    exact .ok (by rwa [List.append_nil])
  | cons a todo ih =>
    intro done bs s hl hI
    rw [List.mapM_cons]
    refine (hf done a todo bs s hl hI).bind fun b s' hI' => ?_
    refine (ih (done ++ [a]) (bs ++ [b]) s' ?_ hI').bind fun cs t hcs => ?_
    · rw [hl, List.append_assoc]
      rfl
    · rw [List.append_assoc] at hcs
      exact .ok hcs

/-- How a run looks to a caller that catches exceptions. -/
def caught : EStateM.Result ε σ α → Option ε × σ
  | .ok _ s => (none, s)
  | .error e s => (some e, s)

theorem Ends.caught {Q : α → σ → Prop} {R : ε → σ → Prop} {r : EStateM.Result ε σ α}
    (h : Ends Q R r) :
    (∃ a, (caught r).1 = none ∧ Q a (caught r).2) ∨
      ∃ e, (caught r).1 = some e ∧ R e (caught r).2 := by
  cases h with
  | ok h => exact .inl ⟨_, rfl, h⟩
  | error h => exact .inr ⟨_, rfl, h⟩

/-- Whenever the first computation returns, the second one does the same. -/
def Within (x y : EStateM ε σ α) : Prop := ∀ s a s', x s = .ok a s' → y s = .ok a s'

theorem Within.refl (x : EStateM ε σ α) : Within x x := fun _ _ _ h => h

theorem Within.throw (e : ε) (y : EStateM ε σ α) : Within (throw e) y := nofun

theorem Within.bind {x y : EStateM ε σ α} {f g : α → EStateM ε σ β} (hx : Within x y)
    (hf : ∀ a, Within (f a) (g a)) : Within (x >>= f) (y >>= g) := by
  intro s b s' h
  obtain ⟨a, s₁, hfirst, hrest⟩ := of_bind_ok h
  rw [bind_ok (hx s a s₁ hfirst)]
  exact hf a s₁ b s' hrest

theorem Within.ite {c : Prop} [Decidable c] {x y x' y' : EStateM ε σ α} (h : Within x y)
    (h' : Within x' y') : Within (if c then x else x') (if c then y else y') := by
  split
  · exact h
  · exact h'

end Statement
