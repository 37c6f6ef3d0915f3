import CppLogger.Formatting.LogRecord
import Mathlib.Data.Char
import Mathlib.Data.List.Lex

/-!
# The fraction of a timestamp

`formatTime` takes the second and the milliseconds from the time since the epoch by two
divisions that truncate towards zero. From the epoch on both round down, so the fraction
is what has elapsed of the second. Before the epoch both round up: the second is the next
one, and the milliseconds are those that are missing, with a sign.
-/

namespace CppLogger

def threeDigits (k : ℕ) : Text :=
  [Nat.digitChar (k / 100), Nat.digitChar (k / 10 % 10), Nat.digitChar (k % 10)]

/-- The text of a timestamp is that of the second in which it lies, which has begun, and the
milliseconds that have elapsed of it. -/
def FractionWellFormed {Tid : Type*} (host : Host Tid) (timestamp : ℤ) (text : Text) : Prop :=
  ∃ k : ℕ, k < 1000 ∧ timestamp / 10 ^ 6 % 1000 = k ∧
    text = strftimeSecond (host.toLocalTime (timestamp / 10 ^ 9)) ++ '.' :: threeDigits k

/-- The time is not before the epoch, or a whole second. -/
def Placed (timestamp : ℤ) : Prop := 0 ≤ timestamp ∨ 10 ^ 9 ∣ timestamp

instance (timestamp : ℤ) : Decidable (Placed timestamp) := inferInstanceAs (Decidable (_ ∨ _))

/-- The local time renders the second `b` as wide as `a`, and after it when it comes later. -/
structure SecondsOrdered {Tid : Type*} (host : Host Tid) (a b : ℤ) : Prop where
  width : (strftimeSecond (host.toLocalTime a)).length =
    (strftimeSecond (host.toLocalTime b)).length
  order : a < b → strftimeSecond (host.toLocalTime a) < strftimeSecond (host.toLocalTime b)

/-! ## The divisions -/

variable {timestamp : ℤ}

theorem placed_split (h : Placed timestamp) :
    ∃ k : ℕ, k < 1000 ∧ timestamp / 10 ^ 6 % 1000 = k ∧
      (timestamp.tdiv (10 ^ 6)).tmod 1000 = k ∧ toTimeT timestamp = timestamp / 10 ^ 9 := by
  rcases h with hpos | ⟨second, rfl⟩
  · have hmillis : (timestamp.tdiv (10 ^ 6)).tmod 1000 = timestamp / 10 ^ 6 % 1000 := by
      rw [Int.tdiv_eq_ediv_of_nonneg hpos, Int.tmod_eq_emod_of_nonneg (by positivity)]
    have hsecond : toTimeT timestamp = timestamp / 10 ^ 9 := Int.tdiv_eq_ediv_of_nonneg hpos
    rw [hmillis]
    exact ⟨(timestamp / 10 ^ 6 % 1000).toNat, by omega, by omega, by omega, hsecond⟩
  · have hsecond : toTimeT (10 ^ 9 * second) = second := Int.mul_tdiv_cancel_left _ (by decide)
    have hmillis : (10 ^ 9 * second).tdiv (10 ^ 6) = 1000 * second := by
      rw [show (10 : ℤ) ^ 9 * second = 10 ^ 6 * (1000 * second) by ring]
      exact Int.mul_tdiv_cancel_left _ (by decide)
    refine ⟨0, by decide, by omega, ?_, ?_⟩
    · rw [hmillis, Int.mul_tmod_right]
      rfl
    · rw [hsecond]
      omega

/-! ## The digits -/

theorem decimal_small {k : ℕ} (h : k < 10) : decimal k = [Nat.digitChar k] := by
  rw [decimal_natCast, Nat.toDigits_of_lt_base h]

theorem decimal_cons {k : ℕ} (h : 10 ≤ k) :
    decimal k = decimal (k / 10 : ℕ) ++ [Nat.digitChar (k % 10)] := by
  rw [decimal_natCast, decimal_natCast, Nat.toDigits_of_base_le (by decide) h]

/-- The two comparisons pad the number to three digits. -/
theorem appendMilliseconds_eq {k : ℕ} (hk : k < 1000)
    (hmillis : (timestamp.tdiv (10 ^ 6)).tmod 1000 = k) (formatted : Text) :
    appendMilliseconds formatted timestamp = formatted ++ '.' :: threeDigits k := by
  have hzero : Nat.digitChar 0 = '0' := rfl
  simp only [appendMilliseconds, appendInteger, hmillis]
  by_cases hten : k < 10
  · rw [if_pos (by omega), if_pos (by omega), decimal_small hten, threeDigits,
      show k / 100 = 0 by omega, show k / 10 % 10 = 0 by omega, show k % 10 = k by omega, hzero]
    simp
  · by_cases hhundred : k < 100
    · rw [if_neg (by omega), if_pos (by omega), decimal_cons (k := k) (by omega),
        decimal_small (k := k / 10) (by omega), threeDigits, show k / 100 = 0 by omega,
        show k / 10 % 10 = k / 10 by omega, hzero]
      simp
    · rw [if_neg (by omega), if_neg (by omega), decimal_cons (k := k) (by omega),
        decimal_cons (k := k / 10) (by omega), decimal_small (k := k / 10 / 10) (by omega),
        threeDigits, show k / 10 / 10 = k / 100 by omega]
      simp

theorem length_decimal_le {k : ℕ} (hk : k < 1000) : (decimal k).length ≤ 3 := by
  rw [decimal_natCast]
  exact Nat.length_toDigits_le_iff (by decide) (by decide) |>.mpr hk

theorem not_mem_threeDigits {k : ℕ} (hk : k < 1000) : '-' ∉ '.' :: threeDigits k := by
  have hdigit : ∀ d < 10, '-' ≠ Nat.digitChar d := by decide
  simp [threeDigits, hdigit (k / 100) (by omega), hdigit (k / 10 % 10) (by omega),
    hdigit (k % 10) (by omega)]

/-! ## The order of texts -/

theorem digitChar_lt {d e : ℕ} (h : d < e) (he : e < 10) : Nat.digitChar d < Nat.digitChar e := by
  have hall : ∀ e < 10, ∀ d < e, Nat.digitChar d < Nat.digitChar e := by decide
  exact hall e he d h

theorem threeDigits_lt {k l : ℕ} (h : k < l) (hl : l < 1000) : threeDigits k < threeDigits l := by
  unfold threeDigits
  rcases Nat.lt_or_ge (k / 100) (l / 100) with hlt | hge
  · exact List.cons_lt_cons_iff.mpr (.inl (digitChar_lt hlt (by omega)))
  rw [show k / 100 = l / 100 by omega]
  refine List.cons_lt_cons_iff.mpr (.inr ⟨rfl, ?_⟩)
  rcases Nat.lt_or_ge (k / 10 % 10) (l / 10 % 10) with hlt | hge
  · exact List.cons_lt_cons_iff.mpr (.inl (digitChar_lt hlt (by omega)))
  rw [show k / 10 % 10 = l / 10 % 10 by omega]
  refine List.cons_lt_cons_iff.mpr (.inr ⟨rfl, ?_⟩)
  exact List.cons_lt_cons_iff.mpr (.inl (digitChar_lt (by omega) (by omega)))

/-- Of two texts of the same width what follows does not change the order. -/
theorem append_lt_append {a b : Text} (hlength : a.length = b.length) (h : a < b) (x y : Text) :
    a ++ x < b ++ y := by
  induction a generalizing b with
  | nil =>
    cases b with
    | nil => exact absurd h (List.lt_irrefl _)
    | cons d b => simp at hlength
  | cons c a ih =>
    cases b with
    | nil => simp at hlength
    | cons d b =>
      rw [List.cons_append, List.cons_append, List.cons_lt_cons_iff]
      rcases List.cons_lt_cons_iff.mp h with hlt | ⟨heq, htail⟩
      · exact .inl hlt
      · exact .inr ⟨heq, ih (by simpa using hlength) htail⟩

/-! ## Timestamps -/

variable {Tid : Type*} {host : Host Tid} {cache later : TimestampCache} {t u : ℤ}

theorem renderTime_wellFormed (host : Host Tid) (h : Placed t) :
    FractionWellFormed host t (renderTime host t) := by
  obtain ⟨k, hk, helapsed, hmillis, hsecond⟩ := placed_split h
  rw [renderTime, hsecond]
  exact ⟨k, hk, helapsed, appendMilliseconds_eq hk hmillis _⟩

/-- In the middle of a second before the epoch the milliseconds are printed with a sign, as
soon as one of them is missing. -/
theorem renderTime_before (host : Host Tid) (h : ¬Placed t) : ∃ k : ℕ, k < 1000 ∧
    -t / 10 ^ 6 % 1000 = k ∧ (t.tdiv (10 ^ 6)).tmod 1000 = -k ∧ (0 < k → renderTime host t =
      strftimeSecond (host.toLocalTime (toTimeT t)) ++ ".00-".toList ++ decimal k) := by
  obtain ⟨hneg, -⟩ := not_or.mp h
  have hmillis : (t.tdiv (10 ^ 6)).tmod 1000 = -(-t / 10 ^ 6 % 1000) := by
    have hmissing : 0 ≤ (-t).tdiv (10 ^ 6) := Int.tdiv_nonneg (by omega) (by decide)
    rw [← Int.tdiv_eq_ediv_of_nonneg (by omega), ← Int.tmod_eq_emod_of_nonneg hmissing,
      Int.neg_tdiv, Int.neg_tmod, neg_neg]
  refine ⟨(-t / 10 ^ 6 % 1000).toNat, by omega, by omega, by omega, fun hpos => ?_⟩
  obtain ⟨k, hk⟩ : ∃ k, (-t / 10 ^ 6 % 1000).toNat = k + 1 := ⟨_, (Nat.sub_add_cancel hpos).symm⟩
  have hvalue : (t.tdiv (10 ^ 6)).tmod 1000 = Int.negSucc k := by
    rw [hmillis, Int.negSucc_eq]
    omega
  have hminus : decimal (Int.negSucc k) = '-' :: decimal ((k + 1 : ℕ) : ℤ) := by
    rw [decimal_negSucc, decimal_natCast]
  simp only [renderTime, appendMilliseconds, appendInteger, hvalue, hk, hminus]
  rw [if_pos (by omega), if_pos (by omega)]
  simp

/-- A sign is no digit, and no millisecond missing is not none elapsed. -/
theorem not_wellFormed (h : ¬Placed t) : ¬FractionWellFormed host t (renderTime host t) := by
  rintro ⟨l, hl, helapsed, htext⟩
  obtain ⟨hneg, hdvd⟩ := not_or.mp h
  obtain ⟨k, hk, hmissing, hmillis, hrender⟩ := renderTime_before host h
  rcases Nat.eq_zero_or_pos k with rfl | hpos
  · have hzero : renderTime host t =
        strftimeSecond (host.toLocalTime (toTimeT t)) ++ '.' :: threeDigits 0 :=
      appendMilliseconds_eq (by decide) (by simpa using hmillis) _
    rw [hzero] at htext
    have hdigits := (List.cons.inj (List.append_inj_right' htext (by simp [threeDigits]))).2
    have hless := threeDigits_lt (k := 0) (l := l) (by omega) hl
    rw [hdigits] at hless
    exact List.lt_irrefl _ hless
  · -- The last four characters hold the sign.
    have hlength := length_decimal_le hk
    rw [hrender hpos, ← List.take_append_drop (decimal k).length ".00-".toList, List.append_assoc,
      List.append_assoc, ← List.append_assoc] at htext
    have hlast := List.append_inj_right' htext (by
      rw [List.length_append, List.length_drop]
      simp [threeDigits]
      omega)
    have hsign : '-' ∈ ".00-".toList.drop (decimal k).length := by
      generalize (decimal k).length = n at hlength
      have hall : ∀ n ≤ 3, '-' ∈ ".00-".toList.drop n := by decide
      exact hall n hlength
    exact not_mem_threeDigits hl (hlast ▸ List.mem_append_left _ hsign)

theorem renderTime_le (hle : t ≤ u) (ht : Placed t) (hu : Placed u)
    (hseconds : SecondsOrdered host (toTimeT t) (toTimeT u)) :
    renderTime host t ≤ renderTime host u := by
  obtain ⟨k, hk, helapsed, hmillis, hsecond⟩ := placed_split ht
  obtain ⟨l, hl, helapsed', hmillis', hsecond'⟩ := placed_split hu
  rw [renderTime, renderTime, appendMilliseconds_eq hk hmillis, appendMilliseconds_eq hl hmillis']
  rcases lt_trichotomy (toTimeT t) (toTimeT u) with hlt | heq | hgt
  · exact (append_lt_append hseconds.width (hseconds.order hlt) _ _).le
  · rw [heq]
    rcases (show k ≤ l by omega).lt_or_eq with hless | rfl
    · exact (List.append_left_lt (List.cons_lt_cons_iff.mpr (.inr ⟨rfl, threeDigits_lt hless hl⟩))).le
    · exact le_rfl
  · omega

/-- The timestamps of two times are well formed and in order exactly when neither time is
in the middle of a second before the epoch. -/
theorem timestamps_ordered_iff (hcache : cache.Valid host) (hlater : later.Valid host)
    (hle : t ≤ u) (hseconds : SecondsOrdered host (toTimeT t) (toTimeT u)) :
    (FractionWellFormed host t (formatTime host cache t).1 ∧
      FractionWellFormed host u (formatTime host later u).1 ∧
      (formatTime host cache t).1 ≤ (formatTime host later u).1) ↔ Placed t ∧ Placed u := by
  rw [(formatTime_valid hcache t).1, (formatTime_valid hlater u).1]
  constructor
  · rintro ⟨ht, hu, -⟩
    exact ⟨by_contra fun h => not_wellFormed h ht, by_contra fun h => not_wellFormed h hu⟩
  · rintro ⟨ht, hu⟩
    exact ⟨renderTime_wellFormed host ht, renderTime_wellFormed host hu,
    renderTime_le hle ht hu hseconds⟩

/-- The minutes before and after the epoch, in universal time. -/
def firstMinute : Host Unit :=
  ⟨fun time => if time < 0 then ⟨69, 11, 31, 23, 59, 60 + time⟩ else ⟨70, 0, 1, 0, 0, time⟩,
    fun _ => 0⟩

theorem timestamps_ordered_minute :
    (formatTime firstMinute {} 1005000000).1 ≤ (formatTime firstMinute {} 2050000000).1 :=
  have hempty : TimestampCache.Valid firstMinute {} := nofun
  ((timestamps_ordered_iff hempty hempty (by decide) ⟨by decide, by decide⟩).mpr (by decide)).2.2

/-- Two times before the epoch whose texts are malformed and in the wrong order. -/
theorem timestamps_before_epoch :
    (formatTime firstMinute {} (-900000000)).1 = "1970-01-01 00:00:00.00-900".toList ∧
      (formatTime firstMinute {} (-100000000)).1 = "1970-01-01 00:00:00.00-100".toList ∧
      ¬∀ t u, t ≤ u → SecondsOrdered firstMinute (toTimeT t) (toTimeT u) →
        FractionWellFormed firstMinute t (formatTime firstMinute {} t).1 ∧
          FractionWellFormed firstMinute u (formatTime firstMinute {} u).1 ∧
          (formatTime firstMinute {} t).1 ≤ (formatTime firstMinute {} u).1 := by
  refine ⟨by decide, by decide, fun h => ?_⟩
  have hordered := (h (-900000000) (-100000000) (by decide) ⟨by decide, by decide⟩).2.2
  exact absurd hordered (by decide)

end CppLogger
