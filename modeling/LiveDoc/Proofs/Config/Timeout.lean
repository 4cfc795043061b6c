/-
Which numbers of seconds can be set as the time for an evaluation, and what is set.

A number is taken by its exact value.  It is rounded to whole nanoseconds, and the milliseconds
in these are the time.  The two limits are limits of the rounded number: a value a little below
a millisecond can still be rounded up to one.
-/
import Mathlib.Algebra.Order.Round
import Mathlib.Data.Rat.Floor
import Mathlib.Tactic.Linarith
import Mathlib.Tactic.Positivity
import Mathlib.Tactic.FieldSimp
import Mathlib.Tactic.Ring
import LiveDoc.Config.Timeout

namespace LiveDoc

/-! ## The nearest integer -/

/-- No integer is nearer to `x`, and if another is equally near, this one is even. -/
structure NearestEven (x : ℚ) (n : ℤ) : Prop where
  nearest : ∀ m : ℤ, |x - n| ≤ |x - m|
  even_of_tie : ∀ m : ℤ, m ≠ n → |x - m| = |x - n| → Even n

theorem one_le_abs_sub {m n : ℤ} (h : m ≠ n) (x : ℚ) : 1 ≤ |x - m| + |x - n| := by
  have hint : (1 : ℤ) ≤ |m - n| := Int.one_le_abs (sub_ne_zero.mpr h)
  have hrat : (1 : ℚ) ≤ |(m : ℚ) - n| := by exact_mod_cast hint
  have htriangle : |(m : ℚ) - n| ≤ |(m : ℚ) - x| + |x - n| := abs_sub_le _ _ _
  rw [abs_sub_comm (m : ℚ) x] at htriangle
  linarith

theorem NearestEven.of_le_half {x : ℚ} {n : ℤ} (h : |x - n| ≤ 1 / 2)
    (heven : |x - n| = 1 / 2 → Even n) : NearestEven x n := by
  constructor
  · intro m
    by_cases hm : m = n
    · rw [hm]
    · have := one_le_abs_sub hm x
      linarith
  · intro m hm htie
    have := one_le_abs_sub hm x
    exact heven (by linarith)

theorem NearestEven.le_half {x : ℚ} {n : ℤ} (h : NearestEven x n) : |x - n| ≤ 1 / 2 :=
  (h.nearest (round x)).trans (abs_sub_round x)

theorem NearestEven.mono {x y : ℚ} {m n : ℤ} (hm : NearestEven x m) (hn : NearestEven y n)
    (hxy : x ≤ y) : m ≤ n := by
  by_contra hlt
  have hgap : (n : ℚ) + 1 ≤ m := by exact_mod_cast Int.add_one_le_iff.mpr (not_le.mp hlt)
  have hx := abs_le.mp hm.le_half
  have hy := abs_le.mp hn.le_half
  -- Half a unit off on both sides leaves room for one value only.
  have hvalue : x = y := by linarith
  have hdist : (m : ℚ) = n + 1 := by linarith
  have hm' : |x - m| = 1 / 2 := by
    rw [abs_sub_comm, abs_of_nonneg (by linarith)]
    linarith
  have hn' : |x - n| = 1 / 2 := by
    rw [abs_of_nonneg (by linarith)]
    linarith
  have hne : m ≠ n := by omega
  have hevenm : Even m := hm.even_of_tie n hne.symm (hn'.trans hm'.symm)
  have hevenn : Even n := hn.even_of_tie m hne (by rw [← hvalue, hm', hn'])
  have hstep : m = n + 1 := by exact_mod_cast hdist
  rw [hstep] at hevenm
  exact (Int.even_add_one.mp hevenm) hevenn

theorem NearestEven.unique {x : ℚ} {m n : ℤ} (hm : NearestEven x m) (hn : NearestEven x n) :
    m = n :=
  le_antisymm (hm.mono hn le_rfl) (hn.mono hm le_rfl)

/-- A fraction is half a unit or less from `k` if twice its numerator is. -/
theorem NearestEven.of_fraction {n d : ℕ} {k : ℤ} (hd : 0 < d) (h : 2 * |n - k * d| ≤ d)
    (heven : 2 * |n - k * d| = (d : ℤ) → Even k) : NearestEven ((n : ℚ) / d) k := by
  have hd' : (0 : ℚ) < d := by exact_mod_cast hd
  have hdist : |(n : ℚ) / d - k| = (|n - k * d| : ℤ) / d := by
    rw [div_sub' hd'.ne', abs_div, abs_of_pos hd', mul_comm (d : ℚ)]
    push_cast
    rfl
  refine .of_le_half ?_ fun htie => heven ?_
  · rw [hdist, div_le_div_iff₀ hd' two_pos, one_mul, mul_comm]
    exact_mod_cast h
  · rw [hdist, div_eq_div_iff hd'.ne' two_ne_zero, one_mul, mul_comm] at htie
    exact_mod_cast htie

theorem roundDiv_cases (n d : ℕ) :
    (roundDiv n d = n / d ∧ 2 * (n % d) ≤ d ∧ (2 * (n % d) = d → n / d % 2 = 0)) ∨
      (roundDiv n d = n / d + 1 ∧ d ≤ 2 * (n % d) ∧ (2 * (n % d) = d → n / d % 2 = 1)) := by
  simp only [roundDiv]
  split_ifs <;> omega

theorem nearestEven_roundDiv (n : ℕ) {d : ℕ} (hd : 0 < d) :
    NearestEven ((n : ℚ) / d) (roundDiv n d) := by
  have hless : n % d < d := Nat.mod_lt n hd
  have hsplit : (n : ℤ) = (n / d : ℕ) * d + (n % d : ℕ) := by
    exact_mod_cast (Nat.div_add_mod' n d).symm
  rcases roundDiv_cases n d with ⟨hround, hhalf, hparity⟩ | ⟨hround, hhalf, hparity⟩
  · have hdist : |(n : ℤ) - (n / d : ℕ) * d| = (n % d : ℕ) := by
      rw [hsplit, add_sub_cancel_left, abs_of_nonneg (Int.natCast_nonneg _)]
    rw [hround]
    refine .of_fraction hd ?_ fun htie => ?_
    · rw [hdist]
      exact_mod_cast hhalf
    · rw [hdist] at htie
      exact_mod_cast Nat.even_iff.mpr (hparity (by exact_mod_cast htie))
  · have hdist : |(n : ℤ) - (n / d + 1 : ℕ) * d| = d - (n % d : ℕ) := by
      rw [hsplit, Nat.cast_add_one, add_mul, one_mul, add_sub_add_left_eq_sub, abs_sub_comm,
        abs_of_nonneg (by omega)]
    rw [hround]
    refine .of_fraction hd ?_ fun htie => ?_
    · rw [hdist]
      omega
    · rw [hdist] at htie
      have hodd : n / d % 2 = 1 := hparity (by omega)
      exact_mod_cast Nat.even_iff.mpr (by omega)

/-! ## Whole nanoseconds -/

def Dyadic.value (d : Dyadic) : ℚ :=
  (if d.negative then -1 else 1) * d.mantissa * 2 ^ d.exponent

namespace Binary64

/-- The exact value, `none` for an infinity and for no number. -/
def value? : Binary64 → Option ℚ
  | .finite d => some d.value
  | _ => none

theorem scaled_spec (n : ℕ) (e : ℤ) :
    0 < (scaled n 1 e).2 ∧ ((scaled n 1 e).1 : ℚ) / (scaled n 1 e).2 = n * 2 ^ e := by
  rw [scaled]
  split
  · next h =>
    obtain ⟨k, rfl⟩ := Int.eq_ofNat_of_zero_le h
    simp
  · next h =>
    obtain ⟨k, hk⟩ := Int.eq_ofNat_of_zero_le (show 0 ≤ -e by omega)
    obtain rfl : e = -k := by omega
    simp [div_eq_mul_inv]

theorem value_neg {d : Dyadic} (h : d.negative = true ∧ d.mantissa ≠ 0) : d.value < 0 := by
  have hmantissa : (0 : ℚ) < d.mantissa := by exact_mod_cast Nat.pos_of_ne_zero h.2
  have hpower : (0 : ℚ) < 2 ^ d.exponent := zpow_pos two_pos _
  rw [Dyadic.value, if_pos h.1, neg_one_mul, neg_mul]
  exact neg_neg_of_pos (mul_pos hmantissa hpower)

theorem value_of_not_neg {d : Dyadic} (h : ¬ (d.negative = true ∧ d.mantissa ≠ 0)) :
    d.value = d.mantissa * 2 ^ d.exponent := by
  rw [Dyadic.value]
  split
  · next hnegative =>
    have hmantissa : d.mantissa = 0 := by_contra fun hne => h ⟨hnegative, hne⟩
    simp [hmantissa]
  · rw [one_mul]

/-- A number of seconds comes to `ns` nanoseconds if it is one from zero up, is below the limit
of such numbers, and has `ns` as its nearest whole number of nanoseconds. -/
theorem nanoseconds?_eq_some_iff {s : Binary64} {ns : ℕ} :
    s.nanoseconds? = some ns ↔
      ∃ x, s.value? = some x ∧ 0 ≤ x ∧ x < 2 ^ 64 ∧ NearestEven (x * 10 ^ 9) ns := by
  cases s with
  | infinite negative => simp [nanoseconds?, value?]
  | notANumber => simp [nanoseconds?, value?]
  | finite d =>
    by_cases hsign : d.negative = true ∧ d.mantissa ≠ 0
    · have hneg := value_neg hsign
      rw [nanoseconds?, if_pos hsign]
      constructor
      · intro h
        cases h
      · rintro ⟨x, hvalue, hx, -, -⟩
        obtain rfl := Option.some.inj hvalue
        exact absurd hx (not_le.mpr hneg)
    · have hvalue := value_of_not_neg hsign
      obtain ⟨hden, hquotient⟩ := scaled_spec d.mantissa d.exponent
      rw [nanoseconds?, if_neg hsign]
      generalize scaled d.mantissa 1 d.exponent = fraction at *
      obtain ⟨n, den⟩ := fraction
      dsimp only at *
      have hden' : (0 : ℚ) < den := by exact_mod_cast hden
      rw [← hquotient] at hvalue
      have hlimit : d.value < 2 ^ 64 ↔ n < Nat.pow 2 64 * den := by
        rw [hvalue, div_lt_iff₀ hden']
        exact_mod_cast Iff.rfl
      have hround : NearestEven (d.value * 10 ^ 9) (roundDiv (n * Nat.pow 10 9) den) := by
        have hnearest := nearestEven_roundDiv (n * Nat.pow 10 9) hden
        rw [hvalue, div_mul_eq_mul_div]
        exact_mod_cast hnearest
      have hnonneg : 0 ≤ d.value := by rw [hvalue]; positivity
      constructor
      · intro h
        split at h
        · next hlt =>
          obtain rfl := Option.some.inj h
          exact ⟨_, rfl, hnonneg, hlimit.mpr hlt, hround⟩
        · cases h
      · rintro ⟨x, hx, -, hlt, hnearest⟩
        obtain rfl := Option.some.inj hx
        rw [if_pos (hlimit.mp hlt)]
        exact congrArg some (by exact_mod_cast hround.unique hnearest)

/-! ## Milliseconds -/

/-- The number is `x`, which is not below zero and comes to `ns` whole nanoseconds.  In these
there is at least one millisecond, and fewer than 64 bits can count. -/
structure IsTime (s : Binary64) (x : ℚ) (ns : ℕ) : Prop where
  value : s.value? = some x
  nonneg : 0 ≤ x
  nearest : NearestEven (x * 10 ^ 9) ns
  low : 10 ^ 6 ≤ ns
  high : ns < 2 ^ 64 * 10 ^ 6

/-- The limit of the milliseconds is far below that of the seconds. -/
theorem IsTime.lt {s : Binary64} {x : ℚ} {ns : ℕ} (h : s.IsTime x ns) : x < 2 ^ 64 := by
  have hhalf := (abs_le.mp h.nearest.le_half).2
  have hhigh : ((ns : ℤ) : ℚ) < 2 ^ 64 * 10 ^ 6 := by exact_mod_cast h.high
  linarith

theorem milliseconds_eq_ok_iff {s : Binary64} {ms : ℕ} :
    s.milliseconds = .ok ms ↔ ∃ x ns, s.IsTime x ns ∧ ms = ns / 10 ^ 6 := by
  rw [milliseconds]
  constructor
  · intro h
    split at h
    · cases h
    · next ns hns =>
      obtain ⟨x, hvalue, hx, -, hnearest⟩ := nanoseconds?_eq_some_iff.mp hns
      simp only [Nat.pow_eq] at h
      split_ifs at h with hlarge hsmall
      obtain rfl := Except.ok.inj h
      exact ⟨x, ns, ⟨hvalue, hx, hnearest, by omega, by omega⟩, rfl⟩
  · rintro ⟨x, ns, h, rfl⟩
    have hns := nanoseconds?_eq_some_iff.mpr ⟨x, h.value, h.nonneg, h.lt, h.nearest⟩
    have hlow := h.low
    have hhigh := h.high
    simp only [hns, Nat.pow_eq]
    rw [if_neg (by omega), if_neg (by omega)]

end Binary64

namespace Config

theorem setEvalSeconds_of_isTime (c : Config) {s : Binary64} {x : ℚ} {ns : ℕ}
    (h : s.IsTime x ns) :
    c.setEvalSeconds s = (none, { c with evalTimeout := ns / 10 ^ 6 }) := by
  rw [setEvalSeconds, Binary64.milliseconds_eq_ok_iff.mpr ⟨x, ns, h, rfl⟩]

theorem setEvalSeconds_of_not (c : Config) {s : Binary64} (h : ∀ x ns, ¬ s.IsTime x ns) :
    ∃ fault, c.setEvalSeconds s = (some fault, c) := by
  cases hms : s.milliseconds with
  | ok ms =>
    obtain ⟨x, ns, htime, -⟩ := Binary64.milliseconds_eq_ok_iff.mp hms
    exact absurd htime (h x ns)
  | error fault => exact ⟨fault, by rw [setEvalSeconds, hms]⟩

/-- Only the time itself can be wrong with settings in which nothing else is changed. -/
theorem fault?_with_evalTimeout {c : Config} (h : c.fault? = none) {ms : ℕ} (hms : ms ≠ 0) :
    ({ c with evalTimeout := ms } : Config).fault? = none := by
  rw [fault?] at h ⊢
  split_ifs at h ⊢
  rfl

/-- Let `ns` be a number of seconds in nanoseconds, rounded to the nearest integer and to the even
one if two are equally near.  Setting the time succeeds exactly if the number is finite and not
below zero and `ns` is at least a millisecond and below `2 ^ 64` of them.  Then the whole
milliseconds in `ns` are the time, from one on and below `2 ^ 64`; nothing else changes, and
usable settings stay usable.  Otherwise it fails and changes nothing.  A larger number never
gives a smaller time. -/
theorem evalSeconds_exact (c : Config) (s : Binary64) :
    (∀ x ns, s.IsTime x ns →
      c.setEvalSeconds s = (none, { c with evalTimeout := ns / 10 ^ 6 }) ∧
      1 ≤ ns / 10 ^ 6 ∧ ns / 10 ^ 6 < 2 ^ 64 ∧
      (c.fault? = none → (c.setEvalSeconds s).2.fault? = none)) ∧
    ((∀ x ns, ¬ s.IsTime x ns) → ∃ fault, c.setEvalSeconds s = (some fault, c)) ∧
    (∀ (c' : Config) (s' : Binary64) (x x' : ℚ), s.value? = some x → s'.value? = some x' → x ≤ x' →
      (c.setEvalSeconds s).1 = none → (c'.setEvalSeconds s').1 = none →
      (c.setEvalSeconds s).2.evalTimeout ≤ (c'.setEvalSeconds s').2.evalTimeout) := by
  have hexists : ∀ (c : Config) (s : Binary64), (c.setEvalSeconds s).1 = none →
      ∃ x ns, s.IsTime x ns := by
    intro c s hnone
    by_contra hnot
    obtain ⟨fault, hfault⟩ := c.setEvalSeconds_of_not fun x ns h => hnot ⟨x, ns, h⟩
    rw [hfault] at hnone
    cases hnone
  refine ⟨fun x ns h => ?_, c.setEvalSeconds_of_not, fun c' s' x x' hx hx' hle hs hs' => ?_⟩
  · have hlow := h.low
    have hhigh := h.high
    refine ⟨c.setEvalSeconds_of_isTime h, by omega, by omega, fun hvalid => ?_⟩
    rw [c.setEvalSeconds_of_isTime h]
    exact fault?_with_evalTimeout hvalid (by omega)
  · obtain ⟨y, ns, h⟩ := hexists c s hs
    obtain ⟨y', ns', h'⟩ := hexists c' s' hs'
    obtain rfl := Option.some.inj (h.value.symm.trans hx)
    obtain rfl := Option.some.inj (h'.value.symm.trans hx')
    have hns : (ns : ℤ) ≤ ns' := h.nearest.mono h'.nearest (by linarith)
    rw [c.setEvalSeconds_of_isTime h, c'.setEvalSeconds_of_isTime h']
    exact Nat.div_le_div_right (by exact_mod_cast hns)

/-- Less than a millisecond, but not in whole nanoseconds. -/
example :
    (Binary64.ofText? "0.0009999999996".toList).map Config.default.setEvalSeconds =
      some (none, { Config.default with evalTimeout := 1 }) := by
  decide +kernel

end Config
end LiveDoc
