import Mathlib
import RevisedSimplex.Binary64

/-! # Exact results in binary64

Rounding a binary64 value gives the number back (`roundNonzero_of_representable`): its magnitude
lies on the grid of its own quantum. So an operation whose exact result is a binary64 value, or
an exact zero, returns it: one times a number, a number over one, a zero times a number, and a
sum with a zero term. On zeros and finite numbers (`IsReal`) the comparisons compare values,
and on all numbers but NaN they compare values in `[-∞, +∞]` (`lt_iff`, `le_iff`).
-/

namespace RevisedSimplex

namespace Binary64

@[simp] theorem zero_def : (0 : Binary64) = zero false := rfl
@[simp] theorem one_def : (1 : Binary64) = one := rfl
@[simp] theorem add_def (x y : Binary64) : x + y = add x y := rfl
@[simp] theorem mul_def (x y : Binary64) : x * y = mul x y := rfl
@[simp] theorem div_def (x y : Binary64) : x / y = div x y := rfl
@[simp] theorem neg_def (x : Binary64) : -x = neg x := rfl
@[simp] theorem abs_def (x : Binary64) : Scalar.abs x = abs x := rfl
@[simp] theorem lt_def (x y : Binary64) : (x < y) = (lt x y = true) := rfl
@[simp] theorem le_def (x y : Binary64) : (x ≤ y) = (le x y = true) := rfl
@[simp] theorem beq_def (x y : Binary64) : (x == y) = beq x y := rfl
@[simp] theorem isFinite_def (x : Binary64) : Scalar.isFinite x = isFinite x := rfl

theorem representable_abs {q : ℚ} : Representable |q| ↔ Representable q := by
  simp [Representable]

theorem finite_congr {q q' : ℚ} (h : q = q') {hq : q ≠ 0} {hr : Representable q} {hq' : q' ≠ 0}
    {hr' : Representable q'} : finite q hq hr = finite q' hq' hr' := by
  subst h
  rfl

theorem roundHalfEven_natCast (n : ℕ) : roundHalfEven n = n := by
  simp [roundHalfEven]

theorem quantum_le {a : ℚ} (ha : 0 < a) {m : ℕ} {e : ℤ} (hm : m < 2 ^ 53) (he : -1074 ≤ e)
    (hae : a = m * 2 ^ e) : quantum a ≤ e := by
  have hlt : a < 2 ^ (e + 53) := by
    have hm' : (m : ℚ) < 2 ^ 53 := by exact_mod_cast hm
    calc a = m * 2 ^ e := hae
      _ < 2 ^ 53 * 2 ^ e := mul_lt_mul_of_pos_right hm' (zpow_pos two_pos e)
      _ = 2 ^ (e + 53) := by rw [zpow_add₀ two_ne_zero, mul_comm]; norm_cast
  have hlog : Int.log 2 a < e + 53 :=
    (Int.lt_zpow_iff_log_lt (b := 2) (by norm_num) ha).mp (by exact_mod_cast hlt)
  unfold quantum
  omega

theorem rounded_of_representable {a : ℚ} (ha : 0 < a) (hr : Representable a) :
    significand a ≠ 0 ∧ rounded a = a := by
  obtain ⟨-, m, e, hm, he, hae⟩ := hr
  rw [abs_of_pos ha] at hae
  have hq := quantum_le ha hm he hae
  obtain ⟨k, hk⟩ : ∃ k : ℕ, e = quantum a + k := ⟨(e - quantum a).toNat, by omega⟩
  have hsplit : a = ((m * 2 ^ k : ℕ) : ℚ) * 2 ^ quantum a := by
    calc a = m * 2 ^ e := hae
      _ = ((m * 2 ^ k : ℕ) : ℚ) * 2 ^ quantum a := by
        rw [hk, zpow_add₀ two_ne_zero, zpow_natCast]
        push_cast
        ring
  have hsig : significand a = m * 2 ^ k := by
    rw [significand, (div_eq_iff (zpow_ne_zero _ two_ne_zero)).mpr hsplit,
      roundHalfEven_natCast]
  have hm0 : m ≠ 0 := by
    rintro rfl
    rw [hae, Nat.cast_zero, zero_mul] at ha
    exact lt_irrefl 0 ha
  refine ⟨by rw [hsig]; positivity, ?_⟩
  rw [rounded, hsig]
  exact hsplit.symm

/-- Rounding a binary64 value gives the number back. -/
theorem roundNonzero_of_representable {q : ℚ} (hq : q ≠ 0) (hr : Representable q) :
    roundNonzero q = finite q hq hr := by
  obtain ⟨h0, hround⟩ := rounded_of_representable (abs_pos.mpr hq) (representable_abs.mpr hr)
  have hov : ¬ (2 : ℚ) ^ 1024 ≤ rounded |q| := by
    rw [hround]
    exact not_le.mpr hr.1
  unfold roundNonzero
  rw [dif_neg h0, dif_neg hov]
  split_ifs with hneg
  · exact finite_congr (by rw [hround, abs_of_neg hneg, neg_neg])
  · exact finite_congr (by rw [hround, abs_of_nonneg (not_lt.mp hneg)])

theorem round_zero (s : Bool) : round 0 s = zero s := if_pos rfl

theorem round_finite {q : ℚ} (hq : q ≠ 0) (hr : Representable q) (s : Bool) :
    round q s = finite q hq hr := by
  rw [round, if_neg hq, roundNonzero_of_representable hq hr]

/-- A zero or a finite number: what `isFinite` accepts. -/
inductive IsReal : Binary64 → Prop
  | zero (s : Bool) : IsReal (zero s)
  | finite (q : ℚ) (hq : q ≠ 0) (hr : Representable q) : IsReal (finite q hq hr)

theorem isReal_iff (x : Binary64) : IsReal x ↔ x.isFinite = true := by
  constructor
  · rintro (_ | _) <;> rfl
  · intro h
    cases x with
    | nan => exact Bool.noConfusion h
    | inf s => exact Bool.noConfusion h
    | zero s => exact .zero s
    | finite q hq hr => exact .finite q hq hr

theorem isReal_one : IsReal one := .finite _ _ _

@[simp] theorem toRat_zero (s : Bool) : (zero s).toRat = 0 := rfl

@[simp] theorem toRat_one : one.toRat = 1 := rfl

@[simp] theorem sign_one : one.sign = false := by decide

theorem one_mul_of_isReal {x : Binary64} (hx : IsReal x) : mul one x = x := by
  cases hx with
  | zero s =>
    show round (one.toRat * 0) (one.sign != s) = zero s
    rw [mul_zero, round_zero, sign_one, Bool.false_bne]
  | finite q hq hr =>
    simp only [mul, one, toRat, one_mul]
    exact round_finite hq hr _

theorem zero_mul_of_isReal {x : Binary64} (hx : IsReal x) : mul (zero false) x = zero x.sign := by
  cases hx with
  | zero s => simp [mul, toRat, sign, round_zero]
  | finite q hq hr => simp [mul, toRat, sign, round_zero]

theorem div_one_of_isReal {x : Binary64} (hx : IsReal x) : div x one = x := by
  cases hx with
  | zero s =>
    show round (0 / one.toRat) (s != one.sign) = zero s
    rw [zero_div, round_zero, sign_one, Bool.bne_false]
  | finite q hq hr =>
    simp only [div, one, toRat, div_one]
    exact round_finite hq hr _

theorem one_div_zero : div one (zero false) = inf false := by
  show inf (one.sign != false) = inf false
  rw [sign_one]
  rfl

theorem add_of_isReal {x y : Binary64} (hx : IsReal x) (hy : IsReal y)
    (h0 : x.toRat = 0 ∨ y.toRat = 0) : IsReal (add x y) ∧ (add x y).toRat = x.toRat + y.toRat := by
  cases hx with
  | zero s =>
    cases hy with
    | zero t => simp [add, toRat, round_zero, IsReal.zero]
    | finite q hq hr =>
      simp only [add, toRat, zero_add]
      rw [round_finite hq hr]
      exact ⟨.finite q hq hr, rfl⟩
  | finite q hq hr =>
    cases hy with
    | zero t =>
      simp only [add, toRat, add_zero]
      rw [round_finite hq hr]
      exact ⟨.finite q hq hr, rfl⟩
    | finite q' hq' hr' => simp [toRat, hq, hq'] at h0

theorem lt_of_isReal {x y : Binary64} (hx : IsReal x) (hy : IsReal y) :
    lt x y = decide (x.toRat < y.toRat) := by
  cases hx <;> cases hy <;> rfl

theorem le_of_isReal {x y : Binary64} (hx : IsReal x) (hy : IsReal y) :
    le x y = decide (x.toRat ≤ y.toRat) := by
  cases hx <;> cases hy <;> rfl

theorem beq_of_isReal {x y : Binary64} (hx : IsReal x) (hy : IsReal y) :
    beq x y = decide (x.toRat = y.toRat) := by
  cases hx <;> cases hy <;> rfl

/-- The value of a number in `[-∞, +∞]`; NaN is sent to `+∞`, but no comparison reads it. -/
def toExtended : Binary64 → WithBotTop ℚ
  | nan => ⊤
  | inf true => ⊥
  | inf false => ⊤
  | zero _ => ((0 : ℚ) : WithBotTop ℚ)
  | finite q _ _ => (q : WithBotTop ℚ)

/-- `<` is false with NaN and otherwise compares values in `[-∞, +∞]`. -/
theorem lt_iff {x y : Binary64} :
    x < y ↔ x ≠ nan ∧ y ≠ nan ∧ x.toExtended < y.toExtended := by
  rcases x with _ | ⟨_ | _⟩ | s | ⟨q, hq, hr⟩ <;> rcases y with _ | ⟨_ | _⟩ | t | ⟨q', hq', hr'⟩ <;>
    simp only [lt_def, lt, decide_eq_true_eq] <;>
    simp [toRat, toExtended, lt_top_iff_ne_top, bot_lt_iff_ne_bot]

theorem le_iff {x y : Binary64} :
    x ≤ y ↔ x ≠ nan ∧ y ≠ nan ∧ x.toExtended ≤ y.toExtended := by
  rcases x with _ | ⟨_ | _⟩ | s | ⟨q, hq, hr⟩ <;> rcases y with _ | ⟨_ | _⟩ | t | ⟨q', hq', hr'⟩ <;>
    simp only [le_def, le, decide_eq_true_eq] <;> simp [toRat, toExtended]

end Binary64

end RevisedSimplex
