import Mathlib
import RevisedSimplex.Scalar

/-!
IEEE 754 binary64 arithmetic with rounding to nearest, ties to even: the numbers of the program,
as a `Scalar` whose operations can be reasoned about.

A binary64 number is NaN, an infinity or a zero of either sign, or a finite non-zero number
`±m · 2^e` with `m < 2^53`, `e ≥ -1074` and magnitude below `2^1024`, kept as its exact value.
Each operation computes the exact result and rounds it: the significand is the magnitude over
`2^q`, rounded half to even, where the quantum `q` is the exponent of the leading bit less 52,
and at least `-1074`. A result that rounds to `2^1024` or more overflows to an infinity, and one
that rounds to zero is a zero of its sign. An exact zero sum is `+0` unless both terms are `-0`;
products and quotients take the exclusive or of the signs. NaN propagates; `∞ - ∞`, `0 · ∞`,
`0 / 0` and `∞ / ∞` are NaN, and a non-zero number over zero is an infinity. Comparisons with
NaN are false, and `-0` equals `+0`. The payload of a NaN is not kept.

Main definitions: `Representable`, `Binary64`, `Binary64.round`, and the `Scalar` instance.
-/

namespace RevisedSimplex

/-- The magnitudes of the finite non-zero binary64 numbers: `m · 2^e` with `m < 2^53` and
`e ≥ -1074`, below `2^1024`. -/
def Representable (q : ℚ) : Prop :=
  |q| < 2 ^ 1024 ∧ ∃ m : ℕ, ∃ e : ℤ, m < 2 ^ 53 ∧ -1074 ≤ e ∧ |q| = m * 2 ^ e

/-- An IEEE 754 binary64 number. -/
inductive Binary64 where
  | nan
  | inf (neg : Bool)
  | zero (neg : Bool)
  | finite (q : ℚ) (ne_zero : q ≠ 0) (representable : Representable q)

namespace Binary64

def roundHalfEven (x : ℚ) : ℕ :=
  if x - ⌊x⌋₊ < 1 / 2 then ⌊x⌋₊
  else if 1 / 2 < x - ⌊x⌋₊ then ⌊x⌋₊ + 1
  else if ⌊x⌋₊ % 2 = 0 then ⌊x⌋₊ else ⌊x⌋₊ + 1

def quantum (a : ℚ) : ℤ := max (Int.log 2 a - 52) (-1074)

def significand (a : ℚ) : ℕ := roundHalfEven (a / 2 ^ quantum a)

def rounded (a : ℚ) : ℚ := significand a * 2 ^ quantum a

theorem roundHalfEven_le_floor_add_one (x : ℚ) : roundHalfEven x ≤ ⌊x⌋₊ + 1 := by
  unfold roundHalfEven
  split_ifs <;> omega

theorem div_two_pow_quantum_lt (a : ℚ) : a / 2 ^ quantum a < 2 ^ 53 := by
  have hlog : a < 2 ^ (Int.log 2 a + 1) := by
    exact_mod_cast Int.lt_zpow_succ_log_self (b := 2) (by norm_num) a
  have hq : (2 : ℚ) ^ (Int.log 2 a + 1) ≤ 2 ^ (quantum a + 53) :=
    zpow_le_zpow_right₀ one_le_two (by unfold quantum; omega)
  rw [div_lt_iff₀ (zpow_pos two_pos _)]
  calc a < 2 ^ (quantum a + 53) := hlog.trans_le hq
    _ = 2 ^ 53 * 2 ^ quantum a := by rw [zpow_add₀ two_ne_zero, mul_comm]; norm_cast

theorem significand_le {a : ℚ} (ha : 0 ≤ a) : significand a ≤ 2 ^ 53 := by
  rcases ha.lt_or_eq with ha | rfl
  · have hfloor : ⌊a / 2 ^ quantum a⌋₊ < 2 ^ 53 :=
      (Nat.floor_lt (div_nonneg ha.le (zpow_nonneg zero_le_two _))).mpr
        (by exact_mod_cast div_two_pow_quantum_lt a)
    have := roundHalfEven_le_floor_add_one (a / 2 ^ quantum a)
    unfold significand
    omega
  · simp [significand, roundHalfEven]

theorem representable_rounded {a : ℚ} (ha : 0 ≤ a) (h0 : significand a ≠ 0)
    (hlt : rounded a < 2 ^ 1024) : Representable (rounded a) := by
  have hnn : 0 ≤ rounded a := by unfold rounded; positivity
  have hq : -1074 ≤ quantum a := le_max_right _ _
  rw [Representable, abs_of_nonneg hnn]
  refine ⟨hlt, ?_⟩
  rcases (significand_le ha).lt_or_eq with hm | hm
  · exact ⟨significand a, quantum a, hm, hq, rfl⟩
  · -- a significand of `2^53` is `2^52` at the next quantum
    refine ⟨2 ^ 52, quantum a + 1, by norm_num, by omega, ?_⟩
    rw [rounded, hm, zpow_add₀ two_ne_zero]
    push_cast
    ring

theorem rounded_ne_zero {a : ℚ} (h0 : significand a ≠ 0) : rounded a ≠ 0 :=
  mul_ne_zero (Nat.cast_ne_zero.mpr h0) (zpow_ne_zero _ two_ne_zero)

def roundNonzero (q : ℚ) : Binary64 :=
  if h0 : significand |q| = 0 then zero (decide (q < 0))
  else if hov : (2 : ℚ) ^ 1024 ≤ rounded |q| then inf (decide (q < 0))
  else if hneg : q < 0 then
    finite (-rounded |q|) (neg_ne_zero.mpr (rounded_ne_zero h0))
      (by simpa [Representable, abs_neg] using
        representable_rounded (abs_nonneg q) h0 (not_le.mp hov))
  else finite (rounded |q|) (rounded_ne_zero h0)
      (representable_rounded (abs_nonneg q) h0 (not_le.mp hov))

def round (q : ℚ) (zeroNeg : Bool) : Binary64 :=
  if q = 0 then zero zeroNeg else roundNonzero q

def sign : Binary64 → Bool
  | nan => false
  | inf s => s
  | zero s => s
  | finite q _ _ => decide (q < 0)

def toRat : Binary64 → ℚ
  | finite q _ _ => q
  | _ => 0

def neg : Binary64 → Binary64
  | nan => nan
  | inf s => inf !s
  | zero s => zero !s
  | finite q h hr => finite (-q) (neg_ne_zero.mpr h) (by simpa [Representable, abs_neg] using hr)

def abs : Binary64 → Binary64
  | nan => nan
  | inf _ => inf false
  | zero _ => zero false
  | finite q h hr => finite |q| (abs_ne_zero.mpr h) (by simpa [Representable, abs_abs] using hr)

def add : Binary64 → Binary64 → Binary64
  | nan, _ => nan
  | _, nan => nan
  | inf s, inf t => if s = t then inf s else nan
  | inf s, _ => inf s
  | _, inf t => inf t
  | x, y => round (x.toRat + y.toRat) (x.sign && y.sign)

def mul : Binary64 → Binary64 → Binary64
  | nan, _ => nan
  | _, nan => nan
  | inf _, zero _ => nan
  | zero _, inf _ => nan
  | inf s, y => inf (s != y.sign)
  | x, inf t => inf (x.sign != t)
  | x, y => round (x.toRat * y.toRat) (x.sign != y.sign)

def div : Binary64 → Binary64 → Binary64
  | nan, _ => nan
  | _, nan => nan
  | inf _, inf _ => nan
  | zero _, zero _ => nan
  | inf s, y => inf (s != y.sign)
  | x, inf t => zero (x.sign != t)
  | x, zero t => inf (x.sign != t)
  | x, y => round (x.toRat / y.toRat) (x.sign != y.sign)

def lt : Binary64 → Binary64 → Bool
  | nan, _ => false
  | _, nan => false
  | inf s, inf t => s && !t
  | inf s, _ => s
  | _, inf t => !t
  | x, y => decide (x.toRat < y.toRat)

def le : Binary64 → Binary64 → Bool
  | nan, _ => false
  | _, nan => false
  | inf s, inf t => s || !t
  | inf s, _ => s
  | _, inf t => !t
  | x, y => decide (x.toRat ≤ y.toRat)

def beq : Binary64 → Binary64 → Bool
  | nan, _ => false
  | _, nan => false
  | inf s, inf t => s == t
  | inf _, _ => false
  | _, inf _ => false
  | x, y => decide (x.toRat = y.toRat)

def ofScientific (m : ℕ) (s : Bool) (e : ℕ) : Binary64 :=
  round (if s then (m : ℚ) / 10 ^ e else (m : ℚ) * 10 ^ e) false

def belowInfinity : Binary64 → Bool
  | nan => false
  | inf s => s
  | _ => true

def isFinite : Binary64 → Bool
  | zero _ => true
  | finite _ _ _ => true
  | _ => false

theorem representable_one : Representable 1 :=
  ⟨by rw [abs_one]; exact one_lt_pow₀ one_lt_two (by norm_num), 1, 0, by norm_num, by norm_num,
    by norm_num⟩

def one : Binary64 := finite 1 one_ne_zero representable_one

end Binary64

instance : Scalar Binary64 where
  zero := .zero false
  one := .one
  add := Binary64.add
  sub x y := Binary64.add x (Binary64.neg y)
  mul := Binary64.mul
  div := Binary64.div
  neg := Binary64.neg
  abs := Binary64.abs
  lt := Binary64.lt
  le := Binary64.le
  beq := Binary64.beq
  ofScientific := Binary64.ofScientific
  belowInfinity := Binary64.belowInfinity
  isFinite := Binary64.isFinite

end RevisedSimplex
