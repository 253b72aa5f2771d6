import Mathlib
import RevisedSimplex.Matrix

/-! # Exact arithmetic

The rationals as a `Scalar`: every number is finite and below infinity, the operations are the
field's own and comparisons those of its order. Run on this instance the simplex methods
compute without rounding, which is how their correctness is stated.

The `Scalar` operations reach a proof through the instances that `Scalar` gives every type; the
simp lemmas here turn each of them into the rationals' own operation, and the list operations
of the methods (`Scalar.sum`, `dot`, `addScaled`, `subScaled`) into sums and entries.
-/

namespace RevisedSimplex

instance instScalarRat : Scalar ℚ where
  zero := 0
  one := 1
  add := (· + ·)
  sub := (· - ·)
  mul := (· * ·)
  div := (· / ·)
  neg := (- ·)
  abs := fun x => |x|
  lt a b := decide (a < b)
  le a b := decide (a ≤ b)
  beq a b := decide (a = b)
  ofScientific m s e := OfScientific.ofScientific m s e
  belowInfinity _ := true
  isFinite _ := true

namespace Scalar

@[simp] theorem add_rat (a b : ℚ) : @HAdd.hAdd ℚ ℚ ℚ (@instHAdd ℚ instAdd) a b = a + b := rfl
@[simp] theorem sub_rat (a b : ℚ) : @HSub.hSub ℚ ℚ ℚ (@instHSub ℚ instSub) a b = a - b := rfl
@[simp] theorem mul_rat (a b : ℚ) : @HMul.hMul ℚ ℚ ℚ (@instHMul ℚ instMul) a b = a * b := rfl
@[simp] theorem div_rat (a b : ℚ) : @HDiv.hDiv ℚ ℚ ℚ (@instHDiv ℚ instDiv) a b = a / b := rfl
@[simp] theorem neg_rat (a : ℚ) : @Neg.neg ℚ instNeg a = -a := rfl
@[simp] theorem zero_rat : @OfNat.ofNat ℚ 0 instOfNatOfNatNat = 0 := rfl
@[simp] theorem one_rat : @OfNat.ofNat ℚ 1 instOfNatOfNatNat_1 = 1 := rfl
@[simp] theorem abs_rat (a : ℚ) : Scalar.abs a = |a| := rfl
@[simp] theorem belowInfinity_rat (a : ℚ) : Scalar.belowInfinity a = true := rfl

@[simp] theorem lt_rat (a b : ℚ) : @LT.lt ℚ instLT a b ↔ a < b := decide_eq_true_iff

@[simp] theorem le_rat (a b : ℚ) : @LE.le ℚ instLE a b ↔ a ≤ b := decide_eq_true_iff

@[simp] theorem beq_rat (a b : ℚ) : @BEq.beq ℚ instBEq a b = decide (a = b) := rfl

theorem threshold_pos : (0 : ℚ) < @OfScientific.ofScientific ℚ instOfScientific 1 true 12 := by
  change (0 : ℚ) < OfScientific.ofScientific 1 true 12
  norm_num

@[simp] theorem sum_rat (xs : List ℚ) : Scalar.sum xs = xs.sum := by
  rw [Scalar.sum, List.sum_eq_foldl]
  simp

end Scalar

@[simp] theorem dot_rat (x y : List ℚ) : dot x y = (List.zipWith (· * ·) x y).sum := by
  simp [dot]

theorem dot_cons (a b : ℚ) (x y : List ℚ) : dot (a :: x) (b :: y) = a * b + dot x y := by
  simp

@[simp] theorem length_addScaled {α : Type} [Scalar α] (acc : List α) (s : α) (v : List α) :
    (addScaled acc s v).length = acc.length := by
  induction acc, s, v using addScaled.induct <;> simp_all [addScaled]

theorem getD_addScaled (acc : List ℚ) (s : ℚ) (v : List ℚ) {j : ℕ} (hj : j < acc.length) :
    (addScaled acc s v)[j]?.getD 0 = acc[j]?.getD 0 + s * v[j]?.getD 0 := by
  induction acc, s, v using addScaled.induct generalizing j with
  | case1 a as s v vs ih =>
    cases j with
    | zero => simp [addScaled]
    | succ j => simpa [addScaled] using ih (by simpa using hj)
  | case2 as s => simp [addScaled]
  | case3 s v vs => simp at hj

@[simp] theorem length_subScaled {α : Type} [Scalar α] (x : List α) (f : α) (p : List α) :
    (subScaled x f p).length = min x.length p.length := by
  simp [subScaled]

theorem Matrix.length_mulRow {α : Type} [Scalar α] (b : Matrix α) (row : List α) :
    (b.mulRow row).length = b.cols := by
  unfold Matrix.mulRow
  refine List.foldlRecOn (motive := fun acc : List α => acc.length = b.cols) _ _
    (List.length_replicate ..) fun acc hacc x _ => ?_
  dsimp only
  split_ifs
  · exact hacc
  · rw [length_addScaled, hacc]

theorem Matrix.length_vecMul_eq_cols {α : Type} [Scalar α] (a : Matrix α) (v : List α) :
    (a.vecMul v).length = a.cols := by
  unfold Matrix.vecMul
  refine List.foldlRecOn (motive := fun acc : List α => acc.length = a.cols) _ _
    (List.length_replicate ..) fun acc hacc x _ => ?_
  rw [length_addScaled, hacc]

theorem getD_subScaled {x p : List ℚ} (f : ℚ) {j : ℕ} (hx : j < x.length) (hp : j < p.length) :
    (subScaled x f p)[j]?.getD 0 = x[j]?.getD 0 - f * p[j]?.getD 0 := by
  simp [subScaled, hx, hp]

theorem exists_nonneg_add_mul_lt {ρ : ℚ} (hρ : ρ < 0) (a M : ℚ) :
    ∃ t : ℚ, 0 ≤ t ∧ a + t * ρ < M := by
  have hρ' : 0 < -ρ := neg_pos.mpr hρ
  refine ⟨|a - M| / -ρ + 1, add_nonneg (div_nonneg (abs_nonneg _) hρ'.le) zero_le_one, ?_⟩
  have hstep : (|a - M| / -ρ + 1) * ρ = -|a - M| + ρ := by
    calc (|a - M| / -ρ + 1) * ρ = -(|a - M| / -ρ * -ρ) + ρ := by ring
      _ = -|a - M| + ρ := by rw [div_mul_cancel₀ _ hρ'.ne']
  rw [hstep]
  linarith [le_abs_self (a - M)]

end RevisedSimplex
