/-!
The numbers of the simplex method.

The methods in this library are written once for any `Scalar`: a type with the four
operations, negation, absolute value, comparisons and decimal literals. Binary floating point
is the instance that runs. Its comparisons are false when NaN is involved, `-0` is its negative
zero, and `belowInfinity` holds of everything except `+∞` and NaN. An exact field such as the
rationals is an instance too, with every number finite and below infinity, which is how the
methods are studied without rounding.

Main definitions: `Scalar`, its instance for `Float`, and `Scalar.sum`.
-/

namespace RevisedSimplex

/-- The arithmetic and order that the simplex methods ask of their numbers. -/
class Scalar (α : Type) where
  zero : α
  one : α
  add : α → α → α
  sub : α → α → α
  mul : α → α → α
  div : α → α → α
  neg : α → α
  abs : α → α
  /-- strictly below -/
  lt : α → α → Bool
  /-- at most -/
  le : α → α → Bool
  /-- equal as numbers (so `0` and `-0` are equal) -/
  beq : α → α → Bool
  /-- the number `m * 10 ^ e`, or `m * 10 ^ (-e)` when the flag is set -/
  ofScientific : Nat → Bool → Nat → α
  /-- below positive infinity -/
  belowInfinity : α → Bool
  /-- neither infinite nor NaN -/
  isFinite : α → Bool

namespace Scalar

variable {α : Type} [Scalar α]

instance : Add α := ⟨Scalar.add⟩
instance : Sub α := ⟨Scalar.sub⟩
instance : Mul α := ⟨Scalar.mul⟩
instance : Div α := ⟨Scalar.div⟩
instance : Neg α := ⟨Scalar.neg⟩
instance : OfNat α 0 := ⟨Scalar.zero⟩
instance : OfNat α 1 := ⟨Scalar.one⟩
instance : OfScientific α := ⟨Scalar.ofScientific⟩
instance : LT α := ⟨fun a b => Scalar.lt a b = true⟩
instance : LE α := ⟨fun a b => Scalar.le a b = true⟩
instance : BEq α := ⟨Scalar.beq⟩
instance (a b : α) : Decidable (a < b) := inferInstanceAs (Decidable (Scalar.lt a b = true))
instance (a b : α) : Decidable (a ≤ b) := inferInstanceAs (Decidable (Scalar.le a b = true))

/-- The sum of a list from left to right, starting from `-0`: the empty sum is `-0`, and a
sum of one number is that number, whatever the sign of its zero. -/
def sum (xs : List α) : α := xs.foldl (· + ·) (-0)

def larger (a b : α) : α := if a < b then b else a

end Scalar

instance : Scalar Float where
  zero := 0
  one := 1
  add := (· + ·)
  sub := (· - ·)
  mul := (· * ·)
  div := (· / ·)
  neg := (- ·)
  abs := Float.abs
  lt a b := decide (a < b)
  le a b := decide (a ≤ b)
  beq a b := a == b
  ofScientific := Float.ofScientific
  belowInfinity x := decide (x < 1 / 0)
  isFinite x := !x.isNaN && !x.isInf

end RevisedSimplex
