/-!
Shortest decimal digits of a binary64 value.

A finite double stands for the interval of reals that round to it: from halfway to the
neighbour below to halfway to the neighbour above, both ends included when the significand is
even. `Binary.shortest` searches the decimal grids `10^g` from the coarsest that can hold the
value downwards. On each grid only the two neighbours of the value can lie in the interval, so
the first grid with a neighbour inside gives the fewest digits. Of two neighbours inside, the
nearer wins, and an exact tie goes as a `Tie` says.

Main definitions: `Binary.ofBits`, `Binary.readsBack`, `Binary.shortest`.
-/

namespace RevisedSimplex

/-- A decimal `digits * 10 ^ exp`. -/
structure Decimal where
  digits : Nat
  exp : Int
deriving Repr, DecidableEq

namespace Decimal

/-- How an exact tie between two equally near candidates is settled. -/
inductive Tie where
  /-- the candidate with an even last digit -/
  | toEven
  /-- the candidate of larger magnitude -/
  | up
deriving Repr, DecidableEq

def digitCount (n : Nat) : Nat := (Nat.toDigits 10 n).length

def normalize (d : Decimal) : Decimal :=
  if h : d.digits ≠ 0 ∧ d.digits % 10 = 0 then
    normalize ⟨d.digits / 10, d.exp + 1⟩
  else d
termination_by d.digits
decreasing_by exact Nat.div_lt_self (Nat.pos_of_ne_zero h.1) (by decide)

/-- A finite non-negative binary64 magnitude `m * 2 ^ q`. -/
structure Binary where
  m : Nat
  q : Int
  /-- the gap to the value below is half the gap to the value above -/
  narrowBelow : Bool
deriving Repr

/-- The magnitude that finite bits stand for; the sign bit is ignored. NaN and the
infinities are no such value, so callers test for them first. -/
def Binary.ofBits (b : UInt64) : Binary :=
  let e := ((b >>> 52) &&& 0x7FF).toNat
  let f := (b &&& 0xFFFFFFFFFFFFF).toNat
  if e == 0 then ⟨f, -1074, false⟩ else ⟨Nat.pow 2 52 + f, (e : Int) - 1075, f == 0 && e > 1⟩

def cmpScaled (a : Nat) (i : Int) (n : Nat) (j : Int) : Ordering :=
  compare (a * Nat.pow 10 i.toNat * Nat.pow 2 (-j).toNat)
    (n * Nat.pow 2 j.toNat * Nat.pow 10 (-i).toNat)

/-- The decimal lies among the reals that round to `x` under rounding to nearest, ties to
even. The ends are `(4m - 2) 2^(q-2)` (or `4m - 1` below a power of two) and `(4m + 2) 2^(q-2)`. -/
def Binary.readsBack (x : Binary) (d : Decimal) : Bool :=
  let lo := if x.narrowBelow then 4 * x.m - 1 else 4 * x.m - 2
  let hi := 4 * x.m + 2
  let incl := x.m % 2 == 0
  let cl := cmpScaled d.digits d.exp lo (x.q - 2)
  let ch := cmpScaled d.digits d.exp hi (x.q - 2)
  (cl == .gt || (incl && cl == .eq)) && (ch == .lt || (incl && ch == .eq))

def Binary.scale (x : Binary) : Int :=
  if x.q ≥ 0 then digitCount (x.m * Nat.pow 2 x.q.toNat)
  else
    let p := (-x.q).toNat
    let whole := x.m / Nat.pow 2 p
    if whole > 0 then digitCount whole
    else 1 - (digitCount ((Nat.pow 2 p - 1) / x.m) : Int)

def Binary.over (x : Binary) (g : Int) : Nat × Nat :=
  (x.m * Nat.pow 2 x.q.toNat * Nat.pow 10 (-g).toNat,
    Nat.pow 2 (-x.q).toNat * Nat.pow 10 g.toNat)

def Binary.onGrid (x : Binary) (tie : Tie) (g : Int) : Option Decimal :=
  let (num, den) := x.over g
  let a := num / den
  let below : Decimal := ⟨a, g⟩
  let above : Decimal := ⟨a + 1, g⟩
  match x.readsBack below, x.readsBack above with
  | true, true =>
    match compare (2 * num) ((2 * a + 1) * den) with
    | .lt => some below
    | .gt => some above
    | .eq =>
      match tie with
      | .up => some above
      | .toEven => some (if a % 2 == 0 then below else above)
  | true, false => some below
  | false, true => some above
  | false, false => none

def Binary.exact (x : Binary) : Decimal :=
  if x.q ≥ 0 then ⟨x.m * Nat.pow 2 x.q.toNat, 0⟩
  else ⟨x.m * Nat.pow 5 (-x.q).toNat, x.q⟩

/-- The fewest significant digits that read back as `x`, without trailing zeros. Zero is
`0 * 10^0`. Seventeen digits always suffice; the exact value stands behind the search so that
the function is total without that fact. -/
def Binary.shortest (x : Binary) (tie : Tie) : Decimal :=
  if x.m = 0 then ⟨0, 0⟩
  else
    let k := x.scale
    match (List.range 17).findSome? (fun n => x.onGrid tie (k - ((n + 1 : Nat) : Int))) with
    | some d => normalize d
    | none => normalize x.exact

end Decimal

end RevisedSimplex
