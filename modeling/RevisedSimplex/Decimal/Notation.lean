import RevisedSimplex.Decimal.Shortest
/-!
Writing a binary64 value as text.

A `Notation` holds the few decisions that tell one number printer from another. Which
exponents are written positionally, whether a whole number keeps `.0`, how a tie between two
shortest candidates is settled, and the texts of NaN and infinity. The digits themselves
always come from `Binary.shortest`; the layout puts the point inside, after or before them,
or writes `d.ddd` with an exponent `e-7`, where a positive exponent may carry its sign. Zero keeps its sign: `-0`.

Main definitions: `roundDiv`, `Binary.scaled`, `Notation.render`, `Notation.fixed`, and the four
notations the program writes: `plain`, `listed`, `scientific` and `json`.
-/

/-! ## A fixed number of decimal places

The exact binary value is scaled by `10^places` and rounded once to an integer; a half goes
as a `Tie` says. Nothing is taken from the shortest digits, so `0.35` (stored just below
`0.35`) rounds to `0.3` at one place. -/

namespace RevisedSimplex.Decimal

/-- `num / den` rounded to an integer; a half goes as `tie` says. -/
def roundDiv (num den : Nat) (tie : Tie) : Nat :=
  let q := num / den
  let r := num % den
  match compare (2 * r) den, tie with
  | .lt, _ => q
  | .gt, _ => q + 1
  | .eq, .up => q + 1
  | .eq, .toEven => if q % 2 == 0 then q else q + 1

/-- The magnitude times `10 ^ places`, rounded to an integer. -/
def Binary.scaled (x : Binary) (places : Nat) (tie : Tie) : Nat :=
  roundDiv (x.m * Nat.pow 2 x.q.toNat * Nat.pow 10 places) (Nat.pow 2 (-x.q).toNat) tie

end RevisedSimplex.Decimal

namespace RevisedSimplex.Decimal

/-- The layout decisions of a number printer. -/
structure Notation where
  /-- the exponent `e` of the leading digit is written positionally when
  `plainFrom ≤ e < plainBelow` -/
  plainFrom : Int
  plainBelow : Int
  /-- a whole number written positionally keeps `.0` -/
  pointZero : Bool
  /-- a positive exponent is written with its sign, `e+16` -/
  plusExponent : Bool
  /-- how a tie between two shortest candidates is settled -/
  tie : Tie
  /-- the text of NaN -/
  nan : String
  /-- the text of infinity, after its sign -/
  inf : String

def zeros (n : Nat) : String := String.ofList (List.replicate n '0')

def Notation.layout (f : Notation) (d : Decimal) : String :=
  let s := Nat.toDigits 10 d.digits
  let len := s.length
  let e : Int := d.exp + len - 1
  if f.plainFrom ≤ e ∧ e < f.plainBelow then
    if 0 ≤ d.exp then
      String.ofList s ++ zeros d.exp.toNat ++ (if f.pointZero then ".0" else "")
    else if 0 ≤ e then
      let whole := (e + 1).toNat
      String.ofList (s.take whole) ++ "." ++ String.ofList (s.drop whole)
    else
      "0." ++ zeros (-e - 1).toNat ++ String.ofList s
  else
    let rest := s.drop 1
    String.ofList (s.take 1) ++ (if rest.isEmpty then "" else "." ++ String.ofList rest) ++
      "e" ++ (if f.plusExponent ∧ 0 < e then "+" else "") ++ toString e

def signBit (x : Float) : Bool := x.toBits >>> 63 == 1

/-- The text of a value: NaN and infinity by their texts, all else by its shortest digits. -/
def Notation.render (f : Notation) (x : Float) : String :=
  if x.isNaN then f.nan
  else
    let sign := if signBit x then "-" else ""
    if x.isInf then sign ++ f.inf
    else sign ++ f.layout ((Binary.ofBits x.toBits).shortest f.tie)

/-- The value with `places` digits after the point, rounded from its exact binary value with
ties to even. A negative value that rounds to zero keeps its sign. -/
def Notation.fixed (f : Notation) (places : Nat) (x : Float) : String :=
  if x.isNaN then f.nan
  else
    let sign := if signBit x then "-" else ""
    if x.isInf then sign ++ f.inf
    else
      let n := (Binary.ofBits x.toBits).scaled places .toEven
      let s := Nat.toDigits 10 n
      let s := List.replicate (places + 1 - s.length) '0' ++ s
      let whole := s.length - places
      let body := if places = 0 then String.ofList s
        else String.ofList (s.take whole) ++ "." ++ String.ofList (s.drop whole)
      sign ++ body

def padLeft (width : Nat) (s : String) : String :=
  String.ofList (List.replicate (width - s.length) ' ') ++ s

/-- Running text: never an exponent, whole numbers without a point (`-36`, `0.0000001`,
`1e300` in all its digits). -/
def plain : Notation where
  plainFrom := -1000
  plainBelow := 1000
  pointZero := false
  plusExponent := false
  tie := .up
  nan := "NaN"
  inf := "inf"

/-- Numbers inside lists and dumps: positional from `1e-4` up to below `1e16`, else with an
exponent; whole numbers keep `.0` (`2.0`, `1e-5`, `1e16`). -/
def listed : Notation where
  plainFrom := -4
  plainBelow := 16
  pointZero := true
  plusExponent := false
  tie := .up
  nan := "NaN"
  inf := "inf"

/-- Always with an exponent (`0e0`, `1.5e0`, `1.4210854715202004e-14`). -/
def scientific : Notation where
  plainFrom := 0
  plainBelow := 0
  pointZero := false
  plusExponent := false
  tie := .up
  nan := "NaN"
  inf := "inf"

/-- Numbers in written JSON: positional from `1e-5` up to below `1e16`, whole numbers keep
`.0`, a positive exponent has its sign (`1e+16`, `1.5e-7`), and an exact tie goes to even. JSON has no NaN or infinity, so its writer spells them
`null` before this is reached. -/
def json : Notation where
  plainFrom := -5
  plainBelow := 16
  pointZero := true
  plusExponent := true
  tie := .toEven
  nan := "null"
  inf := "null"

end RevisedSimplex.Decimal
