import RevisedSimplex.Decimal.Shortest
/-!
Reading a decimal text as a binary64 value.

The accepted texts are an optional sign followed by `inf`, `infinity` or `nan` in any case,
or by a decimal `d+`, `d+.d*` or `.d+` with an optional exponent `[eE][+-]?d+`. Nothing else
is accepted, not even surrounding blanks. The value is the decimal rounded once to the nearest
double, ties to even. Decimals too large for a double become infinite and decimals too small
become zero, however long the exponent.

Main definitions: `readFloat?`, `Decimal.toFloat`.
-/

namespace RevisedSimplex.Decimal

def infinity : Float := 1 / 0

def notANumber : Float := 0 / 0

def digitsValue (ds : List Char) : Nat :=
  ds.foldl (fun acc d => 10 * acc + (d.toNat - '0'.toNat)) 0

def spanDigits (cs : List Char) : List Char × List Char :=
  (cs.takeWhile Char.isDigit, cs.dropWhile Char.isDigit)

/-- The decimal `mantissa * 10 ^ exp` rounded to the nearest double. A mantissa of `k` digits
with `exp + k > 310` is above every finite double, and with `exp + k < -330` it is below half
the least one; those are settled without computing the power. -/
def toFloat (mantissa : Nat) (exp : Int) : Float :=
  if mantissa = 0 then 0
  else
    let size := exp + digitCount mantissa
    if size > 310 then infinity
    else if size < -330 then 0
    else Float.ofScientific mantissa (decide (exp < 0)) exp.natAbs

def readExponent? : List Char → Option Int
  | [] => some 0
  | e :: rest =>
    if e = 'e' ∨ e = 'E' then
      let (neg, ds) := match rest with
        | '-' :: r => (true, r)
        | '+' :: r => (false, r)
        | r => (false, r)
      if ds.isEmpty ∨ ¬ ds.all Char.isDigit then none
      else
        let v : Int := digitsValue ds
        some (if neg then -v else v)
    else none

def readMagnitude? (body : List Char) : Option Float :=
  let word := String.ofList (body.map Char.toLower)
  if word == "inf" ∨ word == "infinity" then some infinity
  else if word == "nan" then some notANumber
  else
    let (whole, r1) := spanDigits body
    let (frac, r2) := match r1 with
      | '.' :: r => spanDigits r
      | r => ([], r)
    if whole.isEmpty ∧ frac.isEmpty then none
    else
      (readExponent? r2).map fun e =>
        toFloat (digitsValue (whole ++ frac)) (e - frac.length)

def readFloat? (s : String) : Option Float :=
  match s.toList with
  | '-' :: body => (readMagnitude? body).map (fun x => -x)
  | '+' :: body => readMagnitude? body
  | body => readMagnitude? body

end RevisedSimplex.Decimal
