/-!
The Jaro similarity of two strings, and the names that resemble a misspelt one.

Two characters match when they are equal, the second is not matched already, and they stand
at most `max(|a|, |b|) / 2 - 1` places apart; each character of `a` takes the first such
character of `b`. With `m` matches, of which `t` pairs are out of order (half the places where
the matched characters of `a` and of `b`, read in order, differ), the similarity is
`(m / |a| + m / |b| + (m - t) / m) / 3`, computed in that order in floating point. Two empty
strings are alike (`1`); an empty and a non-empty one are not (`0`).

A name resembles a word when their similarity exceeds `0.7`. `similarNames` lists the names that
resemble a word, least similar first, names equally similar in their given order.

Main definitions: `jaro`, `similarNames`.
-/

namespace RevisedSimplex.Text

/-- The state of matching the characters of one string against another: which characters of
the second are matched, and the matched characters of the first, last first. -/
structure Matching where
  taken : List Bool
  matched : List Char

def Matching.step (b : List Char) (reach : Nat) (st : Matching) (ic : Nat × Char) : Matching :=
  let (i, c) := ic
  let lo := i - reach
  let hi := min b.length (i + reach + 1)
  let free (j : Nat) : Bool := lo ≤ j && j < hi && b[j]? == some c && st.taken[j]? == some false
  match (List.range b.length).find? free with
  | some j => ⟨st.taken.set j true, c :: st.matched⟩
  | none => st

/-- The Jaro similarity of two strings. -/
def jaro (a b : String) : Float :=
  let as := a.toList
  let bs := b.toList
  if as.isEmpty && bs.isEmpty then 1
  else if as.isEmpty || bs.isEmpty then 0
  else
    let reach := max as.length bs.length / 2 - 1
    let st := (as.zipIdx.map fun (c, i) => (i, c)).foldl (Matching.step bs reach)
      ⟨List.replicate bs.length false, []⟩
    let fromA := st.matched.reverse
    let fromB := (bs.zip st.taken).filterMap fun (c, t) => if t then some c else none
    let m := fromA.length
    let t := ((fromA.zip fromB).filter fun (x, y) => x != y).length / 2
    if m = 0 then 0
    else
      (m.toFloat / as.length.toFloat + m.toFloat / bs.length.toFloat +
        (m - t).toFloat / m.toFloat) / 3

def resemblance : Float := 0.7

/-- The names that resemble `word`, least similar first; equally similar names keep their
order. -/
def similarNames (word : String) (names : List String) : List String :=
  let scored := (names.map fun n => (jaro word n, n)).filter fun (s, _) => resemblance < s
  (scored.mergeSort fun x y => x.1 ≤ y.1).map (·.2)

end RevisedSimplex.Text
