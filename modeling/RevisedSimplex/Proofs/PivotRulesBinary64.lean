import Mathlib
import RevisedSimplex.Proofs.Binary64
import RevisedSimplex.Proofs.BlandRule
import RevisedSimplex.Factorization

/-! # The pivot rules in binary64

A binary64 comparison is false whenever NaN is involved, and otherwise compares the numbers as
their values in `[-∞, +∞]` do, both zeros at zero (`Binary64.lt_iff`, `Binary64.le_iff`). Apart
from NaN the numbers are thus totally preordered, and the two scans of an iteration read as in
exact arithmetic with NaN left out.

* The entering scan names a column exactly when some reduced cost is negative: the first column
  attaining the least reduced cost that is not NaN, with that reduced cost as its minimum. With
  none named its minimum is `+0`, where the running minimum starts.
* The ratio test returns a row exactly when some row has a positive entry in the entering column
  and a ratio below `+∞`: the first such row attaining the least of their ratios. Its running
  best starts at `+∞` and moves only on a strictly smaller ratio, so rows with an entry at most
  zero or NaN, or with a ratio `+∞` or NaN, never win, and on a tie the earlier row stays. Over
  a basis sorted ascending, as the method keeps it, that is the tied basic column of least index.
-/

namespace RevisedSimplex

namespace Binary64

variable {x y z : Binary64}

theorem ne_nan_of_lt (h : x < y) : x ≠ nan ∧ y ≠ nan := ⟨(lt_iff.mp h).1, (lt_iff.mp h).2.1⟩

protected theorem lt_irrefl (x : Binary64) : ¬ x < x := fun h => lt_irrefl _ (lt_iff.mp h).2.2

protected theorem lt_trans (h₁ : x < y) (h₂ : y < z) : x < z :=
  lt_iff.mpr ⟨(lt_iff.mp h₁).1, (lt_iff.mp h₂).2.1, (lt_iff.mp h₁).2.2.trans (lt_iff.mp h₂).2.2⟩

protected theorem lt_of_le_of_lt (h₁ : x ≤ y) (h₂ : y < z) : x < z :=
  lt_iff.mpr ⟨(le_iff.mp h₁).1, (lt_iff.mp h₂).2.1,
    (le_iff.mp h₁).2.2.trans_lt (lt_iff.mp h₂).2.2⟩

protected theorem lt_of_lt_of_le (h₁ : x < y) (h₂ : y ≤ z) : x < z :=
  lt_iff.mpr ⟨(lt_iff.mp h₁).1, (le_iff.mp h₂).2.1,
    (lt_iff.mp h₁).2.2.trans_le (le_iff.mp h₂).2.2⟩

protected theorem le_of_lt (h : x < y) : x ≤ y :=
  le_iff.mpr ⟨(lt_iff.mp h).1, (lt_iff.mp h).2.1, (lt_iff.mp h).2.2.le⟩

protected theorem le_refl (hx : x ≠ nan) : x ≤ x := le_iff.mpr ⟨hx, hx, le_rfl⟩

protected theorem le_of_not_lt (hx : x ≠ nan) (hy : y ≠ nan) (h : ¬ x < y) : y ≤ x :=
  le_iff.mpr ⟨hy, hx, not_lt.mp fun hlt => h (lt_iff.mpr ⟨hx, hy, hlt⟩)⟩

protected theorem lt_of_not_le (hx : x ≠ nan) (hy : y ≠ nan) (h : ¬ x ≤ y) : y < x :=
  lt_iff.mpr ⟨hy, hx, not_le.mp fun hle => h (le_iff.mpr ⟨hx, hy, hle⟩)⟩

theorem zero_ne_nan : (0 : Binary64) ≠ nan := Binary64.noConfusion

theorem neg_nonpos_of_nonneg (h : 0 ≤ x) : -x ≤ 0 ∧ -x ≠ nan := by
  rcases x with _ | ⟨_ | _⟩ | s | ⟨q, hq, hr⟩ <;>
    simp only [le_def, le, zero_def, neg_def, neg, decide_eq_true_eq] at h ⊢ <;>
    simp_all [toRat]

theorem belowInfinity_eq (x : Binary64) : Scalar.belowInfinity x = decide (x < inf false) := by
  rcases x with _ | ⟨_ | _⟩ | s | ⟨q, hq, hr⟩ <;> rfl

end Binary64

open Binary64

/-! ## The entering scan -/

/-- What the entering scan knows after reading the first `k` reduced costs of `rc`: none of them
is below its minimum; with no column named the minimum is `+0`; with column `j` named, `j` is
one of them, its reduced cost is the minimum and negative, and each earlier reduced cost is NaN
or above it. -/
structure Entering.Scanned {α : Type} [Scalar α] (rc : List α) (k : ℕ) (c : Entering α) : Prop
    where
  below : ∀ i < k, ∀ x, rc[i]? = some x → ¬ x < c.minReducedCost
  of_none : c.column = none → c.minReducedCost = 0
  of_some : ∀ j, c.column = some j → j < k ∧ rc[j]? = some c.minReducedCost ∧
    c.minReducedCost < 0 ∧ ∀ i < j, ∀ x, rc[i]? = some x → ¬ x ≤ c.minReducedCost

theorem selectEntering_append_singleton {α : Type} [Scalar α] (l : List α) (x : α) :
    selectEntering (l ++ [x]) =
      if x < (selectEntering l).minReducedCost then ⟨some l.length, x⟩ else selectEntering l := by
  simp only [selectEntering, List.zipIdx_append, List.foldl_append, List.zipIdx_cons,
    List.zipIdx_nil, List.foldl_cons, List.foldl_nil, Nat.zero_add]
  rfl

namespace Entering.Scanned

variable {rc : List Binary64} {k : ℕ} {c : Entering Binary64}

theorem minReducedCost_nonpos (h : c.Scanned rc k) : c.minReducedCost ≤ 0 := by
  cases hc : c.column with
  | none => rw [h.of_none hc]; exact Binary64.le_refl zero_ne_nan
  | some j => exact Binary64.le_of_lt (h.of_some j hc).2.2.1

theorem step (h : c.Scanned rc k) {x : Binary64} (hx : rc[k]? = some x) :
    (if x < c.minReducedCost then (⟨some k, x⟩ : Entering Binary64) else c).Scanned rc (k + 1) := by
  split_ifs with hlt
  · refine ⟨fun i hi y hy hyx => ?_, by simp, fun j hj => ?_⟩
    · rcases Nat.lt_succ_iff_lt_or_eq.mp hi with hi | rfl
      · exact h.below i hi y hy (Binary64.lt_trans hyx hlt)
      · obtain rfl : y = x := Option.some.inj (hy.symm.trans hx)
        exact Binary64.lt_irrefl y hyx
    · obtain rfl : k = j := Option.some.inj hj
      refine ⟨Nat.lt_succ_self k, hx, Binary64.lt_of_lt_of_le hlt h.minReducedCost_nonpos,
        fun i hi y hy hyx => ?_⟩
      exact h.below i hi y hy (Binary64.lt_of_le_of_lt hyx hlt)
  · refine ⟨fun i hi y hy => ?_, h.of_none, fun j hj => ?_⟩
    · rcases Nat.lt_succ_iff_lt_or_eq.mp hi with hi | rfl
      · exact h.below i hi y hy
      · obtain rfl : y = x := Option.some.inj (hy.symm.trans hx)
        exact hlt
    · obtain ⟨hjk, hrest⟩ := h.of_some j hj
      exact ⟨Nat.lt_succ_of_lt hjk, hrest⟩

theorem not_lt_of_mem (h : c.Scanned rc rc.length) {x : Binary64} (hx : x ∈ rc) :
    ¬ x < c.minReducedCost := by
  obtain ⟨i, hi⟩ := List.mem_iff_getElem?.mp hx
  exact h.below i (List.getElem?_eq_some_iff.mp hi).1 x hi

end Entering.Scanned

theorem scanned_selectEntering_take (rc : List Binary64) :
    ∀ k ≤ rc.length, (selectEntering (rc.take k)).Scanned rc k
  | 0, _ => ⟨fun i hi => absurd hi (Nat.not_lt_zero i), fun _ => rfl,
      fun j hj => absurd hj (by simp [selectEntering])⟩
  | k + 1, hk => by
    have hx : rc[k]? = some rc[k] := List.getElem?_eq_getElem (by omega)
    rw [List.take_add_one, hx, Option.toList_some, selectEntering_append_singleton,
      List.length_take_of_le (by omega)]
    exact (scanned_selectEntering_take rc k (by omega)).step hx

theorem scanned_selectEntering (rc : List Binary64) :
    (selectEntering rc).Scanned rc rc.length := by
  simpa using scanned_selectEntering_take rc rc.length le_rfl

namespace Entering.Scanned

variable {rc : List Binary64} {c : Entering Binary64} (h : c.Scanned rc rc.length)
include h

theorem exists_column_iff : (∃ j, c.column = some j) ↔ ∃ x ∈ rc, x < 0 := by
  constructor
  · rintro ⟨j, hj⟩
    obtain ⟨-, hrc, hneg, -⟩ := h.of_some j hj
    exact ⟨_, List.mem_of_getElem? hrc, hneg⟩
  · rintro ⟨x, hx, hneg⟩
    cases hc : c.column with
    | none =>
      have hbelow := h.not_lt_of_mem hx
      rw [h.of_none hc] at hbelow
      exact absurd hneg hbelow
    | some j => exact ⟨j, rfl⟩

theorem least {j : ℕ} (hj : c.column = some j) :
    (∀ x ∈ rc, x ≠ nan → c.minReducedCost ≤ x) ∧
      ∀ i < j, ∀ x, rc[i]? = some x → x ≠ nan → c.minReducedCost < x := by
  obtain ⟨-, -, hneg, hfirst⟩ := h.of_some j hj
  have hmin : c.minReducedCost ≠ nan := (ne_nan_of_lt hneg).1
  exact ⟨fun x hx hxn => Binary64.le_of_not_lt hxn hmin (h.not_lt_of_mem hx),
    fun i hi x hx hxn => Binary64.lt_of_not_le hxn hmin (hfirst i hi x hx)⟩

theorem accepted_eq_some_iff (tol : Binary64) (j : ℕ) :
    c.accepted tol = some j ↔ c.column = some j ∧ ∃ x, rc[j]? = some x ∧ x < -tol := by
  unfold Entering.accepted
  constructor
  · intro hacc
    split_ifs at hacc with hlt
    exact ⟨hacc, _, (h.of_some j hacc).2.1, hlt⟩
  · rintro ⟨hj, x, hx, hlt⟩
    obtain rfl : c.minReducedCost = x := Option.some.inj ((h.of_some j hj).2.1.symm.trans hx)
    rw [if_pos hlt, hj]

theorem not_lt_of_accepted_eq_none {tol : Binary64} (htol : 0 ≤ tol)
    (hacc : c.accepted tol = none) : ∀ x ∈ rc, ¬ x < -tol := by
  intro x hx hlt
  obtain ⟨hneg, hnan⟩ := neg_nonpos_of_nonneg htol
  apply h.not_lt_of_mem hx
  cases hc : c.column with
  | none => rw [h.of_none hc]; exact Binary64.lt_of_lt_of_le hlt hneg
  | some j =>
    have hnot : ¬ c.minReducedCost < -tol := fun hmin => by
      unfold Entering.accepted at hacc
      rw [if_pos hmin, hc] at hacc
      exact Option.some_ne_none j hacc
    have hmin : c.minReducedCost ≠ nan := (ne_nan_of_lt (h.of_some j hc).2.2.1).1
    exact Binary64.lt_of_lt_of_le hlt (Binary64.le_of_not_lt hmin hnan hnot)

end Entering.Scanned

/-- In binary64, with NaN and infinities among the reduced costs, the entering scan names a
column exactly when some reduced cost is negative. The column named is the first attaining the
least reduced cost that is not NaN, and the scan's minimum is that reduced cost, negative and so
not NaN; with no column named the minimum is `+0`. A column is accepted under a tolerance exactly
when it is named and its reduced cost is below `-tolerance`, so under a tolerance at least zero no
reduced cost is below `-tolerance` when none is accepted. -/
theorem selectEntering_first_least (rc : List Binary64) :
    ((∃ j, (selectEntering rc).column = some j) ↔ ∃ x ∈ rc, x < 0) ∧
    (∀ j, (selectEntering rc).column = some j →
      rc[j]? = some (selectEntering rc).minReducedCost ∧ (selectEntering rc).minReducedCost < 0 ∧
      (∀ x ∈ rc, x ≠ .nan → (selectEntering rc).minReducedCost ≤ x) ∧
      ∀ i < j, ∀ x, rc[i]? = some x → x ≠ .nan → (selectEntering rc).minReducedCost < x) ∧
    ((selectEntering rc).column = none → (selectEntering rc).minReducedCost = 0) ∧
    (∀ tol j, (selectEntering rc).accepted tol = some j ↔
      (selectEntering rc).column = some j ∧ ∃ x, rc[j]? = some x ∧ x < -tol) ∧
    ∀ tol, 0 ≤ tol → (selectEntering rc).accepted tol = none → ∀ x ∈ rc, ¬ x < -tol := by
  have h := scanned_selectEntering rc
  refine ⟨h.exists_column_iff, fun j hj => ?_, h.of_none, h.accepted_eq_some_iff,
    fun _ htol hacc => h.not_lt_of_accepted_eq_none htol hacc⟩
  obtain ⟨-, hrc, hneg, -⟩ := h.of_some j hj
  exact ⟨hrc, hneg, h.least hj⟩

/-- Reduced costs that are positive, NaN and `-0`: no column is accepted at tolerance zero, and
none is below `-0`. -/
theorem selectEntering_first_least_nonnegative :
    (selectEntering [one, nan, zero true]).accepted 0 = none ∧
      ∀ x ∈ [one, nan, zero true], ¬ x < -0 := by
  have hacc : (selectEntering [one, nan, zero true]).accepted 0 = none := by decide
  exact ⟨hacc, (selectEntering_first_least _).2.2.2.2 0 (by decide) hacc⟩

/-! ## The ratio test -/

namespace Factorization

variable {α : Type} [Scalar α]

/-- The ratio of row `i` in column `e`, as the ratio test forms it: the basic value over the
entry. -/
def rowRatio (f : Factorization α) (e i : ℕ) : α := f.basicSolution.getD i 0 / f.tableau.get i e

/-- Row `i` takes part in the binary64 ratio test on column `e`: its entry there is positive and
its ratio below `+∞`. So the entry is neither at most zero nor NaN, and the ratio neither `+∞` nor
NaN. -/
def Competes (f : Factorization Binary64) (e i : ℕ) : Prop :=
  0 < f.tableau.get i e ∧ f.rowRatio e i < inf false

/-- The best ratio so far, `+∞` before any row. -/
def bestRatio : Option (ℕ × Binary64) → Binary64
  | none => inf false
  | some (_, q) => q

theorem beats_eq (x : Binary64) (best : Option (ℕ × Binary64)) :
    beats x best = decide (x < bestRatio best) := by
  cases best with
  | none => exact belowInfinity_eq x
  | some b => rfl

variable (f : Factorization Binary64) (e : ℕ)

theorem ratioStep_best (best : Option (ℕ × Binary64)) (row : ℕ) :
    (ratioStep f e best row).1 =
      if 0 < f.tableau.get row e ∧ f.rowRatio e row < bestRatio best then
        some (row, f.rowRatio e row)
      else best := by
  unfold ratioStep
  simp only [beats_eq, rowRatio]
  split_ifs <;> simp_all

/-- What the ratio test knows after the first `k` rows: no row among them with a positive entry
has a ratio below the best; and a best row is one of them, competing, with its ratio, and every
earlier row with a positive entry has a ratio NaN or above it. -/
structure RatioScanned (k : ℕ) (best : Option (ℕ × Binary64)) : Prop where
  below : ∀ i < k, 0 < f.tableau.get i e → ¬ f.rowRatio e i < bestRatio best
  of_some : ∀ r q, best = some (r, q) → r < k ∧ f.Competes e r ∧ q = f.rowRatio e r ∧
    ∀ i < r, 0 < f.tableau.get i e → ¬ f.rowRatio e i ≤ q

variable {f e}

theorem RatioScanned.lt_inf_of_lt {k : ℕ} {best : Option (ℕ × Binary64)}
    (h : f.RatioScanned e k best) {x : Binary64} (hx : x < bestRatio best) : x < inf false := by
  cases best with
  | none => exact hx
  | some b =>
    obtain ⟨-, hc, hq, -⟩ := h.of_some b.1 b.2 rfl
    have hb : bestRatio (some b) = f.rowRatio e b.1 := hq
    exact Binary64.lt_trans (hb ▸ hx) hc.2

theorem RatioScanned.step {k : ℕ} {best : Option (ℕ × Binary64)} (h : f.RatioScanned e k best) :
    f.RatioScanned e (k + 1) (ratioStep f e best k).1 := by
  rw [ratioStep_best]
  split_ifs with hwin
  · obtain ⟨hpos, hlt⟩ := hwin
    refine ⟨fun i hi hposi hlti => ?_, fun r q hrq => ?_⟩
    · rcases Nat.lt_succ_iff_lt_or_eq.mp hi with hi | rfl
      · exact h.below i hi hposi (Binary64.lt_trans hlti hlt)
      · exact Binary64.lt_irrefl _ hlti
    · obtain ⟨rfl, rfl⟩ := Prod.mk.inj (Option.some.inj hrq)
      exact ⟨Nat.lt_succ_self _, ⟨hpos, h.lt_inf_of_lt hlt⟩, rfl,
        fun i hi hposi hle => h.below i hi hposi (Binary64.lt_of_le_of_lt hle hlt)⟩
  · refine ⟨fun i hi hposi => ?_, fun r q hrq => ?_⟩
    · rcases Nat.lt_succ_iff_lt_or_eq.mp hi with hi | rfl
      · exact h.below i hi hposi
      · exact fun hlt => hwin ⟨hposi, hlt⟩
    · obtain ⟨hrk, hrest⟩ := h.of_some r q hrq
      exact ⟨Nat.lt_succ_of_lt hrk, hrest⟩

theorem ratioTest_scanned (p : StandardForm Binary64) (f : Factorization Binary64) (e : ℕ) :
    ∃ best, f.RatioScanned e p.numConstraints best ∧ (ratioTest p f e).1 = best.map (·.1) := by
  refine ⟨_, ?_, rfl⟩
  refine Reference.Tableau.foldl_range_invariant
    (fun k (s : Option (ℕ × Binary64) × List (Event Binary64)) => f.RatioScanned e k s.1) _ _
    ⟨fun i hi => absurd hi (Nat.not_lt_zero i), fun r q h => absurd h (by simp)⟩ ?_
  intro k _ s hs
  exact hs.step

namespace RatioScanned

variable {m : ℕ} {best : Option (ℕ × Binary64)} (h : f.RatioScanned e m best)
include h

theorem exists_iff : (∃ r, best.map (·.1) = some r) ↔ ∃ i < m, f.Competes e i := by
  constructor
  · rintro ⟨r, hr⟩
    obtain ⟨⟨r', q⟩, hb, rfl⟩ := Option.map_eq_some_iff.mp hr
    obtain ⟨hrm, hc, -⟩ := h.of_some r' q hb
    exact ⟨r', hrm, hc⟩
  · rintro ⟨i, hi, hpos, hlt⟩
    cases best with
    | none => exact absurd hlt (h.below i hi hpos)
    | some b => exact ⟨b.1, rfl⟩

theorem least {r : ℕ} (hr : best.map (·.1) = some r) :
    r < m ∧ f.Competes e r ∧ (∀ i < m, f.Competes e i → f.rowRatio e r ≤ f.rowRatio e i) ∧
      ∀ i < r, f.Competes e i → f.rowRatio e r < f.rowRatio e i := by
  obtain ⟨⟨r', q'⟩, hb, rfl⟩ := Option.map_eq_some_iff.mp hr
  obtain ⟨hrm, hc, rfl, hfirst⟩ := h.of_some r' q' hb
  have hbest : bestRatio best = f.rowRatio e r' := by rw [hb]; rfl
  have hr' : f.rowRatio e r' ≠ nan := (ne_nan_of_lt hc.2).1
  refine ⟨hrm, hc, fun i hi hci => ?_, fun i hi hci => ?_⟩
  · have hnot := h.below i hi hci.1
    rw [hbest] at hnot
    exact Binary64.le_of_not_lt (ne_nan_of_lt hci.2).1 hr' hnot
  · exact Binary64.lt_of_not_le (ne_nan_of_lt hci.2).1 hr' (hfirst i hi hci.1)

end RatioScanned

end Factorization

theorem getD_le_getD_of_pairwise {idx : List ℕ} (hs : idx.Pairwise (· ≤ ·)) {r i : ℕ}
    (hri : r ≤ i) (hi : i < idx.length) : idx.getD r 0 ≤ idx.getD i 0 := by
  rw [List.getD_eq_getElem _ _ (by omega), List.getD_eq_getElem _ _ hi]
  rcases hri.lt_or_eq with hri | rfl
  · exact List.pairwise_iff_getElem.mp hs r i (by omega) hi hri
  · exact le_rfl

/-- In binary64, for every factorization of an `m`-row basis and every entering column, the
ratio test returns a row exactly when some row competes: its entry in the column is positive and
its ratio below `+∞` (a ratio `-∞` competes). The row returned competes, so neither its entry is
at most zero or NaN nor its ratio `+∞` or NaN; it attains the least ratio of the competing rows
and is the first to. Over basic columns sorted ascending, the basic column of the row returned
is the least among those of the rows that tie with it. -/
theorem ratioTest_first_least (p : StandardForm Binary64) (f : Factorization Binary64) (e : ℕ) :
    ((∃ r, (ratioTest p f e).1 = some r) ↔ ∃ i < p.numConstraints, f.Competes e i) ∧
    ∀ r, (ratioTest p f e).1 = some r →
      r < p.numConstraints ∧ f.Competes e r ∧
      (∀ i < p.numConstraints, f.Competes e i → f.rowRatio e r ≤ f.rowRatio e i) ∧
      (∀ i < r, f.Competes e i → f.rowRatio e r < f.rowRatio e i) ∧
      ∀ idx : List ℕ, idx.Pairwise (· ≤ ·) → idx.length = p.numConstraints →
        ∀ i < p.numConstraints, f.Competes e i → f.rowRatio e i ≤ f.rowRatio e r →
          idx.getD r 0 ≤ idx.getD i 0 := by
  obtain ⟨best, h, hbest⟩ := Factorization.ratioTest_scanned p f e
  rw [hbest]
  refine ⟨h.exists_iff, fun r hr => ?_⟩
  obtain ⟨hrm, hc, hmin, hfirst⟩ := h.least hr
  refine ⟨hrm, hc, hmin, hfirst, fun idx hs hlen i hi hci htie => ?_⟩
  have hri : r ≤ i := not_lt.mp fun hir =>
    Binary64.lt_irrefl _ (Binary64.lt_of_le_of_lt htie (hfirst i hir hci))
  exact getD_le_getD_of_pairwise hs hri (by omega)

/-- Six rows of one column: an entry zero, an entry NaN, a ratio `+∞`, a ratio NaN, and the
ratios `+0` and `-0`, which tie. -/
def signedZeroTie : Factorization Binary64 where
  inverse := ⟨[], 0⟩
  tableau := ⟨[[0], [nan], [one], [one], [one], [one]], 1⟩
  basicSolution := [one, one, inf false, nan, zero false, zero true]
  reducedCosts := []

/-- The six-row problem that `signedZeroTie` factorizes. -/
def sixRows : StandardForm Binary64 where
  constraints := ⟨[], 0⟩
  rhs := []
  costs := []
  numConstraints := 6
  numVariables := 0

/-- The ratio test passes over the zero and NaN entries and the ratios `+∞` and NaN, and keeps
the row of `+0` over the later row of `-0`, the smaller of the two basic columns. -/
theorem ratioTest_first_least_signedZeroTie :
    (ratioTest sixRows signedZeroTie 0).1 = some 4 ∧
      [1, 3, 5, 6, 7, 8].getD 4 0 ≤ [1, 3, 5, 6, 7, 8].getD 5 0 := by
  have hr : (ratioTest sixRows signedZeroTie 0).1 = some 4 := by decide +kernel
  have hc : signedZeroTie.Competes 0 5 := ⟨by decide, by decide +kernel⟩
  exact ⟨hr, ((ratioTest_first_least sixRows signedZeroTie 0).2 4 hr).2.2.2.2 _ (by decide) rfl 5
    (by decide) hc (by decide +kernel)⟩

end RevisedSimplex
