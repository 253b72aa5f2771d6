import Mathlib
import RevisedSimplex.Proofs.Binary64
import RevisedSimplex.Proofs.IterationCap
import RevisedSimplex.Summary

/-! # The slack basis and the feasibility test

A run starts from the slack basis, whose matrix is the identity. Gauss–Jordan elimination of
the identity finds each pivot on the diagonal, divides the pivot row by `1` and skips every
other row, whose entry in the column is zero; so wherever `0` and `1` behave as they should
(`UnitArith`) the inverse is the identity itself, with no rounding (`Matrix.inverse_identity`),
for every number of rows, none included. The basic solution is the identity times `b`.

In binary64 each of its entries is exact: the dot product of a unit row with `b` adds zeros of
either sign to the one product `1 · b_i = b_i`, so it has the value of `b_i` (a `-0` may come
back as `+0`). A run then reports the program infeasible exactly when some `b_i < 0`, with `-0`
counted as non-negative (`slack_gate_binary64`).
-/

namespace RevisedSimplex

variable {α : Type} [Scalar α]

/-- What Gauss–Jordan elimination of the identity needs of the numbers: the pivot `1` has the
larger magnitude and is not below the singularity threshold, dividing by it changes neither
`0` nor `1`, and a zero entry is seen to be zero. -/
structure UnitArith (α : Type) [Scalar α] : Prop where
  abs_one : Scalar.abs (1 : α) = 1
  abs_zero : Scalar.abs (0 : α) = 0
  not_one_lt_zero : ¬ (1 : α) < 0
  not_one_lt_threshold : ¬ (1 : α) < 1e-12
  one_div_one : (1 : α) / 1 = 1
  zero_div_one : (0 : α) / 1 = 0
  zero_beq_zero : ((0 : α) == 0) = true

namespace Matrix

@[simp] theorem cols_identity (n : ℕ) : (identity n : Matrix α).cols = n := rfl

@[simp] theorem length_identity_rows (n : ℕ) : (identity n : Matrix α).rows.length = n := by
  simp [identity]

theorem identity_entry (n i j : ℕ) :
    ((identity n : Matrix α).rows.getD i []).getD j 0 = if i = j ∧ i < n then 1 else 0 := by
  by_cases hi : i < n
  · by_cases hj : j < n
    · simp [identity, List.getD_eq_getElem?_getD, hi, hj]
    · have hij : i ≠ j := by omega
      simp [identity, List.getD_eq_getElem?_getD, hi, hj, hij]
  · simp [identity, List.getD_eq_getElem?_getD, hi]

theorem identity_row {n i : ℕ} (hi : i < n) :
    (identity n : Matrix α).rows.getD i [] =
      (List.range n).map fun j => if i = j then 1 else 0 := by
  simp [identity, List.getD_eq_getElem?_getD, hi]

omit [Scalar α] in
theorem swapRows_self (rows : List (List α)) (i : ℕ) : swapRows rows i i = rows := by
  unfold swapRows
  by_cases hi : i < rows.length
  · rw [List.getD_eq_getElem _ _ hi, List.set_getElem_self, List.set_getElem_self]
  · rw [List.set_eq_of_length_le (not_lt.mp hi), List.set_eq_of_length_le (not_lt.mp hi)]

section Identity

variable (h : UnitArith α) {n col : ℕ}
include h

theorem pivotRow_identity (hcol : col < n) : pivotRow (identity n : Matrix α).rows col = col := by
  unfold pivotRow
  refine List.foldl_fixed' (fun r => ?_) _
  dsimp only
  by_cases hr : col = r
  · simp [hr]
  · refine if_neg ?_
    rw [identity_entry, identity_entry, if_pos ⟨rfl, hcol⟩, if_neg (fun h' => hr h'.1.symm),
      h.abs_one, h.abs_zero]
    exact h.not_one_lt_zero

theorem eliminate_identity (hcol : col < n) :
    eliminate col ((identity n : Matrix α).rows, (identity n : Matrix α).rows) =
      some ((identity n : Matrix α).rows, (identity n : Matrix α).rows) := by
  set I := (identity n : Matrix α).rows with hI
  have hp : pivotRow I col = col := pivotRow_identity h hcol
  have hpiv : (I.getD col []).getD col 0 = 1 := by
    rw [identity_entry, if_pos ⟨rfl, hcol⟩]
  -- dividing the pivot row by its pivot `1` changes none of its entries
  have hdiv : (I.getD col []).map (· / (1 : α)) = I.getD col [] := by
    rw [hI, identity_row hcol, List.map_map]
    refine List.map_congr_left fun j _ => ?_
    by_cases hj : col = j
    · simp [hj, h.one_div_one]
    · simp [hj, h.zero_div_one]
  -- every row is kept: the pivot row is itself after the division, the others have a zero
  have hkeep : ∀ F : (List α × List α) × ℕ → List α × List α,
      (∀ x ∈ (I.zip I).zipIdx, F x = x.1) → (I.zip I).zipIdx.map F = I.zip I := by
    intro F hF
    rw [List.map_congr_left hF, List.zipIdx_map_fst]
  simp only [eliminate, hp, swapRows_self, hpiv, h.abs_one, hdiv]
  rw [if_neg h.not_one_lt_threshold, hkeep, List.map_fst_zip le_rfl, List.map_snd_zip le_rfl]
  rintro ⟨⟨a, b⟩, k⟩ hx
  rw [List.mem_zipIdx_iff_getElem?, List.getElem?_zip_eq_some] at hx
  obtain ⟨ha, hb⟩ := hx
  dsimp only at ha hb ⊢
  obtain rfl : a = b := Option.some.inj (ha.symm.trans hb)
  have hrow : a = I.getD k [] := by rw [List.getD_eq_getElem?_getD, ha, Option.getD_some]
  by_cases hkc : k = col
  · rw [if_pos hkc, hrow, hkc]
  · have hz : a.getD col 0 = 0 := by rw [hrow, hI, identity_entry, if_neg (fun h' => hkc h'.1)]
    rw [if_neg hkc, hz, if_pos h.zero_beq_zero]

/-- Gauss–Jordan elimination inverts the identity to itself, for every size, zero included. -/
theorem inverse_identity (n : ℕ) : (identity n : Matrix α).inverse = some (identity n) := by
  have hfold : ∀ k ≤ n, (List.range k).foldlM (fun st col => eliminate col st)
      ((identity n : Matrix α).rows, (identity n : Matrix α).rows) =
        some ((identity n : Matrix α).rows, (identity n : Matrix α).rows) := by
    intro k hk
    induction k with
    | zero => rfl
    | succ k ih =>
      rw [List.range_succ, List.foldlM_append, ih (by omega)]
      simp [eliminate_identity h (by omega : k < n)]
  simp only [inverse, length_identity_rows, cols_identity, ne_eq, not_true_eq_false, if_false]
  rw [hfold n le_rfl, Option.map_some]
  rfl

end Identity

end Matrix

theorem LinearProgram.matrix_initial (prog : LinearProgram α) :
    (Basis.initial prog.standardize).matrix = Matrix.identity prog.numConstraints := by
  simp only [Basis.initial, Basis.ofIndices, Matrix.identity, numConstraints_standardize,
    Matrix.mk.injEq, and_true, List.map_map]
  refine List.map_congr_left fun r hr => List.map_congr_left fun k hk => ?_
  exact prog.get_standardize_slack (List.mem_range.mp hr) (List.mem_range.mp hk)

theorem LinearProgram.make?_eq_ok {c : List α} {a : List (List α)} {b : List α}
    {prog : LinearProgram α} (h : LinearProgram.make? c a b = .ok prog) :
    prog.objective = c ∧ prog.constraints = a ∧ prog.rhs = b ∧
      (∀ x ∈ c, Scalar.isFinite x = true) ∧ (∀ row ∈ a, ∀ x ∈ row, Scalar.isFinite x = true) ∧
      ∀ x ∈ b, Scalar.isFinite x = true := by
  unfold LinearProgram.make? at h
  split at h
  · split at h
    · cases h
    · split at h
      · cases h
      split at h
      · cases h
      split at h
      · cases h
      next hc ha hb =>
        cases h
        simp only [Bool.not_eq_true, Bool.not_eq_false', List.all_eq_true] at hc ha hb
        exact ⟨rfl, rfl, rfl, hc, ha, hb⟩
  · cases h

theorem LinearProgram.factorize_initial (h : UnitArith α) (prog : LinearProgram α) :
    ∃ f, factorize prog.standardize (Basis.initial prog.standardize) = some f ∧
      f.inverse = Matrix.identity prog.numConstraints ∧
      f.basicSolution = (Matrix.identity prog.numConstraints).mulVec prog.rhs := by
  rw [factorize, prog.matrix_initial, Matrix.inverse_identity h, Option.map_some]
  exact ⟨_, rfl, rfl, rfl⟩

namespace Solver

variable (s : Solver α)

theorem loop_ne_infeasible (p : StandardForm α) (L : ℕ) :
    ∀ F b f sol c ev, (s.loop p L F b f sol c ev).result ≠ .ok .infeasible := by
  intro F
  induction F with
  | zero =>
    intro b f sol c ev h
    cases h
  | succ F ih =>
    rintro b f ⟨vals, v⟩ c ev
    rw [loop_succ]
    dsimp only
    split
    · intro h; cases h
    · split
      · intro h; cases h
      · split
        · intro h; cases h
        · split
          · intro h; cases h
          · exact ih _ _ _ _ _

theorem run_infeasible_iff {prog : LinearProgram α} {f : Factorization α}
    (hf : factorize prog.standardize (Basis.initial prog.standardize) = some f) :
    ((s.run prog).result = .ok .infeasible ↔ f.isFeasible = false) ∧
      (f.isFeasible = false → (s.run prog).trace =
        [.initialized (Basis.initial prog.standardize).indices, .infeasible f.basicSolution]) := by
  simp only [Solver.run, hf]
  cases hfeas : f.isFeasible
  · simp
  · simp only [Bool.not_true, Bool.false_eq_true, if_false]
    exact ⟨iff_of_false (loop_ne_infeasible s _ _ _ _ _ _ _ _) (fun h => Bool.noConfusion h),
      fun h => Bool.noConfusion h⟩

end Solver

namespace Binary64

theorem unitArith : UnitArith Binary64 where
  abs_one := finite_congr abs_one
  abs_zero := rfl
  not_one_lt_zero := by
    rw [lt_def, one_def, zero_def, lt_of_isReal isReal_one (.zero false), toRat_one, toRat_zero]
    exact ne_true_of_eq_false (decide_eq_false (by norm_num))
  not_one_lt_threshold := by decide +kernel
  one_div_one := div_one_of_isReal isReal_one
  zero_div_one := div_one_of_isReal (.zero false)
  zero_beq_zero := rfl

theorem sum_eq_foldl (l : List Binary64) : Scalar.sum l = l.foldl add (zero true) := rfl

theorem foldl_add_of_toRat_eq_zero {l : List Binary64} (hl : ∀ x ∈ l, IsReal x ∧ x.toRat = 0)
    {acc : Binary64} (hacc : IsReal acc) :
    IsReal (l.foldl add acc) ∧ (l.foldl add acc).toRat = acc.toRat := by
  induction l generalizing acc with
  | nil => exact ⟨hacc, rfl⟩
  | cons x xs ih =>
    obtain ⟨hx, hx0⟩ := hl x List.mem_cons_self
    obtain ⟨hsum, hval⟩ := add_of_isReal hacc hx (.inr hx0)
    obtain ⟨hreal, hrat⟩ := ih (fun y hy => hl y (List.mem_cons_of_mem _ hy)) hsum
    exact ⟨hreal, by rw [List.foldl_cons, hrat, hval, hx0, add_zero]⟩

theorem dot_unitRow {v : List Binary64} (hv : ∀ x ∈ v, IsReal x) {i : ℕ} (hi : i < v.length) :
    IsReal (dot ((List.range v.length).map fun j => if i = j then 1 else 0) v) ∧
      (dot ((List.range v.length).map fun j => if i = j then 1 else 0) v).toRat = v[i].toRat := by
  set terms := List.zipWith (· * ·)
    ((List.range v.length).map fun j => if i = j then (1 : Binary64) else 0) v with hterms
  have hlen : terms.length = v.length := by simp [hterms]
  have hterm : ∀ j (hj : j < v.length),
      terms[j] = mul (if i = j then one else zero false) v[j] := by
    intro j hj
    simp [hterms]
  have hi' : i < terms.length := by omega
  have hzero : ∀ j (hj : j < terms.length), j ≠ i → IsReal terms[j] ∧ terms[j].toRat = 0 := by
    intro j hj hji
    rw [hterm j (by omega), if_neg (Ne.symm hji), zero_mul_of_isReal (hv _ (List.getElem_mem _))]
    exact ⟨.zero _, rfl⟩
  have hone : terms[i] = v[i] := by
    rw [hterm i hi, if_pos rfl, one_mul_of_isReal (hv _ (List.getElem_mem _))]
  have htake : ∀ x ∈ terms.take i, IsReal x ∧ x.toRat = 0 := by
    intro x hx
    obtain ⟨j, hj, rfl⟩ := List.mem_take_iff_getElem.mp hx
    exact hzero j (by omega) (by omega)
  have hdrop : ∀ x ∈ terms.drop (i + 1), IsReal x ∧ x.toRat = 0 := by
    intro x hx
    obtain ⟨j, hj, rfl⟩ := List.mem_drop_iff_getElem.mp hx
    exact hzero _ (by omega) (by omega)
  have hsplit : terms = terms.take i ++ terms[i] :: terms.drop (i + 1) := by
    rw [← List.drop_eq_getElem_cons hi', List.take_append_drop]
  obtain ⟨h₁, hv₁⟩ := foldl_add_of_toRat_eq_zero htake (.zero true)
  obtain ⟨h₂, hv₂⟩ := add_of_isReal h₁ (hone ▸ hv _ (List.getElem_mem hi))
    (.inl (by rw [hv₁, toRat_zero]))
  obtain ⟨h₃, hv₃⟩ := foldl_add_of_toRat_eq_zero hdrop h₂
  rw [dot, ← hterms, hsplit, sum_eq_foldl, List.foldl_append, List.foldl_cons]
  exact ⟨h₃, by rw [hv₃, hv₂, hv₁, hone, toRat_zero, zero_add]⟩

/-- Two zeros or finite numbers of one value; `-0` and `+0` have the same value. -/
def SameValue (x y : Binary64) : Prop := IsReal x ∧ IsReal y ∧ x.toRat = y.toRat

theorem SameValue.beq {x y : Binary64} (h : SameValue x y) : (x == y) = true := by
  obtain ⟨hx, hy, hxy⟩ := h
  rw [beq_def, beq_of_isReal hx hy, hxy]
  exact decide_eq_true rfl

theorem SameValue.nonneg_iff {x y : Binary64} (h : SameValue x y) : 0 ≤ x ↔ ¬ y < 0 := by
  obtain ⟨hx, hy, hxy⟩ := h
  rw [le_def, lt_def, zero_def, le_of_isReal (.zero false) hx, lt_of_isReal hy (.zero false),
    toRat_zero, hxy]
  simp

theorem all_nonneg_eq_false_iff {xs ys : List Binary64} (h : List.Forall₂ SameValue xs ys) :
    xs.all (fun x => decide (0 ≤ x)) = false ↔ ∃ y ∈ ys, y < 0 := by
  induction h with
  | nil => simp
  | cons hxy _ ih =>
    rw [List.all_cons, Bool.and_eq_false_iff, ih, decide_eq_false_iff_not, hxy.nonneg_iff,
      not_not]
    simp only [List.mem_cons, exists_eq_or_imp]

theorem forall₂_mulVec_identity {v : List Binary64} (hv : ∀ x ∈ v, IsReal x) :
    List.Forall₂ SameValue ((Matrix.identity v.length).mulVec v) v := by
  rw [List.forall₂_iff_get]
  refine ⟨by simp [Matrix.mulVec, Matrix.identity], fun i h₁ h₂ => ?_⟩
  simp only [List.get_eq_getElem, Matrix.mulVec, Matrix.identity, List.getElem_map,
    List.getElem_range]
  obtain ⟨hreal, hval⟩ := dot_unitRow hv h₂
  exact ⟨hreal, hv _ (List.getElem_mem h₂), hval⟩

/-- In binary64, for every checked program and every setting of the solver, the slack basis
is inverted to the identity exactly (for no rows too), its basic solution has the values of `b`
entry by entry, and the run reports the program infeasible exactly when some `b_i < 0`; `-0`
counts as non-negative. An infeasible run records the slack basis `n, …, n + m - 1` and its
basic solution, nothing else, and its record has no iterations, no values, no reduced costs
and the value `+∞`. -/
theorem slack_gate_binary64 {c : List Binary64} {a : List (List Binary64)} {b : List Binary64}
    {prog : LinearProgram Binary64} (hprog : LinearProgram.make? c a b = .ok prog)
    (s : Solver Binary64) :
    (Basis.initial prog.standardize).matrix.inverse = some (Matrix.identity b.length) ∧
    ∃ f, factorize prog.standardize (Basis.initial prog.standardize) = some f ∧
      List.Forall₂ (fun x y => (x == y) = true) f.basicSolution b ∧
      ((s.run prog).result = .ok .infeasible ↔ ∃ x ∈ b, x < 0) ∧
      ((s.run prog).result = .ok .infeasible →
        (s.run prog).trace =
          [.initialized ((List.range b.length).map (c.length + ·)), .infeasible f.basicSolution] ∧
        (Outcome.infeasible : Outcome Binary64).summary c.length =
          ⟨.infeasible, .inf false, [], [], 0, c.length⟩) ∧
      ((∀ x ∈ b, 0 ≤ x) → (s.run prog).result ≠ .ok .infeasible) := by
  obtain ⟨rfl, -, rfl, -, -, hfin⟩ := LinearProgram.make?_eq_ok hprog
  have hreal : ∀ x ∈ prog.rhs, IsReal x := fun x hx => (isReal_iff x).mpr (hfin x hx)
  obtain ⟨f, hf, -, hsol⟩ := prog.factorize_initial unitArith
  have hsame : List.Forall₂ SameValue f.basicSolution prog.rhs :=
    hsol ▸ forall₂_mulVec_identity hreal
  obtain ⟨hiff, htrace⟩ := s.run_infeasible_iff hf
  -- the run's test of the slack basis is the sign test of `b`
  have hneg : (s.run prog).result = .ok .infeasible ↔ ∃ x ∈ prog.rhs, x < 0 :=
    hiff.trans (all_nonneg_eq_false_iff hsame)
  refine ⟨by rw [prog.matrix_initial]; exact Matrix.inverse_identity unitArith _, f, hf,
    hsame.imp fun _ _ => SameValue.beq, hneg, fun h => ⟨htrace (hiff.mp h), ?_⟩, fun hnn h => ?_⟩
  · show (⟨.infeasible, 1 / 0, [], [], 0, _⟩ : Summary Binary64) = _
    rw [div_def, one_def, zero_def, one_div_zero]
  · obtain ⟨x, hx, hlt⟩ := hneg.mp h
    exact (SameValue.nonneg_iff ⟨hreal x hx, hreal x hx, rfl⟩).mp (hnn x hx) hlt

/-- One unit of a good to be made on a budget of `-1`: no plan meets it. -/
def negativeBudget : LinearProgram Binary64 where
  objective := [1]
  constraints := [[1]]
  rhs := [-1]
  rows_eq := rfl
  cols_eq := by simp

theorem slack_gate_negativeBudget :
    LinearProgram.make? [1] [[1]] [-1] = .ok negativeBudget ∧
      ((Solver.default : Solver Binary64).run negativeBudget).result = .ok .infeasible := by
  have hmake : LinearProgram.make? [1] [[1]] [-1] = .ok negativeBudget := rfl
  obtain ⟨-, _, -, -, hiff, -⟩ := slack_gate_binary64 hmake Solver.default
  exact ⟨hmake, hiff.mpr ⟨-1, List.mem_singleton_self _, by decide⟩⟩

end Binary64

end RevisedSimplex
