import Mathlib
import RevisedSimplex.Proofs.MatrixView
import RevisedSimplex.Basis

/-! # The augmented problem and its bases as matrices

The augmented problem is read as the matrix `A'`, the vector `b` and the costs `c'`. A basis,
a list `idx` of `m` distinct columns, gives the basis matrix `B` (column `k` is column `idx[k]`
of `A'`) and the basic costs `c_B`. Two maps pass between vectors over the basis and vectors
over all columns: `spread` puts entry `k` at column `idx[k]`, and `gather` reads it back. They
make the order of the basis irrelevant: `A' (spread w) = B w`, and `B` is nonsingular exactly
when no non-zero vector supported on the basis columns lies in the kernel of `A'`.
-/

open Matrix

namespace RevisedSimplex

namespace StandardForm

/-- The shapes `standardize` gives: `A'` has `m` rows of `n + m` entries, `b` has `m` entries and
`c'` has `n + m`. -/
structure Shaped {α : Type} (p : StandardForm α) : Prop where
  constraints : p.constraints.Shape p.numConstraints p.numColumns
  rhs : p.rhs.length = p.numConstraints
  costs : p.costs.length = p.numColumns

end StandardForm

theorem LinearProgram.shaped_standardize {α : Type} [Scalar α] (prog : LinearProgram α) :
    prog.standardize.Shaped where
  constraints :=
    { length_rows := by simp [LinearProgram.standardize, prog.rows_eq, LinearProgram.numConstraints]
      cols_eq := rfl
      length_row := by
        intro row hrow
        simp only [LinearProgram.standardize, List.mem_map] at hrow
        obtain ⟨⟨r, i⟩, hri, rfl⟩ := hrow
        have := prog.cols_eq r (List.fst_mem_of_mem_zipIdx hri)
        simp [this, StandardForm.numColumns, LinearProgram.standardize,
          LinearProgram.numVariables] }
  rhs := rfl
  costs := by
    simp [LinearProgram.standardize, StandardForm.numColumns, LinearProgram.numVariables]

theorem LinearProgram.get_standardize_slack {α : Type} [Scalar α] (prog : LinearProgram α)
    {i k : ℕ} (hi : i < prog.numConstraints) (hk : k < prog.numConstraints) :
    prog.standardize.constraints.get i (prog.numVariables + k) = if i = k then 1 else 0 := by
  have hi' : i < prog.constraints.length := by rw [prog.rows_eq]; exact hi
  have hlen := prog.cols_eq _ (List.getElem_mem hi')
  simp only [LinearProgram.standardize, Matrix.get, List.getD_eq_getElem?_getD]
  rw [List.getElem?_map, List.getElem?_zipIdx, List.getElem?_eq_getElem hi']
  simp [hlen, LinearProgram.numVariables, hk]

theorem LinearProgram.costs_standardize_slack {α : Type} [Scalar α] (prog : LinearProgram α)
    {k : ℕ} (hk : k < prog.numConstraints) :
    prog.standardize.costs.getD (prog.numVariables + k) 0 = 0 := by
  simp [LinearProgram.standardize, LinearProgram.numVariables, hk]

theorem StandardForm.shape_ofIndices {α : Type} [Scalar α] {p : StandardForm α} {idx : List ℕ}
    (hlen : idx.length = p.numConstraints) :
    (Basis.ofIndices p idx).matrix.Shape p.numConstraints p.numConstraints where
  length_rows := by simp [Basis.ofIndices]
  cols_eq := rfl
  length_row row hrow := by
    simp only [Basis.ofIndices, List.mem_map] at hrow
    obtain ⟨r, -, rfl⟩ := hrow
    simp [hlen]

/-- `idx` names `m` distinct columns among the first `N`. -/
structure DistinctColumns (m N : ℕ) (idx : List ℕ) : Prop where
  length_eq : idx.length = m
  nodup : idx.Nodup
  lt : ∀ j ∈ idx, j < N

namespace DistinctColumns

variable {m N : ℕ} {idx : List ℕ}

theorem lt_length (h : DistinctColumns m N idx) (k : Fin m) : (k : ℕ) < idx.length :=
  h.length_eq ▸ k.2

theorem getElem_lt (h : DistinctColumns m N idx) (k : Fin m) (hk : (k : ℕ) < idx.length) :
    idx[(k : ℕ)] < N :=
  h.lt _ (List.getElem_mem _)

def col (h : DistinctColumns m N idx) (k : Fin m) : Fin N :=
  have hk := h.lt_length k
  ⟨idx[(k : ℕ)], h.getElem_lt k hk⟩

theorem getElem?_eq_some_col (h : DistinctColumns m N idx) (k k' : Fin m) :
    idx[(k' : ℕ)]? = some (h.col k : ℕ) ↔ k' = k := by
  rw [List.getElem?_eq_getElem (h.length_eq ▸ k'.2), Option.some.injEq, col,
    h.nodup.getElem_inj_iff, Fin.ext_iff]

theorem col_injective (h : DistinctColumns m N idx) : Function.Injective h.col := by
  intro k k' hk
  exact (h.getElem?_eq_some_col k' k).mp (by rw [← hk, List.getElem?_eq_getElem]; rfl)

theorem mem_iff (h : DistinctColumns m N idx) (j : Fin N) : (j : ℕ) ∈ idx ↔ ∃ k, h.col k = j := by
  constructor
  · intro hj
    obtain ⟨k, hk, hkj⟩ := List.getElem_of_mem hj
    exact ⟨⟨k, h.length_eq ▸ hk⟩, Fin.ext hkj⟩
  · rintro ⟨k, rfl⟩
    exact List.getElem_mem _

theorem perm (h : DistinctColumns m N idx) {idx' : List ℕ} (hp : idx'.Perm idx) :
    DistinctColumns m N idx' :=
  ⟨hp.length_eq.trans h.length_eq, hp.nodup_iff.mpr h.nodup, fun j hj => h.lt j (hp.mem_iff.mp hj)⟩

theorem length_le_choose {L : List (List ℕ)} (hcols : ∀ idx ∈ L, DistinctColumns m N idx)
    (hL : L.Pairwise fun a b => ¬ a.Perm b) : L.length ≤ N.choose m := by
  have hnd : (L.map List.toFinset).Nodup := by
    refine List.pairwise_map.mpr (hL.imp_of_mem fun ha hb hne heq => hne ?_)
    exact List.perm_of_nodup_nodup_toFinset_eq (hcols _ ha).nodup (hcols _ hb).nodup heq
  have hsub : (L.map List.toFinset).toFinset ⊆ Finset.powersetCard m (Finset.range N) := by
    intro s hs
    obtain ⟨idx, hidx, rfl⟩ := List.mem_map.mp (List.mem_toFinset.mp hs)
    refine Finset.mem_powersetCard.mpr ⟨fun j hj => ?_, ?_⟩
    · exact Finset.mem_range.mpr ((hcols idx hidx).lt j (List.mem_toFinset.mp hj))
    · rw [List.toFinset_card_of_nodup (hcols idx hidx).nodup, (hcols idx hidx).length_eq]
  calc L.length = (L.map List.toFinset).toFinset.card := by
        rw [List.toFinset_card_of_nodup hnd, List.length_map]
    _ ≤ (Finset.powersetCard m (Finset.range N)).card := Finset.card_le_card hsub
    _ = N.choose m := by rw [Finset.card_powersetCard, Finset.card_range]

end DistinctColumns

/-- The vector over `N` columns with `w k` at column `idx[k]` and zero elsewhere. -/
def spread {m : ℕ} (N : ℕ) (idx : List ℕ) (w : Fin m → ℚ) : Fin N → ℚ :=
  fun j => ∑ k : Fin m, if idx[(k : ℕ)]? = some (j : ℕ) then w k else 0

def gather {N : ℕ} (m : ℕ) (idx : List ℕ) (x : Fin N → ℚ) : Fin m → ℚ :=
  fun k => ∑ j : Fin N, if idx[(k : ℕ)]? = some (j : ℕ) then x j else 0

/-- `x` is zero outside the columns `idx`. -/
def SupportedOn {N : ℕ} (x : Fin N → ℚ) (idx : List ℕ) : Prop := ∀ j : Fin N, (j : ℕ) ∉ idx → x j = 0

theorem SupportedOn.of_perm {N : ℕ} {x : Fin N → ℚ} {idx idx' : List ℕ} (h : SupportedOn x idx)
    (hp : idx.Perm idx') : SupportedOn x idx' :=
  fun j hj => h j (fun hm => hj (hp.mem_iff.mp hm))

namespace DistinctColumns

variable {m N : ℕ} {idx : List ℕ}

theorem spread_col (h : DistinctColumns m N idx) (w : Fin m → ℚ) (k : Fin m) :
    spread N idx w (h.col k) = w k := by
  rw [spread, Fintype.sum_eq_single k (fun k' hk' => if_neg ((h.getElem?_eq_some_col k k').not.mpr hk'))]
  rw [if_pos ((h.getElem?_eq_some_col k k).mpr rfl)]

theorem spread_of_not_mem (w : Fin m → ℚ) {j : Fin N} (hj : (j : ℕ) ∉ idx) :
    spread N idx w j = 0 := by
  refine Finset.sum_eq_zero fun k _ => if_neg fun hk => hj (List.mem_of_getElem? hk)

theorem supportedOn_spread (w : Fin m → ℚ) : SupportedOn (spread N idx w) idx :=
  fun _ hj => spread_of_not_mem w hj

theorem gather_apply (h : DistinctColumns m N idx) (x : Fin N → ℚ) (k : Fin m) :
    gather m idx x k = x (h.col k) := by
  rw [gather, Fintype.sum_eq_single (h.col k)]
  · rw [if_pos (by rw [List.getElem?_eq_getElem (h.length_eq ▸ k.2)]; rfl)]
  · intro j hj
    refine if_neg fun hk => hj ?_
    apply Fin.ext
    rw [List.getElem?_eq_getElem (h.length_eq ▸ k.2), Option.some.injEq] at hk
    exact hk.symm

theorem gather_spread (h : DistinctColumns m N idx) (w : Fin m → ℚ) :
    gather m idx (spread N idx w) = w := by
  funext k
  rw [h.gather_apply, h.spread_col]

theorem spread_gather (h : DistinctColumns m N idx) {x : Fin N → ℚ} (hx : SupportedOn x idx) :
    spread N idx (gather m idx x) = x := by
  funext j
  by_cases hj : (j : ℕ) ∈ idx
  · obtain ⟨k, rfl⟩ := (h.mem_iff j).mp hj
    rw [h.spread_col, h.gather_apply]
  · rw [spread_of_not_mem _ hj, hx j hj]

theorem spread_zero : spread N idx (0 : Fin m → ℚ) = 0 := by
  funext j
  simp [spread]

end DistinctColumns

namespace StandardForm

variable (p : StandardForm ℚ)

def constraintMatrix : RatMatrix p.numConstraints p.numColumns := toMat p.constraints _ _

def rhsVector : Fin p.numConstraints → ℚ := vecOf p.rhs _

def costVector : Fin p.numColumns → ℚ := vecOf p.costs _

/-- The basis matrix of the columns `idx`: its column `k` is column `idx[k]` of `A'`. -/
def basisMatrix (idx : List ℕ) : RatMatrix p.numConstraints p.numConstraints :=
  toMat (Basis.ofIndices p idx).matrix _ _

def basicCosts (idx : List ℕ) : Fin p.numConstraints → ℚ := vecOf (Basis.ofIndices p idx).costs _

/-- `y` is a feasible point: nonnegative and a solution of `A' y = b`. -/
def Feasible (y : Fin p.numColumns → ℚ) : Prop := 0 ≤ y ∧ p.constraintMatrix *ᵥ y = p.rhsVector

variable {p}

@[simp] theorem length_ofIndices_costs (idx : List ℕ) : (Basis.ofIndices p idx).costs.length = idx.length := by
  simp [Basis.ofIndices]

theorem basisMatrix_apply {idx : List ℕ} (h : DistinctColumns p.numConstraints p.numColumns idx)
    (r k : Fin p.numConstraints) : p.basisMatrix idx r k = p.constraintMatrix r (h.col k) := by
  simp [basisMatrix, constraintMatrix, Basis.ofIndices, Matrix.get, DistinctColumns.col,
    List.getElem?_eq_getElem (h.lt_length k)]

theorem basicCosts_apply {idx : List ℕ} (h : DistinctColumns p.numConstraints p.numColumns idx)
    (k : Fin p.numConstraints) : p.basicCosts idx k = p.costVector (h.col k) := by
  simp [basicCosts, costVector, Basis.ofIndices, DistinctColumns.col,
    List.getElem?_eq_getElem (h.lt_length k)]

theorem mulVec_spread {idx : List ℕ} (h : DistinctColumns p.numConstraints p.numColumns idx)
    (w : Fin p.numConstraints → ℚ) :
    p.constraintMatrix *ᵥ spread _ idx w = p.basisMatrix idx *ᵥ w := by
  funext r
  simp only [mulVec_apply_eq_sum, spread, Finset.mul_sum]
  rw [Finset.sum_comm]
  refine Finset.sum_congr rfl fun k _ => ?_
  rw [Fintype.sum_eq_single (h.col k), if_pos ((h.getElem?_eq_some_col k k).mpr rfl),
    basisMatrix_apply h]
  intro j hj
  rw [if_neg, mul_zero]
  intro hk
  apply hj
  apply Fin.ext
  rw [List.getElem?_eq_getElem (h.lt_length k), Option.some.injEq] at hk
  exact hk.symm

theorem costVector_dotProduct_spread {idx : List ℕ}
    (h : DistinctColumns p.numConstraints p.numColumns idx) (w : Fin p.numConstraints → ℚ) :
    p.costVector ⬝ᵥ spread _ idx w = p.basicCosts idx ⬝ᵥ w := by
  simp only [dotProduct, spread, Finset.mul_sum]
  rw [Finset.sum_comm]
  refine Finset.sum_congr rfl fun k _ => ?_
  rw [Fintype.sum_eq_single (h.col k), if_pos ((h.getElem?_eq_some_col k k).mpr rfl),
    basicCosts_apply h]
  intro j hj
  rw [if_neg, mul_zero]
  intro hk
  apply hj
  apply Fin.ext
  rw [List.getElem?_eq_getElem (h.lt_length k), Option.some.injEq] at hk
  exact hk.symm

theorem det_basisMatrix_ne_zero_iff {idx : List ℕ}
    (h : DistinctColumns p.numConstraints p.numColumns idx) :
    (p.basisMatrix idx).det ≠ 0 ↔
      ∀ x, SupportedOn x idx → p.constraintMatrix *ᵥ x = 0 → x = 0 := by
  constructor
  · intro hdet x hx hAx
    have hB : p.basisMatrix idx *ᵥ gather _ idx x = 0 := by
      rw [← mulVec_spread h, h.spread_gather hx, hAx]
    by_cases hg : gather p.numConstraints idx x = 0
    · rw [← h.spread_gather hx, hg, DistinctColumns.spread_zero]
    · exact absurd (exists_mulVec_eq_zero_iff.mp ⟨_, hg, hB⟩) hdet
  · intro hker hdet
    obtain ⟨w, hw, hBw⟩ := exists_mulVec_eq_zero_iff.mpr hdet
    apply hw
    rw [← h.gather_spread w, hker _ (DistinctColumns.supportedOn_spread w)
      (by rw [mulVec_spread h, hBw]), ← h.gather_spread 0, DistinctColumns.spread_zero]

theorem inv_mulVec_rhs {idx : List ℕ} (h : DistinctColumns p.numConstraints p.numColumns idx)
    (hdet : (p.basisMatrix idx).det ≠ 0) {x : Fin p.numColumns → ℚ} (hx : SupportedOn x idx)
    (hAx : p.constraintMatrix *ᵥ x = p.rhsVector) :
    (p.basisMatrix idx)⁻¹ *ᵥ p.rhsVector = gather _ idx x := by
  rw [← hAx, ← h.spread_gather hx, mulVec_spread h, h.gather_spread, mulVec_mulVec,
    nonsing_inv_mul _ (isUnit_iff_ne_zero.mpr hdet), one_mulVec]

theorem getD_foldl_set (L : List (ℕ × ℚ)) (hL : (L.map (·.1)).Nodup) (acc : List ℚ) {j : ℕ}
    (hj : j < acc.length) :
    (L.foldl (fun acc (e : ℕ × ℚ) => acc.set e.1 e.2) acc)[j]?.getD 0 =
      (if j ∈ L.map (·.1) then 0 else acc[j]?.getD 0) +
        (L.map fun e => if e.1 = j then e.2 else 0).sum := by
  induction L generalizing acc with
  | nil => simp
  | cons e L ih =>
    simp only [List.map_cons, List.nodup_cons] at hL
    rw [List.foldl_cons, ih hL.2 _ (by simpa using hj)]
    simp only [List.map_cons, List.sum_cons, List.getElem?_set]
    by_cases hje : e.1 = j
    · subst hje
      simp [hL.1, hj]
    · have hmem : j ∈ e.1 :: L.map (·.1) ↔ j ∈ L.map (·.1) := by
        simp [List.mem_cons, Ne.symm hje]
      simp only [hje, if_false, zero_add, if_congr hmem rfl rfl]

theorem length_foldl_set (L : List (ℕ × ℚ)) (acc : List ℚ) :
    (L.foldl (fun acc (e : ℕ × ℚ) => acc.set e.1 e.2) acc).length = acc.length := by
  induction L generalizing acc with
  | nil => rfl
  | cons e L ih => simp [ih]

theorem scatter_spec {m N : ℕ} (b : Basis ℚ) (h : DistinctColumns m N b.indices) {vals : List ℚ}
    (hv : vals.length = m) :
    (b.scatter vals N).length = N ∧ vecOf (b.scatter vals N) N = spread N b.indices (vecOf vals m) := by
  have hzip : ((b.indices.zip vals).map (·.1)).Nodup := by
    rw [List.map_fst_zip (by rw [h.length_eq, hv])]
    exact h.nodup
  refine ⟨by simp [Basis.scatter, length_foldl_set], ?_⟩
  funext j
  rw [vecOf_apply, Basis.scatter, getD_foldl_set _ hzip _ (by simp),
    sum_zip b.indices vals 0 0 _ (by rw [h.length_eq, hv]), h.length_eq,
    ← Fin.sum_univ_eq_sum_range (fun k => if b.indices[k]?.getD 0 = (j : ℕ) then vals[k]?.getD 0 else 0)]
  simp only [List.getElem?_replicate, j.2, if_true, Option.getD_some, ite_self, zero_add]
  refine Finset.sum_congr rfl fun k _ => ?_
  rw [List.getElem?_eq_getElem (h.lt_length k)]
  simp

end StandardForm

namespace LinearProgram

variable (prog : LinearProgram ℚ)

@[simp] theorem numConstraints_standardize {α : Type} [Scalar α] (prog : LinearProgram α) :
    prog.standardize.numConstraints = prog.numConstraints := rfl

@[simp] theorem rhs_standardize {α : Type} [Scalar α] (prog : LinearProgram α) :
    prog.standardize.rhs = prog.rhs := rfl

@[simp] theorem numVariables_standardize {α : Type} [Scalar α] (prog : LinearProgram α) :
    prog.standardize.numVariables = prog.numVariables := rfl

theorem initial_indices :
    (Basis.initial prog.standardize).indices =
      (List.range prog.numConstraints).map (prog.numVariables + ·) := rfl

theorem distinctColumns_initial :
    DistinctColumns prog.standardize.numConstraints prog.standardize.numColumns
      (Basis.initial prog.standardize).indices where
  length_eq := by simp [initial_indices]
  nodup := by
    rw [initial_indices]
    exact (List.nodup_range).map (fun a b h => by simpa using h)
  lt j hj := by
    simp only [initial_indices, List.mem_map, List.mem_range] at hj
    obtain ⟨k, hk, rfl⟩ := hj
    simp [StandardForm.numColumns, hk]

theorem basisMatrix_initial :
    prog.standardize.basisMatrix (Basis.initial prog.standardize).indices = 1 := by
  ext r k
  rw [StandardForm.basisMatrix_apply prog.distinctColumns_initial, one_apply]
  have hcol : ((prog.distinctColumns_initial.col k : Fin _) : ℕ) = prog.numVariables + k := by
    simp [DistinctColumns.col, initial_indices]
  simp only [StandardForm.constraintMatrix, toMat_apply, hcol]
  rw [get_standardize_slack prog (by simpa using r.2) (by simpa using k.2)]
  by_cases hrk : r = k
  · rw [if_pos hrk, if_pos (congrArg Fin.val hrk)]
  · rw [if_neg hrk, if_neg (Fin.val_ne_iff.mpr hrk)]

theorem basicCosts_initial :
    prog.standardize.basicCosts (Basis.initial prog.standardize).indices = 0 := by
  funext k
  rw [StandardForm.basicCosts_apply prog.distinctColumns_initial]
  have hcol : ((prog.distinctColumns_initial.col k : Fin _) : ℕ) = prog.numVariables + k := by
    simp [DistinctColumns.col, initial_indices]
  simp only [StandardForm.costVector, vecOf_apply, hcol, Pi.zero_apply]
  rw [← List.getD_eq_getElem?_getD, costs_standardize_slack prog (by simpa using k.2)]

end LinearProgram

end RevisedSimplex
