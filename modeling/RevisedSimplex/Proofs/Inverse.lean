import Mathlib
import RevisedSimplex.Proofs.MatrixView

/-! # Gauss–Jordan inversion is exact

Over the rationals, `Matrix.inverse` returns a two-sided inverse whenever it returns at all.
The elimination is followed column by column with one invariant (`Eliminated`): the rows built
for the inverse, times the input, are the rows being reduced, and the columns already processed
are those of the identity. A column's pivot row is swapped into place and scaled, and every
other row loses a multiple of it; both sides undergo the same row operations, so the product
relation survives. After the last column the reduced rows are the identity, and the rows built
form a left inverse, hence an inverse.
-/

open Matrix

namespace RevisedSimplex

namespace Matrix

variable {n : ℕ}

def rowVec (rows : List (List ℚ)) (n i : ℕ) : Fin n → ℚ := vecOf (rows[i]?.getD []) n

theorem toMat_row (rows : List (List ℚ)) (i : Fin n) :
    toMat ⟨rows, n⟩ n n i = rowVec rows n i := by
  funext j
  simp [rowVec, get]

theorem vecOf_map_div (l : List ℚ) (c : ℚ) : vecOf (l.map (· / c)) n = c⁻¹ • vecOf l n := by
  funext j
  by_cases hj : (j : ℕ) < l.length
  · simp [hj, div_eq_inv_mul]
  · simp [List.getElem?_eq_none (show l.length ≤ (j : ℕ) by omega)]

theorem vecOf_subScaled {x p : List ℚ} (hx : x.length = n) (hp : p.length = n) (f : ℚ) :
    vecOf (subScaled x f p) n = vecOf x n - f • vecOf p n := by
  funext j
  rw [vecOf_apply, getD_subScaled f (hx ▸ j.2) (hp ▸ j.2)]
  rfl

theorem pivotRow_mem {work : List (List ℚ)} {col : ℕ} (h : col < work.length) :
    col ≤ pivotRow work col ∧ pivotRow work col < work.length := by
  -- every candidate row lies in `[col, length)`, and the scan only ever moves to a candidate
  have key : ∀ (rs : List ℕ) (p : ℕ), col ≤ p → p < work.length →
      (∀ r ∈ rs, col ≤ r ∧ r < work.length) →
      ∀ (g : ℕ → ℕ → ℕ), (∀ p r, g p r = p ∨ g p r = r) →
        col ≤ rs.foldl g p ∧ rs.foldl g p < work.length := by
    intro rs
    induction rs with
    | nil => intro p hp hp' _ _ _; exact ⟨hp, hp'⟩
    | cons r rs ih =>
      intro p hp hp' hrs g hg
      have hr := hrs r (List.mem_cons_self ..)
      rcases hg p r with hgp | hgp <;> rw [List.foldl_cons, hgp]
      · exact ih p hp hp' (fun x hx => hrs x (List.mem_cons_of_mem _ hx)) g hg
      · exact ih r hr.1 hr.2 (fun x hx => hrs x (List.mem_cons_of_mem _ hx)) g hg
  apply key _ col le_rfl h
  · intro r hr
    simp only [List.mem_range'_1] at hr
    omega
  · intro p r
    dsimp only
    split
    · exact Or.inr rfl
    · exact Or.inl rfl

@[simp] theorem length_swapRows {α : Type} [Scalar α] (rows : List (List α)) (i j : ℕ) :
    (swapRows rows i j).length = rows.length := by
  simp [swapRows]

theorem getElem?_swapRows {rows : List (List ℚ)} {i j : ℕ} (hi : i < rows.length)
    (hj : j < rows.length) (k : ℕ) :
    (swapRows rows i j)[k]? = if k = j then rows[i]? else if k = i then rows[j]? else rows[k]? := by
  simp only [swapRows, List.getElem?_set, List.length_set]
  by_cases hkj : k = j
  · subst hkj; simp [hj, List.getElem?_eq_getElem hi]
  · by_cases hki : k = i
    · subst hki; simp [hkj, Ne.symm hkj, hi, List.getElem?_eq_getElem hj]
    · simp [hkj, hki, Ne.symm hkj, Ne.symm hki]

theorem length_of_mem_swapRows {rows : List (List ℚ)} {i j : ℕ} (hi : i < rows.length)
    (hj : j < rows.length) (hrows : ∀ row ∈ rows, row.length = n) :
    ∀ row ∈ swapRows rows i j, row.length = n := by
  intro row hrow
  obtain ⟨k, hk, hkrow⟩ := List.getElem_of_mem hrow
  have h := getElem?_swapRows hi hj k
  rw [List.getElem?_eq_getElem hk, hkrow] at h
  split_ifs at h <;> exact hrows row (List.mem_of_getElem? h.symm)

theorem rowVec_swapRows {rows : List (List ℚ)} {i j : ℕ} (hi : i < rows.length)
    (hj : j < rows.length) (k : ℕ) :
    rowVec (swapRows rows i j) n k =
      if k = j then rowVec rows n i else if k = i then rowVec rows n j else rowVec rows n k := by
  simp only [rowVec, getElem?_swapRows hi hj k]
  split_ifs <;> rfl

theorem getElem?_map_zipIdx_zip {β γ δ : Type} (W : List β) (I : List γ) (F : (β × γ) × ℕ → δ)
    {i : ℕ} (hW : i < W.length) (hI : i < I.length) :
    (((W.zip I).zipIdx).map F)[i]? = some (F ((W[i], I[i]), i)) := by
  simp [hW, hI]

/-- Gauss–Jordan elimination of the `n × n` matrix `A` after its first `k` columns, on the rows
being reduced (`st.1`) and the rows built for the inverse (`st.2`). -/
structure Eliminated (A : RatMatrix n n) (k : ℕ) (st : List (List ℚ) × List (List ℚ)) : Prop where
  length_work : st.1.length = n
  length_inv : st.2.length = n
  row_work : ∀ row ∈ st.1, row.length = n
  row_inv : ∀ row ∈ st.2, row.length = n
  /-- the rows built, times `A`, are the rows being reduced -/
  product : ∀ i < n, rowVec st.2 n i ᵥ* A = rowVec st.1 n i
  /-- the processed columns are those of the identity -/
  reduced : ∀ i < n, ∀ j : Fin n, (j : ℕ) < k → rowVec st.1 n i j = if i = j then 1 else 0

/-- The row operations of one column with pivot row `col`: row `col` is divided by the pivot, and
every other row `i` loses `c i / pivot` times it. -/
def clearColumn (rows : ℕ → Fin n → ℚ) (c : ℕ → ℚ) (col : ℕ) (pivot : ℚ) (i : ℕ) : Fin n → ℚ :=
  if i = col then pivot⁻¹ • rows col else rows i - (c i * pivot⁻¹) • rows col

theorem clearColumn_vecMul (rows : ℕ → Fin n → ℚ) (c : ℕ → ℚ) (col : ℕ) (pivot : ℚ) (i : ℕ)
    (A : RatMatrix n n) :
    clearColumn rows c col pivot i ᵥ* A = clearColumn (fun k => rows k ᵥ* A) c col pivot i := by
  unfold clearColumn
  split_ifs
  · exact smul_vecMul _ _ _
  · rw [sub_vecMul, smul_vecMul]

theorem Eliminated.of_clearColumn {A : RatMatrix n n} {col : ℕ} (hcol : col < n)
    {W I : List (List ℚ)} (hs : Eliminated A col (W, I)) {pivot : ℚ}
    (hpivot : rowVec W n col ⟨col, hcol⟩ = pivot) (hne : pivot ≠ 0)
    (F : (List ℚ × List ℚ) × ℕ → List ℚ × List ℚ)
    (hF : ∀ i (hW : i < W.length) (hI : i < I.length),
      (F ((W[i], I[i]), i)).1.length = n ∧ (F ((W[i], I[i]), i)).2.length = n ∧
      vecOf (F ((W[i], I[i]), i)).1 n =
        clearColumn (rowVec W n) (fun k => rowVec W n k ⟨col, hcol⟩) col pivot i ∧
      vecOf (F ((W[i], I[i]), i)).2 n =
        clearColumn (rowVec I n) (fun k => rowVec W n k ⟨col, hcol⟩) col pivot i) :
    Eliminated A (col + 1)
      ((((W.zip I).zipIdx).map F).map (·.1), (((W.zip I).zipIdx).map F).map (·.2)) := by
  obtain ⟨hlw, hli, -, -, hprod, hred⟩ := hs
  dsimp only at hlw hli hprod hred
  -- row `i` of the result is the image of row `i` on both sides
  have hrow : ∀ i < n, ((((W.zip I).zipIdx).map F).map (·.1))[i]? = some (F ((W[i]!, I[i]!), i)).1 ∧
      ((((W.zip I).zipIdx).map F).map (·.2))[i]? = some (F ((W[i]!, I[i]!), i)).2 := by
    intro i hi
    have h := getElem?_map_zipIdx_zip W I F (hlw ▸ hi) (hli ▸ hi)
    simp only [List.getElem?_map, h, Option.map_some, getElem!_pos W i (hlw ▸ hi),
      getElem!_pos I i (hli ▸ hi), and_self]
  have hvec : ∀ i < n,
      rowVec ((((W.zip I).zipIdx).map F).map (·.1)) n i =
        clearColumn (rowVec W n) (fun k => rowVec W n k ⟨col, hcol⟩) col pivot i ∧
      rowVec ((((W.zip I).zipIdx).map F).map (·.2)) n i =
        clearColumn (rowVec I n) (fun k => rowVec W n k ⟨col, hcol⟩) col pivot i := by
    intro i hi
    obtain ⟨h1, h2⟩ := hrow i hi
    obtain ⟨-, -, hv1, hv2⟩ := hF i (hlw ▸ hi) (hli ▸ hi)
    rw [getElem!_pos W i (hlw ▸ hi), getElem!_pos I i (hli ▸ hi)] at h1 h2
    simp only [rowVec, h1, h2, Option.getD_some]
    exact ⟨hv1, hv2⟩
  refine ⟨by simp [hlw, hli], by simp [hlw, hli], ?_, ?_, ?_, ?_⟩
  · intro row hr
    obtain ⟨i, hi, rfl⟩ := List.getElem_of_mem hr
    have hi' : i < n := by simpa [hlw, hli] using hi
    have := (hrow i hi').1
    rw [List.getElem?_eq_getElem hi, Option.some.injEq] at this
    rw [this, getElem!_pos W i (hlw ▸ hi'), getElem!_pos I i (hli ▸ hi')]
    exact (hF i (hlw ▸ hi') (hli ▸ hi')).1
  · intro row hr
    obtain ⟨i, hi, rfl⟩ := List.getElem_of_mem hr
    have hi' : i < n := by simpa [hlw, hli] using hi
    have := (hrow i hi').2
    rw [List.getElem?_eq_getElem hi, Option.some.injEq] at this
    rw [this, getElem!_pos I i (hli ▸ hi'), getElem!_pos W i (hlw ▸ hi')]
    exact (hF i (hlw ▸ hi') (hli ▸ hi')).2.1
  · intro i hi
    rw [(hvec i hi).1, (hvec i hi).2, clearColumn_vecMul]
    unfold clearColumn
    beta_reduce
    split_ifs
    · rw [hprod col hcol]
    · rw [hprod i hi, hprod col hcol]
  · intro i hi j hj
    rw [(hvec i hi).1]
    unfold clearColumn
    rcases Nat.lt_succ_iff_lt_or_eq.mp hj with hj | hj
    · -- an earlier column: the pivot row is zero there, so nothing changes
      have hcolj : rowVec W n col j = 0 := by rw [hred col hcol j hj, if_neg (by omega)]
      by_cases hic : i = col
      · simp [hic, hcolj, show col ≠ (j : ℕ) by omega]
      · simp [hic, hcolj, hred i hi j hj]
    · -- the pivot column: one in the pivot row, cleared elsewhere
      have hj' : j = ⟨col, hcol⟩ := Fin.ext hj
      subst hj'
      by_cases hic : i = col
      · simp [hic, hpivot, hne]
      · simp [hic, hpivot, hne]

theorem Eliminated.swap {A : RatMatrix n n} {k : ℕ} {W I : List (List ℚ)}
    (hs : Eliminated A k (W, I)) {i j : ℕ} (hki : k ≤ i) (hkj : k ≤ j) (hi : i < n) (hj : j < n) :
    Eliminated A k (swapRows W i j, swapRows I i j) := by
  obtain ⟨hlw, hli, hrw, hri, hprod, hred⟩ := hs
  dsimp only at hlw hli hrw hri hprod hred
  refine ⟨by simp [hlw], by simp [hli], length_of_mem_swapRows (hlw ▸ hi) (hlw ▸ hj) hrw,
    length_of_mem_swapRows (hli ▸ hi) (hli ▸ hj) hri, ?_, ?_⟩
  · intro t ht
    dsimp only
    rw [rowVec_swapRows (hli ▸ hi) (hli ▸ hj), rowVec_swapRows (hlw ▸ hi) (hlw ▸ hj)]
    split_ifs
    · exact hprod i hi
    · exact hprod j hj
    · exact hprod t ht
  · intro t ht c hc
    dsimp only
    rw [rowVec_swapRows (hlw ▸ hi) (hlw ▸ hj)]
    by_cases htj : t = j
    · rw [if_pos htj, hred i hi c hc, if_neg (show i ≠ c by omega), if_neg (show t ≠ c by omega)]
    · rw [if_neg htj]
      by_cases hti : t = i
      · rw [if_pos hti, hred j hj c hc, if_neg (show j ≠ c by omega), if_neg (show t ≠ c by omega)]
      · rw [if_neg hti]
        exact hred t ht c hc

theorem Eliminated.step {A : RatMatrix n n} {col : ℕ} {st st' : List (List ℚ) × List (List ℚ)}
    (hs : Eliminated A col st) (hcol : col < n) (h : eliminate col st = some st') :
    Eliminated A (col + 1) st' := by
  obtain ⟨work, inv⟩ := st
  have hlw : work.length = n := hs.length_work
  obtain ⟨hcp, hpn⟩ := pivotRow_mem (hlw ▸ hcol : col < work.length)
  simp only [eliminate] at h
  split at h
  · simp at h
  rename_i hpiv
  simp only [Option.some.injEq] at h
  subst h
  generalize hp : pivotRow work col = p at hcp hpn hpiv
  have hsw := hs.swap le_rfl hcp hcol (hlw ▸ hpn)
  -- the pivot is the entry of the pivot row, which is too large to be zero
  have hpv : rowVec (swapRows work col p) n col ⟨col, hcol⟩ = rowVec work n p ⟨col, hcol⟩ := by
    rw [rowVec_swapRows (hlw ▸ hcol) hpn]
    split_ifs with h1 <;> simp_all
  have hne : rowVec work n p ⟨col, hcol⟩ ≠ 0 := by
    intro h0
    apply hpiv
    have : (work.getD p []).getD col 0 = 0 := by simpa [rowVec] using h0
    rw [this]
    simpa using Scalar.threshold_pos
  have hWl : (swapRows work col p).length = n := by simp [hlw]
  have hIl : (swapRows inv col p).length = n := by simp [hs.length_inv]
  generalize swapRows work col p = W at hsw hpv hWl
  generalize swapRows inv col p = I at hsw hIl
  have hWcol : (W.getD col []).getD col 0 = rowVec W n col ⟨col, hcol⟩ := by simp [rowVec]
  have hWrow : ∀ i (hi : i < W.length), vecOf W[i] n = rowVec W n i := by
    intro i hi; simp [rowVec, hi]
  have hIrow : ∀ i (hi : i < I.length), vecOf I[i] n = rowVec I n i := by
    intro i hi; simp [rowVec, hi]
  have hlen : ∀ i (hi : i < W.length), W[i].length = n := fun i hi => hsw.row_work _ (List.getElem_mem hi)
  have hlenI : ∀ i (hi : i < I.length), I[i].length = n := fun i hi => hsw.row_inv _ (List.getElem_mem hi)
  have hcolW : (W.getD col []).length = n := by
    rw [List.getD_eq_getElem _ _ (by omega)]; exact hlen col (by omega)
  have hcolI : (I.getD col []).length = n := by
    rw [List.getD_eq_getElem _ _ (by omega)]; exact hlenI col (by omega)
  have hvW : vecOf (W.getD col []) n = rowVec W n col := by simp [rowVec]
  have hvI : vecOf (I.getD col []) n = rowVec I n col := by simp [rowVec]
  rw [hWcol, hpv]
  apply Eliminated.of_clearColumn hcol hsw (hpv.trans rfl) hne
  intro i hi hi'
  have hfac : W[i].getD col 0 = rowVec W n i ⟨col, hcol⟩ := by simp [rowVec, hi]
  dsimp only
  split_ifs with hic hz
  · refine ⟨by rw [List.length_map, hcolW], by rw [List.length_map, hcolI], ?_, ?_⟩ <;>
      simp only [clearColumn, hic, if_true, vecOf_map_div, hvW, hvI]
  · have hz' : rowVec W n i ⟨col, hcol⟩ = 0 := by
      rw [← hfac]
      simpa using hz
    refine ⟨hlen i hi, hlenI i hi', ?_, ?_⟩ <;>
      simp [clearColumn, hic, hz', hWrow i hi, hIrow i hi']
  · refine ⟨by rw [length_subScaled, List.length_map, hlen i hi, hcolW, Nat.min_self],
      by rw [length_subScaled, List.length_map, hlenI i hi', hcolI, Nat.min_self], ?_, ?_⟩
    · rw [vecOf_subScaled (hlen i hi) (by rw [List.length_map, hcolW]), vecOf_map_div, hvW,
        hWrow i hi, hfac]
      simp [clearColumn, hic, smul_smul]
    · rw [vecOf_subScaled (hlenI i hi') (by rw [List.length_map, hcolI]), vecOf_map_div, hvI,
        hIrow i hi', hfac]
      simp [clearColumn, hic, smul_smul]

theorem mul_row (M A : RatMatrix n n) (i : Fin n) : (M * A) i = M i ᵥ* A := rfl

theorem eliminated_start {a : Matrix ℚ} (h : a.Shape n n) :
    Eliminated (toMat a n n) 0 (a.rows, (identity n : Matrix ℚ).rows) where
  length_work := h.length_rows
  length_inv := (shape_identity n).length_rows
  row_work := h.length_row
  row_inv := (shape_identity n).length_row
  product i hi := by
    have hrow := toMat_row (n := n) (identity n : Matrix ℚ).rows ⟨i, hi⟩
    rw [show (⟨(identity n : Matrix ℚ).rows, n⟩ : Matrix ℚ) = identity n from rfl,
      toMat_identity] at hrow
    rw [← hrow, ← mul_row, one_mul]
    exact toMat_row a.rows ⟨i, hi⟩
  reduced _ _ _ hj := absurd hj (Nat.not_lt_zero _)

theorem eliminated_foldlM {a : Matrix ℚ} (h : a.Shape n n) :
    ∀ k ≤ n, ∀ st, (List.range k).foldlM (fun st col => eliminate col st)
        (a.rows, (identity n : Matrix ℚ).rows) = some st → Eliminated (toMat a n n) k st := by
  intro k
  induction k with
  | zero =>
    intro _ st hst
    simp only [List.range_zero, List.foldlM_nil] at hst
    cases hst
    exact eliminated_start h
  | succ k ih =>
    intro hk st hst
    rw [List.range_succ, List.foldlM_append] at hst
    obtain ⟨st0, h0, h1⟩ := Option.bind_eq_some_iff.mp hst
    simp only [List.foldlM_cons, List.foldlM_nil] at h1
    obtain ⟨st1, h2, h3⟩ := Option.bind_eq_some_iff.mp h1
    cases h3
    exact (ih (by omega) st0 h0).step (by omega) h2

theorem Eliminated.left_inverse {A : RatMatrix n n} {st : List (List ℚ) × List (List ℚ)}
    (hs : Eliminated A n st) : toMat ⟨st.2, n⟩ n n * A = 1 := by
  ext i j
  rw [mul_row, toMat_row, hs.product i i.2, hs.reduced i i.2 j j.2, one_apply]
  simp [Fin.ext_iff]

theorem inverse_spec {a b : Matrix ℚ} (h : a.Shape n n) (hb : a.inverse = some b) :
    b.Shape n n ∧ toMat b n n * toMat a n n = 1 ∧ toMat a n n * toMat b n n = 1 := by
  simp only [inverse, h.length_rows, h.cols_eq, ne_eq, not_true_eq_false, if_false,
    Option.map_eq_some_iff] at hb
  obtain ⟨st, hst, rfl⟩ := hb
  have hs := eliminated_foldlM h n le_rfl st hst
  have hleft := hs.left_inverse
  exact ⟨⟨hs.length_inv, rfl, hs.row_inv⟩, hleft, mul_eq_one_comm.mp hleft⟩

/-- Over the rationals, inversion answers exactly on square matrices: what it returns is an
inverse on both sides under the library's own product, a singular matrix gets none, and so
does a matrix that is not square. The converse of the first part fails by design: a pivot
below `1e-12` is taken for zero. -/
theorem inverse_two_sided (a : Matrix ℚ) :
    (∀ n b, a.Shape n n → a.inverse = some b → a.mul b = identity n ∧ b.mul a = identity n) ∧
      (∀ n, a.Shape n n → (toMat a n n).det = 0 → a.inverse = none) ∧
      (a.rows.length ≠ a.cols → a.inverse = none) := by
  refine ⟨fun n b ha hb => ?_, fun n ha hdet => ?_, fun hsq => ?_⟩
  · obtain ⟨hbs, hleft, hright⟩ := inverse_spec ha hb
    have hid := shape_identity n
    constructor
    · apply ext_toMat (shape_mul ha hbs) hid
      rw [toMat_mul ha hbs, hright, toMat_identity]
    · apply ext_toMat (shape_mul hbs ha) hid
      rw [toMat_mul hbs ha, hleft, toMat_identity]
  · cases hinv : a.inverse with
    | none => rfl
    | some b =>
      have hunit := congrArg det (inverse_spec ha hinv).2.1
      rw [det_mul, det_one, hdet, mul_zero] at hunit
      exact absurd hunit zero_ne_one
  · simp [inverse, hsq]

/-- The matrix `[[0, 1], [2, 0]]`, which needs a row swap, gets `[[0, 1/2], [1, 0]]` and the
products both ways are the identity; the singular `[[1, 2], [2, 4]]` and the one-row
`[[1, 2]]` get none. -/
theorem inverse_two_sided_rowSwap :
    ((⟨[[0, 1], [2, 0]], 2⟩ : Matrix ℚ).inverse = some ⟨[[0, 1 / 2], [1, 0]], 2⟩ ∧
        (⟨[[0, 1], [2, 0]], 2⟩ : Matrix ℚ).mul ⟨[[0, 1 / 2], [1, 0]], 2⟩ = identity 2 ∧
        (⟨[[0, 1 / 2], [1, 0]], 2⟩ : Matrix ℚ).mul ⟨[[0, 1], [2, 0]], 2⟩ = identity 2) ∧
      ((toMat ⟨[[1, 2], [2, 4]], 2⟩ 2 2).det = 0 ∧
        (⟨[[1, 2], [2, 4]], 2⟩ : Matrix ℚ).inverse = none) ∧
      (⟨[[1, 2]], 2⟩ : Matrix ℚ).inverse = none := by
  have hm : (⟨[[0, 1], [2, 0]], 2⟩ : Matrix ℚ).Shape 2 2 := ⟨rfl, rfl, by simp⟩
  have hs : (⟨[[1, 2], [2, 4]], 2⟩ : Matrix ℚ).Shape 2 2 := ⟨rfl, rfl, by simp⟩
  have hinv : (⟨[[0, 1], [2, 0]], 2⟩ : Matrix ℚ).inverse = some ⟨[[0, 1 / 2], [1, 0]], 2⟩ := by
    decide +kernel
  have hdet : (toMat ⟨[[1, 2], [2, 4]], 2⟩ 2 2).det = 0 := by
    rw [det_fin_two]
    simp [get]
    norm_num
  exact ⟨⟨hinv, (inverse_two_sided _).1 2 _ hm hinv⟩, ⟨hdet, (inverse_two_sided _).2.1 2 hs hdet⟩,
    (inverse_two_sided _).2.2 (by decide)⟩

end Matrix

end RevisedSimplex
