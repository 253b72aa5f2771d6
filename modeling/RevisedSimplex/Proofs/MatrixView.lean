import Mathlib
import RevisedSimplex.Proofs.Exact

/-! # Lists as vectors and matrices

The simplex methods keep vectors as lists and matrices as lists of rows. Over the rationals
each list is read as a vector of `Fin k → ℚ` (`vecOf`) and each list matrix of a known shape
as a Mathlib matrix (`toMat`), entries past the end reading as zero. The products of the
model then become Mathlib's: `dot` is `⬝ᵥ`, `Matrix.mulVec` is `*ᵥ`, `Matrix.vecMul` is `ᵥ*`
and `Matrix.mul` is `*`, whatever order of additions and skipped zero terms the model uses.
-/

/-- Mathlib's rational matrices with `Fin` indices, under a name that the list matrices of the
model do not shadow. -/
abbrev RatMatrix (m n : ℕ) : Type := Matrix (Fin m) (Fin n) ℚ

open Matrix

namespace RevisedSimplex

/-- A list as a vector with `k` entries, zero past its end. -/
def vecOf (v : List ℚ) (k : ℕ) : Fin k → ℚ := fun i => v[(i : ℕ)]?.getD 0

@[simp] theorem vecOf_apply (v : List ℚ) (k : ℕ) (i : Fin k) : vecOf v k i = v[(i : ℕ)]?.getD 0 :=
  rfl

theorem dot_eq_dotProduct {x y : List ℚ} {k : ℕ} (hx : x.length = k) (hy : y.length = k) :
    dot x y = vecOf x k ⬝ᵥ vecOf y k := by
  induction k generalizing x y with
  | zero => simp_all
  | succ k ih =>
    obtain ⟨a, x, rfl⟩ := List.exists_cons_of_length_eq_add_one hx
    obtain ⟨b, y, rfl⟩ := List.exists_cons_of_length_eq_add_one hy
    rw [dot_cons, ih (by simpa using hx) (by simpa using hy)]
    simp [dotProduct, Fin.sum_univ_succ]

theorem foldl_additive {β : Type} (step : List ℚ → β → List ℚ) (w : β → ℕ → ℚ) {n : ℕ}
    (L : List β) (hlen : ∀ acc, ∀ p ∈ L, acc.length = n → (step acc p).length = n)
    (hget : ∀ acc, ∀ p ∈ L, acc.length = n → ∀ j < n,
      (step acc p)[j]?.getD 0 = acc[j]?.getD 0 + w p j)
    (acc : List ℚ) (hacc : acc.length = n) :
    (L.foldl step acc).length = n ∧
      ∀ j < n, (L.foldl step acc)[j]?.getD 0 = acc[j]?.getD 0 + (L.map (w · j)).sum := by
  induction L generalizing acc with
  | nil => simp [hacc]
  | cons p L ih =>
    have hp : p ∈ p :: L := List.mem_cons_self
    obtain ⟨hl, hg⟩ := ih (fun acc q hq => hlen acc q (List.mem_cons_of_mem p hq))
      (fun acc q hq => hget acc q (List.mem_cons_of_mem p hq)) _ (hlen acc p hp hacc)
    refine ⟨hl, fun j hj => ?_⟩
    rw [List.foldl_cons, hg j hj, hget acc p hp hacc j hj]
    simp [add_assoc]

theorem sum_zipIdx {α : Type} (l : List α) (d : α) (f : α × ℕ → ℚ) (s : ℕ) :
    ((l.zipIdx s).map f).sum = ∑ i ∈ Finset.range l.length, f (l[i]?.getD d, s + i) := by
  induction l generalizing s with
  | nil => simp
  | cons a l ih =>
    rw [List.zipIdx_cons, List.map_cons, List.sum_cons, ih, List.length_cons,
      Finset.sum_range_succ']
    simp [Nat.add_left_comm, add_comm]

theorem sum_zip {β γ : Type} (l : List β) (v : List γ) (d : β) (e : γ) (f : β × γ → ℚ)
    (h : l.length = v.length) :
    ((l.zip v).map f).sum = ∑ i ∈ Finset.range l.length, f (l[i]?.getD d, v[i]?.getD e) := by
  induction l generalizing v with
  | nil => simp
  | cons a l ih =>
    obtain ⟨b, v, rfl⟩ := List.exists_cons_of_length_eq_add_one h.symm
    rw [List.zip_cons_cons, List.map_cons, List.sum_cons, ih v (by simpa using h),
      List.length_cons, Finset.sum_range_succ']
    simp [add_comm]

namespace Matrix

/-- `a` has `r` rows of `c` entries each and records `c` as its width. -/
structure Shape {α : Type} (a : Matrix α) (r c : ℕ) : Prop where
  length_rows : a.rows.length = r
  cols_eq : a.cols = c
  length_row : ∀ row ∈ a.rows, row.length = c

theorem Shape.length_getElem {α : Type} {a : Matrix α} {r c : ℕ} (h : a.Shape r c) {i : ℕ}
    (hi : i < a.rows.length) : a.rows[i].length = c :=
  h.length_row _ (List.getElem_mem hi)

/-- Matrices are compared by their rows and their recorded width, so that a product can be
checked against the identity by evaluation. -/
instance {α : Type} [DecidableEq α] : DecidableEq (Matrix α) := fun a b =>
  decidable_of_iff (a.rows = b.rows ∧ a.cols = b.cols) (by cases a; cases b; simp)

end Matrix

/-- A list matrix as an `r × c` matrix; entries outside its lists read as zero. -/
def toMat (a : Matrix ℚ) (r c : ℕ) : RatMatrix r c := of fun i j => a.get i j

@[simp] theorem toMat_apply (a : Matrix ℚ) (r c : ℕ) (i : Fin r) (j : Fin c) :
    toMat a r c i j = a.get i j := rfl

namespace Matrix

theorem ext_toMat {a b : Matrix ℚ} {r c : ℕ} (ha : a.Shape r c) (hb : b.Shape r c)
    (h : toMat a r c = toMat b r c) : a = b := by
  obtain ⟨rowsA, colsA⟩ := a
  obtain ⟨rowsB, colsB⟩ := b
  have hrows : rowsA = rowsB := by
    apply List.ext_getElem (ha.length_rows.trans hb.length_rows.symm)
    intro i hiA hiB
    have hi : i < r := ha.length_rows ▸ hiA
    apply List.ext_getElem ((ha.length_getElem hiA).trans (hb.length_getElem hiB).symm)
    intro j hjA hjB
    have hj : j < c := ha.length_getElem hiA ▸ hjA
    have hij := congrFun (congrFun h ⟨i, hi⟩) ⟨j, hj⟩
    simpa [get, hiA, hiB, hjA, hjB] using hij
  have hcols : colsA = colsB := ha.cols_eq.trans hb.cols_eq.symm
  rw [hrows, hcols]

@[simp] theorem length_mulVec (a : Matrix ℚ) (v : List ℚ) : (a.mulVec v).length = a.rows.length := by
  simp [mulVec]

theorem vecOf_mulVec {a : Matrix ℚ} {r c : ℕ} (h : a.Shape r c) {v : List ℚ} (hv : v.length = c) :
    vecOf (a.mulVec v) r = toMat a r c *ᵥ vecOf v c := by
  funext i
  have hi : (i : ℕ) < a.rows.length := h.length_rows ▸ i.2
  rw [vecOf_apply, mulVec, List.getElem?_map, List.getElem?_eq_getElem hi, Option.map_some,
    Option.getD_some, dot_eq_dotProduct (h.length_getElem hi) hv, mulVec_apply_eq_sum]
  simp [dotProduct, get, hi]

theorem mulRow_spec (b : Matrix ℚ) (row : List ℚ) :
    (mulRow b row).length = b.cols ∧
      ∀ j < b.cols, (mulRow b row)[j]?.getD 0 =
        ∑ k ∈ Finset.range row.length, row[k]?.getD 0 * b.get k j := by
  obtain ⟨hl, hg⟩ := foldl_additive
    (fun acc (p : ℚ × ℕ) => if p.1 == 0 then acc else addScaled acc p.1 (b.rows.getD p.2 []))
    (fun p j => p.1 * b.get p.2 j) row.zipIdx
    (fun acc p _ hacc => by split <;> simp [hacc])
    (fun acc p _ hacc j hj => by
      by_cases hp : p.1 = 0
      · simp [hp]
      · simp only [Scalar.beq_rat, hp, decide_false, Bool.false_eq_true, if_false]
        rw [getD_addScaled _ _ _ (hacc ▸ hj)]
        rfl)
    (List.replicate b.cols 0) List.length_replicate
  refine ⟨by simpa [mulRow] using hl, fun j hj => ?_⟩
  rw [mulRow, hg j hj, sum_zipIdx _ 0]
  simp [hj]

theorem shape_mul {a b : Matrix ℚ} {r k c : ℕ} (ha : a.Shape r k) (hb : b.Shape k c) :
    (a.mul b).Shape r c where
  length_rows := by simp [mul, ha.length_rows]
  cols_eq := by simp [mul, hb.cols_eq]
  length_row row hrow := by
    obtain ⟨x, -, rfl⟩ := List.mem_map.mp hrow
    rw [(mulRow_spec b x).1, hb.cols_eq]

theorem toMat_mul {a b : Matrix ℚ} {r k c : ℕ} (ha : a.Shape r k) (hb : b.Shape k c) :
    toMat (a.mul b) r c = toMat a r k * toMat b k c := by
  ext i j
  have hi : (i : ℕ) < a.rows.length := ha.length_rows ▸ i.2
  have hrow := ha.length_row _ (List.getElem_mem hi)
  have hget : (a.mul b).get i j = (mulRow b a.rows[(i : ℕ)])[(j : ℕ)]?.getD 0 := by
    simp [get, mul, hi]
  rw [toMat_apply, hget, (mulRow_spec b _).2 j (hb.cols_eq ▸ j.2), hrow, mul_apply,
    ← Fin.sum_univ_eq_sum_range (fun k => a.rows[(i : ℕ)][k]?.getD 0 * b.get k j)]
  simp [get, hi]

theorem vecMul_spec (a : Matrix ℚ) (v : List ℚ) (hv : a.rows.length = v.length) :
    (a.vecMul v).length = a.cols ∧
      ∀ j < a.cols, (a.vecMul v)[j]?.getD 0 =
        ∑ i ∈ Finset.range a.rows.length, v[i]?.getD 0 * a.get i j := by
  obtain ⟨hl, hg⟩ := foldl_additive
    (fun acc (p : List ℚ × ℚ) => addScaled acc p.2 p.1) (fun p j => p.2 * p.1[j]?.getD 0)
    (a.rows.zip v)
    (fun acc p _ hacc => by simp [hacc]) (fun acc p _ hacc j hj => getD_addScaled _ _ _ (hacc ▸ hj))
    (List.replicate a.cols 0) List.length_replicate
  refine ⟨by simpa [vecMul] using hl, fun j hj => ?_⟩
  rw [vecMul, hg j hj, sum_zip a.rows v [] 0 _ hv]
  simp [hj, get]

theorem vecOf_vecMul {a : Matrix ℚ} {r c : ℕ} (h : a.Shape r c) {v : List ℚ} (hv : v.length = r) :
    vecOf (a.vecMul v) c = vecOf v r ᵥ* toMat a r c := by
  funext j
  have hj : (j : ℕ) < a.cols := h.cols_eq ▸ j.2
  rw [vecOf_apply, (vecMul_spec a v (h.length_rows.trans hv.symm)).2 j hj, h.length_rows,
    vecMul_apply_eq_sum, ← Fin.sum_univ_eq_sum_range (fun i => v[i]?.getD 0 * a.get i j)]
  simp

theorem length_vecMul {a : Matrix ℚ} {r c : ℕ} (h : a.Shape r c) {v : List ℚ} (hv : v.length = r) :
    (a.vecMul v).length = c := by
  rw [(vecMul_spec a v (h.length_rows.trans hv.symm)).1, h.cols_eq]

theorem shape_identity (n : ℕ) : (identity n : Matrix ℚ).Shape n n where
  length_rows := by simp [identity]
  cols_eq := rfl
  length_row row hrow := by
    obtain ⟨x, -, rfl⟩ := List.mem_map.mp hrow
    simp

theorem toMat_identity (n : ℕ) : toMat (identity n) n n = 1 := by
  ext i j
  simp [identity, get, one_apply, Fin.ext_iff]

end Matrix

end RevisedSimplex
