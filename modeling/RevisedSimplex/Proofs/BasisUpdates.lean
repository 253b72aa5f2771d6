import Mathlib
import RevisedSimplex.Proofs.SlackGate

/-! # Replacing basic columns

A basis changes only by `Basis.replace`: the entering column takes the place of the column at
the leaving position, the indices are sorted ascending, and the matrix and the costs are rebuilt
from the sorted indices. Sorting moves the entering column to another position in general, so
each column of `B` and each cost is read off the new indices and never patched at the leaving
position.

Whatever columns enter, as long as each leaves a position below `m` for a column below `n + m`
(`Basis.Replaced`), every basis reached from the slack basis keeps `m` sorted columns below
`n + m`, with column `i` of its matrix the column `indices[i]` of `A'` and its cost `i` that
column's cost (`Basis.Tracks`). Scattering values over distinct indices writes value `i` at
column `indices[i]` and leaves zero elsewhere (`Basis.Scatters`).
-/

namespace RevisedSimplex

variable {α : Type}

namespace Basis

/-! ## Writing values at columns -/

section Writes

variable {cols : List ℕ}

theorem length_foldl_set_zip (cols : List ℕ) (vals acc : List α) :
    ((cols.zip vals).foldl (fun acc (x : ℕ × α) => acc.set x.1 x.2) acc).length = acc.length := by
  induction cols generalizing vals acc with
  | nil => rfl
  | cons c cs ih =>
    cases vals with
    | nil => rfl
    | cons v vs => simp [ih]

theorem getElem?_foldl_set_zip_of_not_mem (vals acc : List α) {j : ℕ}
    (hj : j ∉ cols.take vals.length) :
    ((cols.zip vals).foldl (fun acc (x : ℕ × α) => acc.set x.1 x.2) acc)[j]? = acc[j]? := by
  induction cols generalizing vals acc with
  | nil => rfl
  | cons c cs ih =>
    cases vals with
    | nil => rfl
    | cons v vs =>
      simp only [List.length_cons, List.take_succ_cons, List.mem_cons, not_or] at hj
      simp only [List.zip_cons_cons, List.foldl_cons]
      rw [ih vs _ hj.2, List.getElem?_set_ne (Ne.symm hj.1)]

theorem getElem?_foldl_set_zip (hnd : cols.Nodup) (vals acc : List α) {i : ℕ}
    (hi : i < cols.length) (hv : i < vals.length) (hlt : cols[i] < acc.length) :
    ((cols.zip vals).foldl (fun acc (x : ℕ × α) => acc.set x.1 x.2) acc)[cols[i]]? =
      some vals[i] := by
  induction cols generalizing vals acc i with
  | nil => simp at hi
  | cons c cs ih =>
    cases vals with
    | nil => simp at hv
    | cons v vs =>
      simp only [List.zip_cons_cons, List.foldl_cons]
      rw [List.nodup_cons] at hnd
      cases i with
      | zero =>
        -- no later pair names `c`, so the first write stays
        have hc : c ∉ cs.take vs.length := fun h => hnd.1 (List.mem_of_mem_take h)
        have hlt' : c < acc.length := hlt
        rw [List.getElem_cons_zero, getElem?_foldl_set_zip_of_not_mem _ _ hc,
          List.getElem?_set_self hlt']
        rfl
      | succ k =>
        simp only [List.getElem_cons_succ]
        exact ih hnd.2 vs _ (by simpa using hi) (by simpa using hv)
          (by simpa using hlt)

end Writes

section Replacing

variable [Scalar α]

/-- The bases reached from the slack basis by replacements, each putting a column below `n + m`
in place of the one at a position below `m`. -/
inductive Replaced (p : StandardForm α) : Basis α → Prop
  | initial : Replaced p (Basis.initial p)
  | replace {b : Basis α} {r e : ℕ} (h : Replaced p b) (hr : r < p.numConstraints)
      (he : e < p.numColumns) : Replaced p (b.replace r e p)

/-- A basis read off its indices: `m` columns below `n + m` in ascending order, an `m × m`
matrix whose column `i` is column `indices[i]` of `A'`, and costs whose entry `i` is the cost of
column `indices[i]`. -/
structure Tracks (p : StandardForm α) (b : Basis α) : Prop where
  length_eq : b.indices.length = p.numConstraints
  sorted : b.indices.Pairwise (· ≤ ·)
  lt : ∀ j ∈ b.indices, j < p.numColumns
  shape : b.matrix.Shape p.numConstraints p.numConstraints
  column : ∀ i (hi : i < b.indices.length), b.matrix.column i = p.constraints.column b.indices[i]
  cost : ∀ i (hi : i < b.indices.length), b.costs[i]? = p.costs[b.indices[i]]?

/-- `out` spreads `v` over the columns `idx` in `N` entries: entry `i` of `v` at column
`idx[i]`, as far as `v` reaches, and zero in every other column. -/
structure Scatters (idx : List ℕ) (v : List α) (N : ℕ) (out : List α) : Prop where
  length_eq : out.length = N
  basic : ∀ i (hi : i < idx.length) (hv : i < v.length), out[idx[i]]? = some v[i]
  other : ∀ j < N, j ∉ idx.take v.length → out[j]? = some 0

/-! ## Rebuilding from the indices -/

section OfIndices

variable {p : StandardForm α}

theorem column_ofIndices (hp : p.constraints.rows.length = p.numConstraints) (idx : List ℕ)
    {i : ℕ} (hi : i < idx.length) :
    (ofIndices p idx).matrix.column i = p.constraints.column idx[i] := by
  apply List.ext_getElem
  · simp [Matrix.column, ofIndices, hp]
  · intro r h₁ h₂
    have hr : r < p.constraints.rows.length := by simpa [Matrix.column] using h₂
    simp [Matrix.column, ofIndices, Matrix.get, hi, List.getElem?_eq_getElem hr]

theorem cost_ofIndices (idx : List ℕ) {i : ℕ} (hi : i < idx.length)
    (hlt : idx[i] < p.costs.length) : (ofIndices p idx).costs[i]? = p.costs[idx[i]]? := by
  simp [ofIndices, hi, List.getElem?_eq_getElem hlt]

theorem tracks_ofIndices (hp : p.Shaped) {idx : List ℕ}
    (h : SortedColumns p.numConstraints p.numColumns idx) : (ofIndices p idx).Tracks p where
  length_eq := h.length_eq
  sorted := h.sorted
  lt := h.lt
  shape := StandardForm.shape_ofIndices h.length_eq
  column _ hi := column_ofIndices hp.constraints.length_rows idx hi
  cost _ hi := cost_ofIndices idx hi (hp.costs ▸ h.lt _ (List.getElem_mem hi))

end OfIndices

theorem indices_replace_perm (p : StandardForm α) (b : Basis α) (r e : ℕ) :
    (b.replace r e p).indices.Perm (b.indices.set r e) :=
  sortAscending_perm _

theorem Replaced.eq_ofIndices {prog : LinearProgram α} {b : Basis α}
    (h : Replaced prog.standardize b) :
    SortedColumns prog.standardize.numConstraints prog.standardize.numColumns b.indices ∧
      b = ofIndices prog.standardize b.indices := by
  induction h with
  | initial => exact ⟨prog.sortedColumns_initial, rfl⟩
  | replace h hr he ih =>
    rename_i b r e
    exact ⟨ih.1.sort_set r he, rfl⟩

theorem Replaced.tracks {prog : LinearProgram α} {b : Basis α} (h : Replaced prog.standardize b) :
    b.Tracks prog.standardize := by
  obtain ⟨hsorted, hb⟩ := h.eq_ofIndices
  rw [hb]
  exact tracks_ofIndices prog.shaped_standardize hsorted

theorem costs_initial (prog : LinearProgram α) :
    (Basis.initial prog.standardize).costs = List.replicate prog.numConstraints 0 := by
  apply List.ext_getElem
  · simp [Basis.initial, ofIndices]
  · intro k h₁ h₂
    have hk : k < prog.numConstraints := by simpa using h₂
    simp only [Basis.initial, ofIndices, List.getElem_map, List.getElem_range,
      List.getElem_replicate]
    exact prog.costs_standardize_slack hk

theorem scatters_scatter (b : Basis α) (hnd : b.indices.Nodup) (hlt : ∀ j ∈ b.indices, j < N)
    (v : List α) : Scatters b.indices v N (b.scatter v N) := by
  have hform : b.scatter v N =
      (b.indices.zip v).foldl (fun acc (x : ℕ × α) => acc.set x.1 x.2) (List.replicate N 0) := rfl
  rw [hform]
  refine ⟨by rw [length_foldl_set_zip, List.length_replicate], fun i hi hv => ?_, fun j hj hnot => ?_⟩
  · exact getElem?_foldl_set_zip hnd v _ hi hv
      (by rw [List.length_replicate]; exact hlt _ (List.getElem_mem hi))
  · rw [getElem?_foldl_set_zip_of_not_mem v _ hnot, List.getElem?_replicate, if_pos hj]

end Replacing

end Basis

variable [Scalar α]

/-- What replacing basic columns keeps, from the slack basis on: the slack basis has the identity
matrix and zero costs; every basis reached by replacements (each a position below `m` and a
column below `n + m`) has `m` sorted columns below `n + m`, matrix columns and costs read off its
indices, and indices after a further replacement that rearrange those before with the one
position set; and when its columns are distinct, scattering puts each value at its column and
zero elsewhere. -/
theorem replaced_bases_track_indices (prog : LinearProgram α) :
    (Basis.initial prog.standardize).matrix = Matrix.identity prog.numConstraints ∧
      (Basis.initial prog.standardize).costs = List.replicate prog.numConstraints 0 ∧
      ∀ b, Basis.Replaced prog.standardize b →
        b.Tracks prog.standardize ∧
          (∀ r e, (b.replace r e prog.standardize).indices.Perm (b.indices.set r e)) ∧
          (b.indices.Nodup → ∀ v, Basis.Scatters b.indices v prog.standardize.numColumns
            (b.scatter v prog.standardize.numColumns)) := by
  refine ⟨prog.matrix_initial, Basis.costs_initial prog, fun b hb => ?_⟩
  have htracks := hb.tracks
  exact ⟨htracks, Basis.indices_replace_perm _ b, fun hnd v =>
    b.scatters_scatter hnd htracks.lt v⟩

end RevisedSimplex
