import Mathlib
import RevisedSimplex.Proofs.ResultShape
import RevisedSimplex.Proofs.TraceShape
import RevisedSimplex.Proofs.TableauLayout

/-! # Every index in range

Whatever the arithmetic, the tolerance and the cap, both methods read and write only inside
their data. A factorization of a basis of the augmented problem with `m` rows and `N` columns
has an `m × N` tableau, `m` basic values and `N` reduced costs (`Factorization.Fits`): the row
count of the inverse is that of the basis matrix, however its pivots fall. The revised method
records only rows below `m`, columns below `N` and bases of `m` sorted columns below `N`
(`Event.InRange`), and what it records is what it reads: each round prices the columns of the
recorded basis, enters a column of the reduced costs, tests rows below `m` of the tableau in that
column, and replaces a position below `m`; the values of a basis are scattered over its columns
in `N` entries. The two-phase method keeps the layout of its tableau (`Tableau.Layout`).
-/

namespace RevisedSimplex

variable {α : Type} [Scalar α]

/-! ## Sizes of a factorization -/

namespace Matrix

theorem length_eliminate {col n : ℕ} {st st' : List (List α) × List (List α)}
    (h₁ : st.1.length = n) (h₂ : st.2.length = n) (h : eliminate col st = some st') :
    st'.1.length = n ∧ st'.2.length = n := by
  obtain ⟨work, inv⟩ := st
  simp only [eliminate] at h
  split_ifs at h
  cases h
  simp_all

theorem length_foldlM_eliminate {n : ℕ} :
    ∀ (cols : List ℕ) (st st' : List (List α) × List (List α)), st.1.length = n →
      st.2.length = n → cols.foldlM (fun st col => eliminate col st) st = some st' →
      st'.2.length = n
  | [], st, st', _, h₂, h => by
    cases h
    exact h₂
  | col :: cols, st, st', h₁, h₂, h => by
    rw [List.foldlM_cons] at h
    obtain ⟨st'', hst'', h⟩ := Option.bind_eq_some_iff.mp h
    obtain ⟨h₁', h₂'⟩ := length_eliminate h₁ h₂ hst''
    exact length_foldlM_eliminate cols st'' st' h₁' h₂' h

theorem length_rows_inverse {a b : Matrix α} (h : a.inverse = some b) :
    b.rows.length = a.rows.length := by
  unfold inverse at h
  dsimp only at h
  split_ifs at h
  obtain ⟨st, hst, rfl⟩ := Option.map_eq_some_iff.mp h
  exact length_foldlM_eliminate _ _ st rfl (by simp [identity]) hst

end Matrix

/-- The sizes of a factorization for a problem with `m` rows and `N` columns: an `m × N`
tableau, `m` basic values and `N` reduced costs. -/
structure Factorization.Fits (m N : ℕ) (f : Factorization α) : Prop where
  tableau : f.tableau.Shape m N
  length_basicSolution : f.basicSolution.length = m
  length_reducedCosts : f.reducedCosts.length = N

theorem factorize_fits {p : StandardForm α} (hp : p.Shaped) {idx : List ℕ} {f : Factorization α}
    (hf : factorize p (Basis.ofIndices p idx) = some f) : f.Fits p.numConstraints p.numColumns := by
  have hrc := length_reducedCosts hf
  obtain ⟨inv, hinv, rfl⟩ := Option.map_eq_some_iff.mp hf
  have hrows : inv.rows.length = p.numConstraints := by
    rw [Matrix.length_rows_inverse hinv]
    simp [Basis.ofIndices]
  refine ⟨⟨by simp [Matrix.mul, hrows], by simp [Matrix.mul, hp.constraints.cols_eq],
    fun row hrow => ?_⟩, by simp [Matrix.mulVec, hrows], ?_⟩
  · obtain ⟨x, -, rfl⟩ := List.mem_map.mp hrow
    rw [Matrix.length_mulRow, hp.constraints.cols_eq]
  · rw [hrc, hp.costs, hp.constraints.cols_eq, min_self]

/-! ## What a run records -/

/-- The rows and columns an event names lie in a problem with `m` rows and `N` columns: a
recorded basis is `m` sorted columns below `N`, and a recorded vector has one entry per row or
per column. -/
def Event.InRange (m N : ℕ) : Event α → Prop
  | .initialized b => SortedColumns m N b
  | .infeasible x => x.length = m
  | .reducedCosts _ rc => rc.length = N
  | .iterationStarted _ e => e < N
  | .ratio row _ => row < m
  | .leavingCandidate row _ => row < m
  | .basisUpdated _ row b => row < m ∧ SortedColumns m N b
  | .unbounded _ | .optimal _ _ => True

theorem ratioTest_inRange (p : StandardForm α) (f : Factorization α) (e N : ℕ) :
    (∀ ev ∈ (ratioTest p f e).2, ev.InRange p.numConstraints N) ∧
      ∀ r, (ratioTest p f e).1 = some r → r < p.numConstraints := by
  obtain ⟨rs, -, hlt, hevs, hbest⟩ := ratioTest_records p f e
  refine ⟨fun ev hev => ?_, fun r hr => ?_⟩
  · rw [hevs] at hev
    obtain ⟨x, hx, rfl | rfl⟩ := mem_ratioRecords hev <;>
      exact hlt _ (List.mem_map_of_mem hx)
  · rw [hbest] at hr
    obtain ⟨c, hc, rfl⟩ := Option.map_eq_some_iff.mp hr
    have hmem := List.mem_of_getLast? hc
    simp only [leavingCandidates, List.mem_map, List.mem_filter] at hmem
    obtain ⟨x, ⟨hx, -⟩, rfl⟩ := hmem
    exact hlt _ (List.mem_map_of_mem hx)

namespace Solver

variable (s : Solver α) {p : StandardForm α} (hp : p.Shaped)
include hp

theorem loop_inRange (L : ℕ) :
    ∀ (F : ℕ) (idx : List ℕ) (f : Factorization α) (vals : List α) (v : α) (c : ℕ)
      (ev : List (Event α)), SortedColumns p.numConstraints p.numColumns idx →
      factorize p (Basis.ofIndices p idx) = some f →
      (∀ x ∈ ev, x.InRange p.numConstraints p.numColumns) →
      ∀ x ∈ (s.loop p L F (Basis.ofIndices p idx) f (vals, v) c ev).trace,
        x.InRange p.numConstraints p.numColumns
  | 0, _, _, _, _, _, _, _, _, hev => fun x hx => hev x (List.mem_reverse.mp hx)
  | F + 1, idx, f, vals, v, c, ev, hidx, hf, hev => by
    have hfits := factorize_fits hp hf
    have hrc : (Event.reducedCosts (selectEntering f.reducedCosts).minReducedCost
        f.reducedCosts).InRange p.numConstraints p.numColumns := hfits.length_reducedCosts
    rw [loop_succ]
    cases hacc : (selectEntering f.reducedCosts).accepted s.tolerance with
    | none =>
      intro x hx
      simp only [List.mem_append, List.mem_reverse, List.mem_cons, List.not_mem_nil,
        or_false] at hx
      rcases hx with hx | rfl | rfl
      · exact hev x hx
      · exact hrc
      · trivial
    | some e =>
      have he : e < p.numColumns := hfits.length_reducedCosts ▸
        selectEntering_column_lt (Entering.column_of_accepted hacc)
      obtain ⟨hratios, hrow⟩ := ratioTest_inRange p f e p.numColumns
      have hround : ∀ x ∈ ev.reverse ++
          Event.reducedCosts (selectEntering f.reducedCosts).minReducedCost f.reducedCosts ::
            .iterationStarted (c + 1) e :: (ratioTest p f e).2,
          x.InRange p.numConstraints p.numColumns := by
        intro x hx
        simp only [List.mem_append, List.mem_reverse, List.mem_cons] at hx
        rcases hx with hx | rfl | rfl | hx
        · exact hev x hx
        · exact hrc
        · exact he
        · exact hratios x hx
      dsimp only
      split_ifs
      · intro x hx
        simp only [List.mem_append, List.mem_reverse, List.mem_singleton] at hx
        rcases hx with hx | rfl
        · exact hev x hx
        · exact hrc
      cases hr : (ratioTest p f e).1 with
      | none =>
        dsimp only
        intro x hx
        rw [List.mem_append, List.mem_singleton] at hx
        rcases hx with hx | rfl
        · exact hround x hx
        · trivial
      | some r =>
        have hnew : Event.InRange p.numConstraints p.numColumns
            (.basisUpdated (c + 1) r (sortAscending (idx.set r e)) : Event α) :=
          ⟨hrow r hr, hidx.sort_set r he⟩
        dsimp only
        rw [Basis.replace_ofIndices]
        cases hf' : factorize p (Basis.ofIndices p (sortAscending (idx.set r e))) with
        | none =>
          dsimp only
          intro x hx
          rw [List.mem_append, List.mem_singleton] at hx
          rcases hx with hx | rfl
          · exact hround x hx
          · exact hnew
        | some f' =>
          dsimp only
          refine loop_inRange L F _ f' _ _ (c + 1) _ (hidx.sort_set r he) hf' fun x hx => ?_
          simp only [List.mem_cons, List.mem_append, List.mem_reverse] at hx
          rcases hx with rfl | hx | rfl | rfl | hx
          · exact hnew
          · exact hratios x hx
          · exact he
          · exact hrc
          · exact hev x hx

end Solver

theorem Solver.run_inRange (s : Solver α) (prog : LinearProgram α) :
    ∀ x ∈ (s.run prog).trace,
      x.InRange prog.standardize.numConstraints prog.standardize.numColumns := by
  have hp := prog.shaped_standardize
  have hinit : (Event.initialized (Basis.initial prog.standardize).indices : Event α).InRange
      prog.standardize.numConstraints prog.standardize.numColumns := prog.sortedColumns_initial
  unfold Solver.run
  dsimp only
  cases hf : factorize prog.standardize (Basis.initial prog.standardize) with
  | none =>
    dsimp only
    intro x hx
    rw [List.mem_singleton.mp hx]
    exact hinit
  | some f =>
    dsimp only
    split
    · intro x hx
      simp only [List.mem_append, List.mem_singleton] at hx
      rcases hx with rfl | rfl
      · exact hinit
      · exact (factorize_fits hp hf).length_basicSolution
    · exact s.loop_inRange hp _ _ _ _ _ _ 0 _ prog.sortedColumns_initial hf
        fun x hx => by rw [List.mem_singleton.mp (List.mem_reverse.mp hx)]; exact hinit

/-! ## Both methods in binary64 -/

/-- Every index the two methods use lies inside what it indexes, in binary64, for every program
and under every tolerance (negative or NaN included) and cap. For `n` variables and `m`
constraints, the revised method records only rows below `m`, columns below `n + m` and bases of
`m` sorted columns below `n + m`, and every factorization it can make has an `m × (n + m)`
tableau, `m` basic values and `n + m` reduced costs, so its pricing, ratio test, replacement and
scatter stay inside them. The two-phase method starts from `m + 1` rows of `n + 2m + 1` entries
with `m` basic columns below `n + 2m`; its rules choose a column below the eligible count and a
row below `m`; every phase, through every pivot, the drive-out and both objectives keep that
layout; and the values it extracts are one per column. -/
theorem methods_index_in_range (prog : LinearProgram Binary64) :
    (∀ s : Solver Binary64, ∀ ev ∈ (s.run prog).trace,
      ev.InRange prog.standardize.numConstraints prog.standardize.numColumns) ∧
    (∀ idx f, factorize prog.standardize (Basis.ofIndices prog.standardize idx) = some f →
      f.Fits prog.standardize.numConstraints prog.standardize.numColumns) ∧
    (Reference.Tableau.ofProblem prog.standardize).Layout prog.standardize.numColumns
      prog.standardize.numConstraints ∧
    ∀ (s : Reference.Method Binary64) (t : Reference.Tableau Binary64),
      t.Layout prog.standardize.numColumns prog.standardize.numConstraints →
      (∀ e c, t.enteringColumn s.tolerance e = some c → c < e) ∧
      (∀ c r, t.leavingRow s.tolerance c = some r → r < prog.standardize.numConstraints) ∧
      (∀ e ≤ prog.standardize.numColumns + prog.standardize.numConstraints, ∀ fuel,
        (s.iterate e fuel t).2.Layout prog.standardize.numColumns
          prog.standardize.numConstraints) ∧
      (s.phaseOne t).2.Layout prog.standardize.numColumns prog.standardize.numConstraints ∧
      (s.driveOut t).Layout prog.standardize.numColumns prog.standardize.numConstraints ∧
      (s.phaseTwo prog.standardize t).2.Layout prog.standardize.numColumns
        prog.standardize.numConstraints ∧
      (Reference.Method.basicValues t).length = prog.standardize.numColumns := by
  have hP := prog.shaped_standardize
  refine ⟨fun s => s.run_inRange prog, fun _ _ hf => factorize_fits hP hf,
    Reference.Tableau.layout_ofProblem hP, fun s t h => ?_⟩
  exact ⟨fun _ _ hc => Reference.Tableau.enteringColumn_lt hc,
    fun _ _ hr => h.numRows ▸ Reference.Tableau.leavingRow_lt hr,
    fun _ he fuel => s.iterate_layout he fuel t h, s.phaseOne_layout h, s.driveOut_layout h,
    s.phaseTwo_layout hP.costs h, (Reference.Method.length_basicValues t).trans h.numColumns_eq⟩

end RevisedSimplex
