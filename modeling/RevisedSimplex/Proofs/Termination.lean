import Mathlib
import RevisedSimplex.Proofs.Objective
import RevisedSimplex.Proofs.IterationCap

/-! # Termination on nondegenerate problems

An augmented problem is nondegenerate when every feasible basis has a positive basic solution
(`StandardForm.Nondegenerate`). Then the least ratio of every pivot is positive, and the objective
falls strictly at every pivot of a run (`Solver.Reachable.objective_lt`). A run records the slack
basis and the basis after each pivot (`Run.bases`). Their objectives fall strictly, so no sorted
list of basis columns is recorded twice; they are sorted lists of `m` distinct columns among
`n + m`, so there are at most `(n + m).choose m` of them. The run without a cap therefore stops on
its own, with a result or a singular basis, after at most that many iterations.
-/

open Matrix

namespace RevisedSimplex

/-- The basis an event records: the slack basis, or the basis after a pivot. -/
def Event.basis? {α : Type} : Event α → Option (List ℕ)
  | .initialized b => some b
  | .basisUpdated _ _ b => some b
  | .infeasible _ | .reducedCosts _ _ | .iterationStarted _ _ | .ratio _ _
  | .leavingCandidate _ _ | .unbounded _ | .optimal _ _ => none

/-- The bases a run records, in order: the slack basis, then the basis after each pivot. -/
def Run.bases {α : Type} (r : Run α) : List (List ℕ) := r.trace.filterMap Event.basis?

section Round

variable {α : Type} [Scalar α] (p : StandardForm α) (f : Factorization α) (e : ℕ)

theorem filterMap_basis_ratioTest : (ratioTest p f e).2.filterMap Event.basis? = [] :=
  List.filterMap_eq_nil_iff.mpr fun ev hev => by
    obtain ⟨row, q, rfl | rfl⟩ := ratioTest_events f e p ev hev <;> rfl

theorem filterMap_basis_round (μ : α) (rc : List α) (k e' : ℕ) (tail : List (Event α)) :
    (Event.reducedCosts μ rc :: .iterationStarted k e' :: (ratioTest p f e).2 ++ tail).filterMap
      Event.basis? = tail.filterMap Event.basis? := by
  simp only [List.cons_append, List.filterMap_cons, List.filterMap_append,
    filterMap_basis_ratioTest, List.nil_append, Event.basis?]

theorem countP_round (μ : α) (rc : List α) (k e' : ℕ) (tail : List (Event α)) :
    (Event.reducedCosts μ rc :: .iterationStarted k e' :: (ratioTest p f e).2 ++ tail).countP
      Event.startsIteration = tail.countP Event.startsIteration + 1 := by
  simp only [List.cons_append, List.countP_cons, List.countP_append, Solver.countP_ratioTest,
    Event.startsIteration]
  simp

end Round

namespace StandardForm

/-- Every nonsingular basis of `m` distinct columns with `B⁻¹ b ≥ 0` has `B⁻¹ b > 0`. -/
def Nondegenerate (p : StandardForm ℚ) : Prop :=
  ∀ idx, DistinctColumns p.numConstraints p.numColumns idx → (p.basisMatrix idx).det ≠ 0 →
    0 ≤ (p.basisMatrix idx)⁻¹ *ᵥ p.rhsVector → ∀ k, 0 < ((p.basisMatrix idx)⁻¹ *ᵥ p.rhsVector) k

theorem FeasibleBasis.ratio_pos {p : StandardForm ℚ} {idx : List ℕ} {f : Factorization ℚ}
    (hnd : p.Nondegenerate) (hB : p.FeasibleBasis idx) (hf : f.Exact p idx) {e r : ℕ}
    (hr : (ratioTest p f e).1 = some r) : 0 < f.ratio e r := by
  obtain ⟨hrm, hpos, -⟩ := ratioTest_eq_some hr
  have hx := hnd idx hB.distinct hB.det_ne_zero hB.nonneg ⟨r, hrm⟩
  rw [← hf.inverse_eq, ← hf.basicSolution, vecOf_apply] at hx
  exact div_pos hx hpos

/-- Feasible bases whose objectives fall strictly from `idx` on: `L` continues `idx`. -/
structure Descent (p : StandardForm ℚ) (idx : List ℕ) (L : List (List ℕ)) : Prop where
  feasible : ∀ B ∈ L, p.FeasibleBasis B
  falls : (idx :: L).Pairwise fun a b => p.objective b < p.objective a

theorem Descent.nil (p : StandardForm ℚ) (idx : List ℕ) : p.Descent idx [] :=
  ⟨by simp, List.pairwise_singleton _ _⟩

theorem Descent.cons {p : StandardForm ℚ} {idx idx' : List ℕ} {L : List (List ℕ)}
    (hB : p.FeasibleBasis idx') (hlt : p.objective idx' < p.objective idx) (h : p.Descent idx' L) :
    p.Descent idx (idx' :: L) := by
  refine ⟨?_, List.pairwise_cons.mpr ⟨?_, h.falls⟩⟩
  · rintro B (_ | ⟨_, hB'⟩)
    · exact hB
    · exact h.feasible B hB'
  · rintro B (_ | ⟨_, hB'⟩)
    · exact hlt
    · exact ((List.pairwise_cons.mp h.falls).1 B hB').trans hlt

theorem Descent.length_le_choose {p : StandardForm ℚ} {idx : List ℕ} {L : List (List ℕ)}
    (hB : p.FeasibleBasis idx) (h : p.Descent idx L) :
    (idx :: L).Nodup ∧ (idx :: L).length ≤ p.numColumns.choose p.numConstraints := by
  have hall : ∀ B ∈ idx :: L, p.FeasibleBasis B := by
    rintro B (_ | ⟨_, hB'⟩)
    · exact hB
    · exact h.feasible B hB'
  refine ⟨h.falls.imp fun hlt heq => by subst heq; exact lt_irrefl _ hlt, ?_⟩
  refine DistinctColumns.length_le_choose (fun B hB' => (hall B hB').distinct) ?_
  refine h.falls.imp_of_mem fun ha hb hlt hperm => ?_
  have heq := hperm.eq_of_pairwise' ((hall _ ha).sorted.imp le_of_lt) ((hall _ hb).sorted.imp le_of_lt)
  subst heq
  exact lt_irrefl _ hlt

end StandardForm

namespace Solver

variable {s : Solver ℚ} {prog : LinearProgram ℚ}

/-- On a nondegenerate problem every pivot of a run lowers the objective strictly. -/
theorem Reachable.objective_lt (hnd : prog.standardize.Nondegenerate) {idx idx' : List ℕ}
    {f : Factorization ℚ} {r : ℕ} (h : s.Reachable prog.standardize idx f)
    (hpiv : s.Pivots prog.standardize idx f r idx') :
    prog.standardize.objective idx' < prog.standardize.objective idx := by
  obtain ⟨hB, hf⟩ := h.feasibleBasis
  obtain ⟨e, he, hobj, -, hrc⟩ := h.objective_pivot hpiv
  obtain ⟨e', he', hr, -⟩ := hpiv
  obtain rfl : e' = e := Option.some.inj (he'.symm.trans he)
  have hθ := hB.ratio_pos hnd hf hr
  rw [hobj]
  nlinarith

/-- What a loop from the basis `idx` records after the events before it: the bases `L` of the
new events `new` continue `idx` with strictly falling objectives, the new events start at most
one iteration more than they record bases, the cap `limit` stops the loop only after `limit`
iterations in all, and the problem is never reported invalid. -/
structure Records (p : StandardForm ℚ) (limit c : ℕ) (idx : List ℕ) (new : List (Event ℚ))
    (L : List (List ℕ)) (result : Except SolveError (Outcome ℚ)) : Prop where
  bases : new.filterMap Event.basis? = L
  descent : p.Descent idx L
  iterations : new.countP Event.startsIteration ≤ L.length + 1
  atCap : ∀ k, result = .error (.iterationLimit k) → limit ≤ c + L.length
  valid : ∀ x, result ≠ .error (.invalidProblem x)

theorem Records.stop {p : StandardForm ℚ} {limit c : ℕ} {idx : List ℕ} {new : List (Event ℚ)}
    {result : Except SolveError (Outcome ℚ)} (hbases : new.filterMap Event.basis? = [])
    (hiter : new.countP Event.startsIteration ≤ 1)
    (hcap : ∀ k, result = .error (.iterationLimit k) → limit ≤ c)
    (hvalid : ∀ x, result ≠ .error (.invalidProblem x)) :
    Records p limit c idx new [] result :=
  ⟨hbases, StandardForm.Descent.nil p idx, hiter, hcap, hvalid⟩

theorem loop_records (hnd : prog.standardize.Nondegenerate) (limit : ℕ) :
    ∀ (F : ℕ) {idx : List ℕ} {f : Factorization ℚ} (sv : List ℚ × ℚ) (c : ℕ)
      (ev : List (Event ℚ)), s.Reachable prog.standardize idx f → limit + 1 ≤ c + F →
      ∃ new L, (s.loop prog.standardize limit F (Basis.ofIndices prog.standardize idx) f sv c
          ev).trace = ev.reverse ++ new ∧
        Records prog.standardize limit c idx new L
          (s.loop prog.standardize limit F (Basis.ofIndices prog.standardize idx) f sv c ev).result
  | 0, idx, f, sv, c, ev, _, hF =>
    ⟨[], [], by simp [Solver.loop], .stop rfl (by simp)
      (fun k hk => by simp [Solver.loop] at hk; omega) (fun x => by simp [Solver.loop])⟩
  | F + 1, idx, f, (vals, v), c, ev, h, hF => by
    rw [loop_succ]
    cases he : (selectEntering f.reducedCosts).accepted s.tolerance with
    | none =>
      exact ⟨_, [], rfl, .stop (by simp [Event.basis?]) (by simp [Event.startsIteration])
        (by simp) (by simp)⟩
    | some e =>
      dsimp only
      by_cases hc : limit ≤ c
      · rw [if_pos hc]
        exact ⟨_, [], rfl, .stop (by simp [Event.basis?]) (by simp [Event.startsIteration])
          (fun k hk => by simp only [Except.error.injEq, SolveError.iterationLimit.injEq] at hk; omega)
          (by simp)⟩
      rw [if_neg hc]
      set rc := Event.reducedCosts (selectEntering f.reducedCosts).minReducedCost f.reducedCosts
      set ratios := (ratioTest prog.standardize f e).2
      cases hr : (ratioTest prog.standardize f e).1 with
      | none =>
        dsimp only
        refine ⟨rc :: .iterationStarted (c + 1) e :: ratios ++ [.unbounded (c + 1)], [], by simp,
          .stop ?_ ?_ (by simp) (by simp)⟩
        · rw [filterMap_basis_round]
          rfl
        · rw [countP_round]
          rfl
      | some r =>
        dsimp only
        rw [Basis.replace_ofIndices]
        have hpiv : s.Pivots prog.standardize idx f r (sortAscending (idx.set r e)) :=
          ⟨e, he, hr, rfl⟩
        have hB' := hpiv.feasibleBasis h.feasibleBasis.1 h.feasibleBasis.2
        have hlt := h.objective_lt hnd hpiv
        set bu := Event.basisUpdated (c + 1) r
          (Basis.ofIndices prog.standardize (sortAscending (idx.set r e))).indices
        cases hf' : factorize prog.standardize
            (Basis.ofIndices prog.standardize (sortAscending (idx.set r e))) with
        | none =>
          -- the singular basis is recorded, and it is a feasible basis below `idx`
          dsimp only
          refine ⟨rc :: .iterationStarted (c + 1) e :: ratios ++ [bu], [sortAscending (idx.set r e)],
            by simp, ⟨?_, .cons hB' hlt (StandardForm.Descent.nil _ _), ?_, by simp, by simp⟩⟩
          · rw [filterMap_basis_round]
            rfl
          · rw [countP_round]
            simp [bu, Event.startsIteration]
        | some f' =>
          dsimp only
          obtain ⟨new, L, htrace, hrec⟩ := loop_records hnd limit F _ (c + 1) _
            (Reachable.step h hpiv (by rw [hf'])) (by omega)
          refine ⟨rc :: .iterationStarted (c + 1) e :: ratios ++ bu :: new,
            sortAscending (idx.set r e) :: L, by rw [htrace]; simp, ⟨?_, ?_, ?_, ?_, ?_⟩⟩
          · rw [filterMap_basis_round, List.filterMap_cons, hrec.bases]
            rfl
          · exact .cons hB' hlt hrec.descent
          · have := hrec.iterations
            rw [countP_round, List.countP_cons]
            simp only [bu, Event.startsIteration, List.length_cons, Bool.false_eq_true, if_false]
            omega
          · intro k hk
            have := hrec.atCap k hk
            simp only [List.length_cons]
            omega
          · exact hrec.valid

end Solver

/-- Over the rationals, on a nondegenerate augmented problem (every nonsingular basis with
`B⁻¹ b ≥ 0` has `B⁻¹ b > 0`) and for every tolerance, the revised method without a cap stops on
its own: with a result, or on a singular basis. The bases it records, the slack basis and one per
pivot, are all different, since the objective falls strictly at every pivot; so there are at
most `(n + m).choose m` of them, and the run starts at most that many iterations. -/
theorem run_terminates_of_nondegenerate (tol : ℚ) (prog : LinearProgram ℚ)
    (hnd : prog.standardize.Nondegenerate) :
    ((∃ o, ((Solver.mk tol none).run prog).result = .ok o) ∨
      ∃ B, ((Solver.mk tol none).run prog).result = .error (.singularBasis B)) ∧
    ((Solver.mk tol none).run prog).bases.Nodup ∧
    ((Solver.mk tol none).run prog).bases.length ≤
      (prog.numVariables + prog.numConstraints).choose prog.numConstraints ∧
    ((Solver.mk tol none).run prog).iterations ≤
      (prog.numVariables + prog.numConstraints).choose prog.numConstraints := by
  have hN : prog.standardize.numColumns = prog.numVariables + prog.numConstraints := rfl
  have hone : 1 ≤ (prog.numVariables + prog.numConstraints).choose prog.numConstraints :=
    Nat.choose_pos (by omega)
  -- a run that stops at the slack basis records it alone and starts no iteration
  have hslack : ∀ (R : Run ℚ), R.trace.filterMap Event.basis? =
      [(Basis.initial prog.standardize).indices] → R.trace.countP Event.startsIteration = 0 →
      R.bases.Nodup ∧ R.bases.length ≤
        (prog.numVariables + prog.numConstraints).choose prog.numConstraints ∧
      R.iterations ≤ (prog.numVariables + prog.numConstraints).choose prog.numConstraints := by
    intro R hb hi
    rw [Run.bases, hb, Run.iterations, hi]
    exact ⟨List.nodup_singleton _, hone, Nat.zero_le _⟩
  simp only [Solver.run, Option.getD_none]
  cases hf : factorize prog.standardize (Basis.initial prog.standardize) with
  | none => exact ⟨.inr ⟨_, rfl⟩, hslack _ rfl rfl⟩
  | some f =>
    dsimp only
    split
    · exact ⟨.inl ⟨_, rfl⟩, hslack _ rfl rfl⟩
    next hfeas =>
    set L₀ := Nat.pow 2 (prog.standardize.numVariables + 2 * prog.standardize.numConstraints)
    have h₀ : (Solver.mk tol none).Reachable prog.standardize
        (Basis.initial prog.standardize).indices f := .slack hf (by simpa using hfeas)
    obtain ⟨new, L, htrace, hrec⟩ := Solver.loop_records hnd L₀ (L₀ + 1)
      (solution prog.standardize (Basis.initial prog.standardize) f) 0
      [Event.initialized (Basis.initial prog.standardize).indices].reverse h₀ (by omega)
    rw [show Basis.ofIndices prog.standardize (Basis.initial prog.standardize).indices =
      Basis.initial prog.standardize from rfl] at htrace hrec
    generalize (Solver.mk tol none).loop prog.standardize L₀ (L₀ + 1) _ f _ 0 _ = R at htrace hrec ⊢
    obtain ⟨hnodup, hlen⟩ := hrec.descent.length_le_choose h₀.feasibleBasis.1
    rw [hN, LinearProgram.numConstraints_standardize] at hlen
    have hbases : R.bases = (Basis.initial prog.standardize).indices :: L := by
      rw [Run.bases, htrace, List.filterMap_append, hrec.bases]
      rfl
    refine ⟨?_, hbases ▸ hnodup, hbases ▸ hlen, ?_⟩
    · -- the cap `2 ^ (n + 2m)` lies beyond every descent
      have hcap : (prog.numVariables + prog.numConstraints).choose prog.numConstraints ≤ L₀ :=
        (Nat.choose_le_two_pow _ _).trans (Nat.pow_le_pow_right (by norm_num) (by simp; omega))
      rcases hres : R.result with err | o
      · cases err with
        | invalidProblem x => exact absurd hres (hrec.valid x)
        | singularBasis B => exact .inr ⟨B, rfl⟩
        | iterationLimit k =>
          have := hrec.atCap k hres
          simp only [List.length_cons] at hlen
          omega
      · exact .inl ⟨o, rfl⟩
    · have hit := hrec.iterations
      simp only [List.length_cons] at hlen
      rw [Run.iterations, htrace, List.countP_append]
      simp [Event.startsIteration]
      omega

/-- `min -x - 2y` with `x + y + s = 4`: every basis is a single column of ones, with value `4`. -/
def sharedBudget : LinearProgram ℚ where
  objective := [-1, -2]
  constraints := [[1, 1]]
  rhs := [4]
  rows_eq := rfl
  cols_eq := by decide

theorem sharedBudget_nondegenerate : sharedBudget.standardize.Nondegenerate := by
  intro idx hidx _ _ k
  obtain ⟨j, rfl⟩ := List.length_eq_one_iff.mp hidx.length_eq
  have hj : j < 3 := hidx.lt j (List.mem_singleton_self j)
  have hB : sharedBudget.standardize.basisMatrix [j] = 1 := by
    ext a b
    fin_cases a
    fin_cases b
    interval_cases j <;> decide
  rw [hB, inv_one, one_mulVec]
  fin_cases k
  decide

/-- The shared budget is solved in one pivot: `y` enters in place of the slack, and the run
records the two bases `[2]` and `[1]`, of the three there are. -/
theorem run_terminates_sharedBudget :
    sharedBudget.standardize.Nondegenerate ∧
      ((Solver.mk 0 none).run sharedBudget).result = .ok (.optimal (-8) [0, 4, 0] [1, 0, 2] 1) ∧
      ((Solver.mk 0 none).run sharedBudget).bases = [[2], [1]] ∧
      ((Solver.mk 0 none).run sharedBudget).bases.Nodup ∧
      ((Solver.mk 0 none).run sharedBudget).iterations ≤ 3 := by
  have h := run_terminates_of_nondegenerate 0 sharedBudget sharedBudget_nondegenerate
  exact ⟨sharedBudget_nondegenerate, by decide +kernel, by decide +kernel, h.2.1, h.2.2.2⟩

end RevisedSimplex
