import Mathlib
import RevisedSimplex.Proofs.IterationCap
import RevisedSimplex.Proofs.BlandRule

/-! # The shape of a trace

Every run records the slack basis first. Then either the slack basis is infeasible, or the run
records complete rounds — the reduced costs, the start of an iteration with its entering column,
the ratio test, and the new basis — and ends with the reduced costs and the optimum, or with a
last round whose ratio test finds no leaving candidate. A ratio test records its rows in
increasing order, each passing row with its ratio, and a leaving candidate after each row that
improves on the best ratio so far; the leaving row is the last candidate, and the new basis is
the old one with that position replaced and sorted.

A run can also stop with an error: at its cap, right after the reduced costs, or on a singular
basis, right after the basis it could not invert (`Run.StopsWithError`). With these two ends the
grammar describes every run (`Solver.run_shape`); without them it does not
(`capped_trace_not_endsWithStatus`).
-/

namespace RevisedSimplex

variable {α : Type}

/-- The records of a ratio test from the rows that pass its positivity test: the ratio of each,
and after it a leaving-candidate record of the same row and ratio when the flag is set. -/
def ratioRecords : List (ℕ × α × Bool) → List (Event α)
  | [] => []
  | (row, q, better) :: rs =>
    .ratio row q :: ((if better then [.leavingCandidate row q] else []) ++ ratioRecords rs)

/-- The rows of a ratio test that became leaving candidates, with their ratios. -/
def leavingCandidates (rs : List (ℕ × α × Bool)) : List (ℕ × α) :=
  (rs.filter (·.2.2)).map fun r => (r.1, r.2.1)

theorem ratioRecords_append (rs rs' : List (ℕ × α × Bool)) :
    ratioRecords (rs ++ rs') = ratioRecords rs ++ ratioRecords rs' := by
  induction rs with
  | nil => rfl
  | cons r rs ih => obtain ⟨row, q, better⟩ := r; simp [ratioRecords, ih]

theorem mem_ratioRecords {rs : List (ℕ × α × Bool)} {ev : Event α} (h : ev ∈ ratioRecords rs) :
    ∃ x ∈ rs, ev = .ratio x.1 x.2.1 ∨ ev = .leavingCandidate x.1 x.2.1 := by
  induction rs with
  | nil => cases h
  | cons x rs ih =>
    obtain ⟨row, q, better⟩ := x
    simp only [ratioRecords, List.mem_cons, List.mem_append] at h
    rcases h with rfl | h | h
    · exact ⟨_, List.mem_cons_self, .inl rfl⟩
    · split_ifs at h
      · rw [List.mem_singleton.mp h]
        exact ⟨_, List.mem_cons_self, .inr rfl⟩
      · cases h
    · obtain ⟨y, hy, hev⟩ := ih h
      exact ⟨y, List.mem_cons_of_mem _ hy, hev⟩

theorem leavingCandidates_append (rs rs' : List (ℕ × α × Bool)) :
    leavingCandidates (rs ++ rs') = leavingCandidates rs ++ leavingCandidates rs' := by
  simp [leavingCandidates]

variable [Scalar α]

/-- A ratio test as the grammar allows it: rows strictly increase, and every leaving candidate's
ratio is below the one before. -/
structure RatioLog (rs : List (ℕ × α × Bool)) : Prop where
  rows_increase : (rs.map (·.1)).Pairwise (· < ·)
  candidates_decrease : ((leavingCandidates rs).map (·.2)).IsChain fun a b => b < a

/-- `Rounds B₀ K B evs`: `evs` records `K` complete rounds from the basis `B₀`, the last of which
leaves the basis `B`. Round `k` records the reduced costs, the start of iteration `k` with its
entering column `e`, a ratio test, and the basis with the last candidate's position set to `e`,
sorted. -/
inductive Rounds (B₀ : List ℕ) : ℕ → List ℕ → List (Event α) → Prop
  | nil : Rounds B₀ 0 B₀ []
  | snoc {K : ℕ} {B B' : List ℕ} {evs : List (Event α)} {rs : List (ℕ × α × Bool)} {l : ℕ}
      (h : Rounds B₀ K B evs) (μ : α) (rc : List α) (e : ℕ) (hlog : RatioLog rs)
      (hl : (leavingCandidates rs).getLast?.map (·.1) = some l)
      (hperm : (B.set l e).Perm B') (hsorted : B'.Pairwise (· ≤ ·)) :
      Rounds B₀ (K + 1) B' (evs ++ .reducedCosts μ rc :: .iterationStarted (K + 1) e ::
        (ratioRecords rs ++ [.basisUpdated (K + 1) l B']))

/-- How a run with `K` complete rounds ends with a status: the reduced costs and the optimum
after `K` iterations, or a last round `K + 1` whose ratio test has no leaving candidate. -/
inductive Finish (K : ℕ) : List (Event α) → Except SolveError (Outcome α) → Prop
  | optimal (μ : α) (rc : List α) (v : α) (sol rc' : List α) :
      Finish K [.reducedCosts μ rc, .optimal K v] (.ok (.optimal v sol rc' K))
  | unbounded (μ : α) (rc : List α) (e : ℕ) {rs : List (ℕ × α × Bool)} (hlog : RatioLog rs)
      (hnone : leavingCandidates rs = []) (v : α) (sol rc' : List α) :
      Finish K (.reducedCosts μ rc :: .iterationStarted (K + 1) e ::
        (ratioRecords rs ++ [.unbounded (K + 1)])) (.ok (.unbounded v sol rc' (K + 1)))

/-- How a run with `K` complete rounds from the basis `B` stops with an error: a column accepted
at the cap `K`, or a round whose new basis is singular. -/
inductive Abort (K : ℕ) (B : List ℕ) : List (Event α) → Except SolveError (Outcome α) → Prop
  | atCap (μ : α) (rc : List α) : Abort K B [.reducedCosts μ rc] (.error (.iterationLimit K))
  | singular (μ : α) (rc : List α) (e : ℕ) {rs : List (ℕ × α × Bool)} {l : ℕ} {B' : List ℕ}
      (hlog : RatioLog rs) (hl : (leavingCandidates rs).getLast?.map (·.1) = some l)
      (hperm : (B.set l e).Perm B') (hsorted : B'.Pairwise (· ≤ ·)) :
      Abort K B (.reducedCosts μ rc :: .iterationStarted (K + 1) e ::
        (ratioRecords rs ++ [.basisUpdated (K + 1) l B'])) (.error (.singularBasis B'))

/-- The trace of a run that ends with a status: the slack basis `B₀`, then its infeasibility, or
complete rounds and an optimal or unbounded end. -/
def Run.EndsWithStatus (B₀ : List ℕ) (r : Run α) : Prop :=
  (∃ bs, r.trace = [.initialized B₀, .infeasible bs] ∧ r.result = .ok .infeasible) ∨
    ∃ K B evs fin, Rounds B₀ K B evs ∧ Finish K fin r.result ∧ r.trace = .initialized B₀ :: (evs ++ fin)

/-- The trace of a run that stops with an error: the slack basis `B₀` alone when it is singular,
or complete rounds and a stop at the cap or on a singular basis. -/
def Run.StopsWithError (B₀ : List ℕ) (r : Run α) : Prop :=
  (r.trace = [.initialized B₀] ∧ r.result = .error (.singularBasis B₀)) ∨
    ∃ K B evs fin, Rounds B₀ K B evs ∧ Abort K B fin r.result ∧ r.trace = .initialized B₀ :: (evs ++ fin)

theorem RatioLog.snoc {rs : List (ℕ × α × Bool)} (h : RatioLog rs) {row : ℕ} {q : α} {better : Bool}
    (hrow : ∀ x ∈ rs.map (·.1), x < row)
    (hq : better = true → ∀ c ∈ (leavingCandidates rs).getLast?, q < c.2) :
    RatioLog (rs ++ [(row, q, better)]) where
  rows_increase := by
    rw [List.map_append, List.pairwise_append]
    refine ⟨h.rows_increase, List.pairwise_singleton _ _, fun x hx y hy => ?_⟩
    simp only [List.map_cons, List.map_nil, List.mem_singleton] at hy
    subst hy
    exact hrow x hx
  candidates_decrease := by
    cases better with
    | false => simpa [leavingCandidates] using h.candidates_decrease
    | true =>
      rw [leavingCandidates_append, List.map_append]
      refine h.candidates_decrease.append (List.isChain_singleton _) fun x hx y hy => ?_
      simp [leavingCandidates] at hy
      subst hy
      rw [List.getLast?_map] at hx
      obtain ⟨c, hc, rfl⟩ := Option.mem_map.mp hx
      exact hq rfl c hc

theorem ratioTest_records (p : StandardForm α) (f : Factorization α) (e : ℕ) :
    ∃ rs, RatioLog rs ∧ (∀ x ∈ rs.map (·.1), x < p.numConstraints) ∧
      (ratioTest p f e).2 = ratioRecords rs ∧
      (ratioTest p f e).1 = (leavingCandidates rs).getLast?.map (·.1) := by
  -- after the first `k` rows: the best row is the last candidate, and every row read is below `k`
  let P : ℕ → Option (ℕ × α) × List (Event α) → Prop := fun k st =>
    ∃ rs, RatioLog rs ∧ (∀ x ∈ rs.map (·.1), x < k) ∧ st.2 = ratioRecords rs ∧
      st.1 = (leavingCandidates rs).getLast?
  have hfold : P p.numConstraints ((List.range p.numConstraints).foldl
      (fun (st : Option (ℕ × α) × List (Event α)) row =>
        ((ratioStep f e st.1 row).1, st.2 ++ (ratioStep f e st.1 row).2)) (none, [])) := by
    refine Reference.Tableau.foldl_range_invariant P _ _ ⟨[], ⟨by simp, by simp [leavingCandidates]⟩,
      by simp, rfl, rfl⟩ ?_
    rintro k - ⟨best, evs⟩ ⟨rs, hlog, hlt, rfl, rfl⟩
    have hlt' : ∀ x ∈ rs.map (·.1), x < k + 1 := fun x hx => Nat.lt_succ_of_lt (hlt x hx)
    have hsnoc : ∀ (q : α) (better : Bool), ∀ x ∈ (rs ++ [(k, q, better)]).map (·.1), x < k + 1 := by
      intro q better x hx
      simp only [List.map_append, List.map_cons, List.map_nil, List.mem_append,
        List.mem_singleton] at hx
      rcases hx with hx | hx
      · exact hlt' x hx
      · omega
    unfold ratioStep
    dsimp only
    split
    · split
      · next hbeats =>
        refine ⟨rs ++ [(k, f.basicSolution.getD k 0 / f.tableau.get k e, true)],
          hlog.snoc hlt fun _ c hc => ?_, hsnoc _ _, ?_, ?_⟩
        · rw [Option.mem_def.mp hc] at hbeats
          simpa [beats] using hbeats
        · simp [ratioRecords_append, ratioRecords]
        · simp [leavingCandidates]
      · refine ⟨rs ++ [(k, f.basicSolution.getD k 0 / f.tableau.get k e, false)],
          hlog.snoc hlt fun h => absurd h Bool.false_ne_true, hsnoc _ _, ?_, ?_⟩
        · simp [ratioRecords_append, ratioRecords]
        · simp [leavingCandidates]
    · exact ⟨rs, hlog, hlt', by simp, rfl⟩
  obtain ⟨rs, hlog, hlt, hevs, hbest⟩ := hfold
  refine ⟨rs, hlog, hlt, ?_, ?_⟩
  · simp only [ratioTest]
    exact hevs
  · simp only [ratioTest]
    rw [hbest]

/-- Complete rounds from `B₀`, then an end with a status or a stop with an error. -/
def Run.ByRounds (B₀ : List ℕ) (r : Run α) : Prop :=
  ∃ K B evs fin, Rounds B₀ K B evs ∧ (Finish K fin r.result ∨ Abort K B fin r.result) ∧
    r.trace = .initialized B₀ :: (evs ++ fin)

namespace Solver

variable (s : Solver α) (p : StandardForm α)

theorem loop_byRounds (B₀ : List ℕ) (L : ℕ) :
    ∀ (F : ℕ) (b : Basis α) (f : Factorization α) (vals : List α) (v : α) (c : ℕ)
      (ev evs : List (Event α)), ev.reverse = .initialized B₀ :: evs →
      Rounds B₀ c b.indices evs → c ≤ L → L - c < F →
      (s.loop p L F b f (vals, v) c ev).ByRounds B₀
  | 0, _, _, _, _, _, _, _, _, _, _, hF => absurd hF (Nat.not_lt_zero _)
  | F + 1, b, f, vals, v, c, ev, evs, hev, hrounds, hc, hF => by
    rw [loop_succ]
    cases hacc : (selectEntering f.reducedCosts).accepted s.tolerance with
    | none =>
      dsimp only
      exact ⟨c, b.indices, evs, _, hrounds, .inl (.optimal (selectEntering f.reducedCosts).minReducedCost
        f.reducedCosts _ _ _), by simp [hev]⟩
    | some e =>
      dsimp only
      by_cases hcap : L ≤ c
      · rw [if_pos hcap]
        exact ⟨c, b.indices, evs, _, hrounds,
          .inr (.atCap (selectEntering f.reducedCosts).minReducedCost f.reducedCosts), by simp [hev]⟩
      rw [if_neg hcap]
      obtain ⟨rs, hlog, -, hevs, hbest⟩ := ratioTest_records p f e
      set μ := (selectEntering f.reducedCosts).minReducedCost
      cases hr : (ratioTest p f e).1 with
      | none =>
        have hnone : leavingCandidates rs = [] := by simpa [hr] using hbest.symm
        dsimp only
        refine ⟨c, b.indices, evs, _, hrounds,
          .inl (.unbounded μ f.reducedCosts e hlog hnone v vals f.reducedCosts), ?_⟩
        simp [hevs, hev]
      | some r =>
        -- the leaving row is the last candidate, and the new basis is the old one set and sorted
        have hl : (leavingCandidates rs).getLast?.map (·.1) = some r := hbest.symm.trans hr
        have hperm := (sortAscending_perm (b.indices.set r e)).symm
        have hsorted := pairwise_le_sortAscending (b.indices.set r e)
        dsimp only
        cases hf : factorize p (b.replace r e p) with
        | none =>
          dsimp only
          refine ⟨c, b.indices, evs, _, hrounds,
            .inr (.singular μ f.reducedCosts e hlog hl hperm hsorted), ?_⟩
          simp [hevs, hev]
        | some f' =>
          dsimp only
          refine loop_byRounds B₀ L F _ f' _ _ (c + 1) _ _ ?_
            (hrounds.snoc μ f.reducedCosts e hlog hl hperm hsorted) (by omega) (by omega)
          simp [hevs, hev]

end Solver

/-- Every run, under every tolerance and cap, follows the grammar of traces from the slack basis:
it ends with a status, or stops with an error. -/
theorem Solver.run_shape (s : Solver α) (prog : LinearProgram α) :
    (s.run prog).EndsWithStatus ((List.range prog.numConstraints).map (prog.numVariables + ·)) ∨
      (s.run prog).StopsWithError ((List.range prog.numConstraints).map (prog.numVariables + ·)) := by
  have hB₀ : (Basis.initial prog.standardize).indices =
      (List.range prog.numConstraints).map (prog.numVariables + ·) := rfl
  unfold Solver.run
  dsimp only
  cases hf : factorize prog.standardize (Basis.initial prog.standardize) with
  | none => exact .inr (.inl ⟨by rw [hB₀], by rw [hB₀]⟩)
  | some f =>
    dsimp only
    split
    · exact .inl (.inl ⟨f.basicSolution, by rw [hB₀]; rfl, rfl⟩)
    · rcases hsol : solution prog.standardize (Basis.initial prog.standardize) f with ⟨vals, v⟩
      have hrun := s.loop_byRounds prog.standardize (Basis.initial prog.standardize).indices
        (s.maxIterations.getD (Nat.pow 2 (prog.numVariables + 2 * prog.numConstraints))) _
        (Basis.initial prog.standardize) f vals v 0 [.initialized _] [] rfl .nil (Nat.zero_le _)
        (Nat.lt_succ_self _)
      rw [hB₀] at hrun
      obtain ⟨K, B, evs, fin, hr, hend | hend, htrace⟩ := hrun
      · exact .inl (.inr ⟨K, B, evs, fin, hr, hend, htrace⟩)
      · exact .inr (.inr ⟨K, B, evs, fin, hr, hend, htrace⟩)

/-- Without its error ends the grammar misses runs: capped at no iteration, the open ray stops
after the reduced costs of the slack basis. -/
theorem capped_trace_not_endsWithStatus :
    ¬ ((Solver.mk (0 : ℚ) (some 0)).run openRay).EndsWithStatus [2] := by
  have hres : ((Solver.mk (0 : ℚ) (some 0)).run openRay).result = .error (.iterationLimit 0) := by
    decide +kernel
  rintro (⟨bs, -, hinf⟩ | ⟨K, B, evs, fin, -, hfin, -⟩)
  · rw [hres] at hinf
    cases hinf
  · rw [hres] at hfin
    cases hfin

end RevisedSimplex
