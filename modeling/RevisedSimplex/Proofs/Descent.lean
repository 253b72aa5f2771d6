import Mathlib
import RevisedSimplex.Proofs.ParseSteps
import RevisedSimplex.Proofs.Lexing

/-! # The recursive descent: progress, fuel and the automaton

On tokens that close with the end token, every call of the descent that returns reads at least
one token, each round of a loop reads at least one, and no call moves past the end token. The
tokens left are then a measure of every call, and three calls a token are fuel enough
(`assignments_ne_outOfFuel`). The descent and the automaton `run` read the same documents and
report the same errors (`parse_eq_run`).
-/

namespace RevisedSimplex.Source

namespace Descent

variable {ts : List Token} {pos : ℕ}

/-! ## Positions -/

theorem drop_of_current {t : Token} (h : current ts pos = some t) :
    ts.drop pos = t :: ts.drop (pos + 1) := by
  obtain ⟨hlt, rfl⟩ := List.getElem?_eq_some_iff.mp h
  exact List.drop_eq_getElem_cons hlt

theorem drop_of_current_none (h : current ts pos = none) : ts.drop pos = [] :=
  List.drop_eq_nil_iff.mpr (List.getElem?_eq_none_iff.mp h)

theorem peekKind_of_current {t : Token} (h : current ts pos = some t) :
    peekKind ts pos = t.kind := by
  simp [peekKind, h]

theorem peekKind_of_current_none (h : current ts pos = none) : peekKind ts pos = .eof := by
  simp [peekKind, h]

theorem exists_current (h : peekKind ts pos ≠ .eof) :
    ∃ t, current ts pos = some t ∧ t.kind = peekKind ts pos := by
  cases hc : current ts pos with
  | none => exact absurd (peekKind_of_current_none hc) h
  | some t => exact ⟨t, rfl, (peekKind_of_current hc).symm⟩

theorem current_of_lt (h : pos < ts.length) : current ts pos ≠ none := by
  simp [current, h]

theorem lt_of_current {t : Token} (h : current ts pos = some t) : pos < ts.length :=
  (List.getElem?_eq_some_iff.mp h).1

theorem exists_current_of_lt (h : pos < ts.length) : ∃ t, current ts pos = some t :=
  Option.ne_none_iff_exists'.mp (current_of_lt h)

theorem drop_skipTrivia : ts.drop (skipTrivia ts pos) = (ts.drop pos).dropWhile Token.isTrivia := by
  have h := List.takeWhile_append_dropWhile (p := Token.isTrivia) (l := ts.drop pos)
  rw [skipTrivia, ← List.drop_drop]
  calc (ts.drop pos).drop ((ts.drop pos).takeWhile Token.isTrivia).length
      = ((ts.drop pos).takeWhile Token.isTrivia ++ (ts.drop pos).dropWhile Token.isTrivia).drop
          ((ts.drop pos).takeWhile Token.isTrivia).length := by rw [h]
    _ = _ := List.drop_left

theorem le_skipTrivia : pos ≤ skipTrivia ts pos := Nat.le_add_right _ _

theorem isTrivia_of_skipTrivia {t : Token} (h : current ts (skipTrivia ts pos) = some t) :
    t.isTrivia = false := by
  have hnot := List.head?_dropWhile_not Token.isTrivia (ts.drop pos)
  rw [← drop_skipTrivia, List.head?_drop] at hnot
  rw [current] at h
  simpa [h] using hnot

theorem skipTrivia_of_not_isTrivia (h : ∀ t, current ts pos = some t → t.isTrivia = false) :
    skipTrivia ts pos = pos := by
  cases hc : current ts pos with
  | none => simp [skipTrivia, drop_of_current_none hc]
  | some t => simp [skipTrivia, drop_of_current hc, h t hc]

@[simp] theorem skipTrivia_skipTrivia : skipTrivia ts (skipTrivia ts pos) = skipTrivia ts pos :=
  skipTrivia_of_not_isTrivia fun _ => isTrivia_of_skipTrivia

theorem run_skipTrivia (P : Phase) (hP : P.SkipsTrivia) (done : List Assignment) (pos : ℕ) :
    run done P (ts.drop (skipTrivia ts pos)) = run done P (ts.drop pos) := by
  rw [drop_skipTrivia]
  induction ts.drop pos with
  | nil => rfl
  | cons t l ih =>
    rw [List.dropWhile_cons]
    split
    · rename_i ht
      rw [ih, run_trivia hP (by simpa [Token.isTrivia] using ht)]
    · rfl

theorem expect_eq_ok {k : Token.Kind} {t : Token} {p' : ℕ} (h : expect ts k pos = .ok (t, p')) :
    current ts (skipTrivia ts pos) = some t ∧ t.kind = k ∧ p' = skipTrivia ts pos + 1 := by
  simp only [expect] at h
  split at h
  · split_ifs at h with hk
    cases h
    exact ⟨by assumption, hk, rfl⟩
  · cases h

theorem expect_of_current {k : Token.Kind} {t : Token} (h : current ts (skipTrivia ts pos) = some t)
    (hk : t.kind = k) : expect ts k pos = .ok (t, skipTrivia ts pos + 1) := by
  simp [expect, h, hk]

theorem expect_of_current_ne {k : Token.Kind} {t : Token}
    (h : current ts (skipTrivia ts pos) = some t) (hk : t.kind ≠ k) :
    expect ts k pos = .error (.at (.kind k) t) := by
  simp [expect, h, hk]

theorem expect_of_current_none {k : Token.Kind} (h : current ts (skipTrivia ts pos) = none) :
    expect ts k pos = .error .endOfInput := by
  simp [expect, h]

/-- The current token opens a list that `close` closes. -/
def Opens (ts : List Token) (pos : ℕ) (close : Token.Kind) : Prop :=
  peekKind ts pos = .lbracket ∧ close = .rbracket ∨ peekKind ts pos = .lparen ∧ close = .rparen

theorem Opens.peekKind_ne_eof {close : Token.Kind} (h : Opens ts pos close) :
    peekKind ts pos ≠ .eof := by
  rcases h with ⟨h, -⟩ | ⟨h, -⟩ <;> rw [h] <;> exact Token.Kind.noConfusion

theorem Opens.closer {close : Token.Kind} (h : Opens ts pos close) :
    close = .rbracket ∨ close = .rparen :=
  h.imp And.right And.right

theorem Opens.close_ne_eof {close : Token.Kind} (h : Opens ts pos close) : close ≠ .eof := by
  rcases h.closer with rfl | rfl <;> exact Token.Kind.noConfusion

theorem Opens.lt_length {close : Token.Kind} (h : Opens ts pos close) : pos < ts.length :=
  lt_of_current (exists_current h.peekKind_ne_eof).choose_spec.1

/-! ## The end token bounds every position -/

/-- The tokens close with an end token, as those of every text do. -/
def EndsWithEof (ts : List Token) : Prop := ∃ pre t, ts = pre ++ [t] ∧ t.kind = .eof

theorem endsWithEof_tokenize (s : String) : EndsWithEof (tokenize s) := by
  have hlast := (lexes_tokensFrom 0 s.toList).getLast?_eq
  exact ⟨_, _, (List.dropLast_append_getLast? _ hlast).symm, rfl⟩

section Bound

variable (he : EndsWithEof ts)
include he

theorem length_pos : 0 < ts.length := by
  obtain ⟨pre, t, rfl, -⟩ := he
  simp

theorem succ_lt_of_ne_eof (h : pos < ts.length) (hk : peekKind ts pos ≠ .eof) :
    pos + 1 < ts.length := by
  obtain ⟨pre, t, rfl, ht⟩ := he
  rw [List.length_append, List.length_singleton] at h ⊢
  rcases Nat.lt_succ_iff_lt_or_eq.mp h with h | rfl
  · omega
  · exact absurd (by simp [peekKind, current, ht]) hk

theorem skipTrivia_lt (h : pos < ts.length) : skipTrivia ts pos < ts.length := by
  obtain ⟨pre, t, rfl, ht⟩ := he
  by_contra hle
  have hnil : ((pre ++ [t]).drop pos).dropWhile Token.isTrivia = [] := by
    rw [← drop_skipTrivia]
    exact List.drop_eq_nil_iff.mpr (not_lt.mp hle)
  have hmem : t ∈ (pre ++ [t]).drop pos := by
    rw [List.drop_append_of_le_length (by simp at h; omega)]
    simp
  have htriv := List.dropWhile_eq_nil_iff.mp hnil t hmem
  simp [Token.isTrivia, ht] at htriv

theorem expect_progress {k : Token.Kind} {t : Token} {p' : ℕ} (hk : k ≠ .eof)
    (h : pos < ts.length) (hx : expect ts k pos = .ok (t, p')) : pos < p' ∧ p' < ts.length := by
  obtain ⟨hc, rfl, rfl⟩ := expect_eq_ok hx
  have hq := skipTrivia_lt he h
  have hpq : pos ≤ skipTrivia ts pos := le_skipTrivia
  exact ⟨by omega, succ_lt_of_ne_eof he hq (by rw [peekKind_of_current hc]; exact hk)⟩

theorem parseNumber_progress {v : Value} {p' : ℕ} (h : pos < ts.length)
    (hx : parseNumber ts pos = .ok (v, p')) : pos < p' ∧ p' < ts.length := by
  unfold parseNumber at hx
  split at hx
  · rename_i t p1 hp1
    cases hv : numberValue t with
    | error e => simp [hv, Except.map] at hx
    | ok w =>
      simp only [hv, Except.map, Except.ok.injEq, Prod.mk.injEq] at hx
      obtain ⟨-, rfl⟩ := hx
      exact expect_progress he Token.Kind.noConfusion h hp1
  · cases hx

theorem progress (fuel : ℕ) :
    (∀ pos v p', pos < ts.length → parseValue ts fuel pos = .ok (v, p') →
      pos < p' ∧ p' < ts.length) ∧
    (∀ pos close v p', Opens ts pos close → parseList ts fuel close pos = .ok (v, p') →
      pos < p' ∧ p' < ts.length) ∧
    (∀ pos close items items' p', pos < ts.length →
      listItems ts fuel close items pos = .ok (items', p') →
      ∃ read, items' = read ++ items ∧ pos + read.length ≤ p' ∧ p' < ts.length) := by
  induction fuel with
  | zero =>
    refine ⟨fun _ _ _ _ h => ?_, fun _ _ _ _ _ h => ?_, fun _ _ _ _ _ _ h => ?_⟩ <;>
      simp [parseValue, parseList, listItems] at h
  | succ n ih =>
    obtain ⟨ihV, ihP, ihL⟩ := ih
    refine ⟨fun pos v p' h hx => ?_, fun pos close v p' ho hx => ?_,
      fun pos close items items' p' h hx => ?_⟩
    · -- a value: a number, or a list from its opener
      have hq := skipTrivia_lt he h
      have hpq : pos ≤ skipTrivia ts pos := le_skipTrivia
      simp only [parseValue] at hx
      split at hx
      · rename_i hk
        cases hn : parseNumber ts (skipTrivia ts pos) with
        | error e => simp [hn, Except.mapError] at hx
        | ok r =>
          simp only [hn, Except.mapError, Except.ok.injEq] at hx
          subst hx
          have := parseNumber_progress he hq hn
          omega
      · have := ihP _ _ _ _ (.inl ⟨by assumption, rfl⟩) hx
        omega
      · have := ihP _ _ _ _ (.inr ⟨by assumption, rfl⟩) hx
        omega
      · cases hx
    · -- a list: its opener, its items, its closer
      obtain ⟨opener, hc, -⟩ := exists_current ho.peekKind_ne_eof
      have h1 := succ_lt_of_ne_eof he ho.lt_length ho.peekKind_ne_eof
      simp only [parseList, hc] at hx
      cases hl : listItems ts n close [] (pos + 1) with
      | error e => simp [hl] at hx
      | ok r =>
        obtain ⟨items, p1⟩ := r
        obtain ⟨read, -, hp1, hp1'⟩ := ihL _ _ _ _ _ h1 hl
        simp only [hl] at hx
        cases hx' : expect ts close p1 with
        | error e => simp [hx'] at hx
        | ok r =>
          obtain ⟨t, p2⟩ := r
          simp only [hx', Except.ok.injEq, Prod.mk.injEq] at hx
          obtain ⟨-, rfl⟩ := hx
          have := expect_progress he ho.close_ne_eof hp1' hx'
          omega
    · -- the loop: at the closer it stops, else an item and perhaps a comma
      have hq := skipTrivia_lt he h
      have hpq : pos ≤ skipTrivia ts pos := le_skipTrivia
      simp only [listItems] at hx
      split_ifs at hx with hclose
      · simp only [Except.ok.injEq, Prod.mk.injEq] at hx
        obtain ⟨rfl, rfl⟩ := hx
        exact ⟨[], rfl, by simpa using hpq, hq⟩
      cases hv : parseValue ts n (skipTrivia ts pos) with
      | error e => simp [hv] at hx
      | ok r =>
        obtain ⟨v, p1⟩ := r
        obtain ⟨hp1, hp1'⟩ := ihV _ _ _ hq hv
        have hr := skipTrivia_lt he hp1'
        have hpr : p1 ≤ skipTrivia ts p1 := le_skipTrivia
        simp only [hv] at hx
        split_ifs at hx with hcomma
        · have hr1 := succ_lt_of_ne_eof he hr (by rw [hcomma]; exact Token.Kind.noConfusion)
          obtain ⟨read, rfl, hread, hp'⟩ := ihL _ _ _ _ _ hr1 hx
          exact ⟨read ++ [v], by simp, by simp; omega, hp'⟩
        · simp only [Except.ok.injEq, Prod.mk.injEq] at hx
          obtain ⟨rfl, rfl⟩ := hx
          exact ⟨[v], rfl, by simp; omega, hr⟩

theorem parseValue_progress {fuel : ℕ} {v : Value} {p' : ℕ} (h : pos < ts.length)
    (hx : parseValue ts fuel pos = .ok (v, p')) : pos < p' ∧ p' < ts.length :=
  (progress he fuel).1 pos v p' h hx

theorem parseAssignment_progress {fuel : ℕ} {a : Assignment} {p' : ℕ} (h : pos < ts.length)
    (hx : parseAssignment ts fuel pos = .ok (a, p')) : pos < p' ∧ p' < ts.length := by
  unfold parseAssignment at hx
  split at hx
  · cases hx
  rename_i name p1 hname
  obtain ⟨hp1, hp1'⟩ := expect_progress he Token.Kind.noConfusion h hname
  split at hx
  · cases hx
  rename_i p2 hequals
  obtain ⟨hp2, hp2'⟩ := expect_progress he Token.Kind.noConfusion hp1' hequals
  split at hx
  · cases hx
  rename_i v p3 hv
  obtain ⟨hp3, hp3'⟩ := parseValue_progress he hp2' hv
  have hp4 : (if peekKind ts p3 = .comment then p3 + 1 else p3) < ts.length := by
    split_ifs with hc
    · exact succ_lt_of_ne_eof he hp3' (by rw [hc]; exact Token.Kind.noConfusion)
    · exact hp3'
  have hle : p3 ≤ if peekKind ts p3 = .comment then p3 + 1 else p3 := by
    split_ifs <;> omega
  generalize (if peekKind ts p3 = .comment then p3 + 1 else p3) = q at hx hp4 hle
  simp only at hx
  split at hx
  · obtain ⟨-, rfl⟩ := Prod.mk.inj (Except.ok.inj hx)
    omega
  · obtain ⟨-, rfl⟩ := Prod.mk.inj (Except.ok.inj hx)
    omega
  · cases hx

theorem fuel_enough (fuel : ℕ) :
    (∀ pos, pos < ts.length → 3 * (ts.length - pos) ≤ fuel →
      parseValue ts fuel pos ≠ .error .outOfFuel) ∧
    (∀ pos close, Opens ts pos close → 3 * (ts.length - pos) ≤ fuel + 1 →
      parseList ts fuel close pos ≠ .error .outOfFuel) ∧
    (∀ pos close items, pos < ts.length → 3 * (ts.length - pos) + 1 ≤ fuel →
      listItems ts fuel close items pos ≠ .error .outOfFuel) := by
  induction fuel with
  | zero =>
    refine ⟨fun pos h hf => by omega, fun pos close ho hf => ?_, fun pos close items h hf => by omega⟩
    have := ho.lt_length
    omega
  | succ n ih =>
    obtain ⟨ihV, ihP, ihL⟩ := ih
    refine ⟨fun pos h hf => ?_, fun pos close ho hf => ?_, fun pos close items h hf => ?_⟩
    · have hpq : pos ≤ skipTrivia ts pos := le_skipTrivia
      simp only [parseValue]
      split
      · cases parseNumber ts (skipTrivia ts pos) <;> simp [Except.mapError]
      · exact ihP _ _ (.inl ⟨by assumption, rfl⟩) (by omega)
      · exact ihP _ _ (.inr ⟨by assumption, rfl⟩) (by omega)
      · simp
    · obtain ⟨opener, hc, -⟩ := exists_current ho.peekKind_ne_eof
      have h1 := succ_lt_of_ne_eof he ho.lt_length ho.peekKind_ne_eof
      have hl := ihL (pos + 1) close [] h1 (by omega)
      simp only [parseList, hc]
      cases hr : listItems ts n close [] (pos + 1) with
      | error e =>
        rw [hr] at hl
        simpa using hl
      | ok r =>
        simp only
        split <;> simp
    · have hq := skipTrivia_lt he h
      have hpq : pos ≤ skipTrivia ts pos := le_skipTrivia
      simp only [listItems]
      split_ifs with hclose
      · simp
      have hv := ihV (skipTrivia ts pos) hq (by omega)
      cases hr : parseValue ts n (skipTrivia ts pos) with
      | error e =>
        rw [hr] at hv
        simpa using hv
      | ok r =>
        obtain ⟨v, p1⟩ := r
        -- the item read at least one token, so the loop goes on with less left
        obtain ⟨hp1, hp1'⟩ := parseValue_progress he hq hr
        have hr' := skipTrivia_lt he hp1'
        have hpr : p1 ≤ skipTrivia ts p1 := le_skipTrivia
        simp only
        split_ifs with hcomma
        · have hr1 := succ_lt_of_ne_eof he hr' (by rw [hcomma]; exact Token.Kind.noConfusion)
          exact ihL _ _ _ hr1 (by omega)
        · simp

theorem parseAssignment_ne_outOfFuel (fuel : ℕ) (h : pos < ts.length)
    (hf : 3 * (ts.length - pos) ≤ fuel) : parseAssignment ts fuel pos ≠ .error .outOfFuel := by
  unfold parseAssignment
  cases hname : expect ts .ident pos with
  | error e => simp
  | ok r =>
    obtain ⟨name, p1⟩ := r
    obtain ⟨hp1, hp1'⟩ := expect_progress he Token.Kind.noConfusion h hname
    simp only
    cases hequals : expect ts .equals p1 with
    | error e => simp
    | ok r =>
      obtain ⟨t, p2⟩ := r
      obtain ⟨hp2, hp2'⟩ := expect_progress he Token.Kind.noConfusion hp1' hequals
      have hv := (fuel_enough he fuel).1 p2 hp2' (by omega)
      simp only
      cases hr : parseValue ts fuel p2 with
      | error e =>
        rw [hr] at hv
        simpa using hv
      | ok r =>
        simp only
        split <;> simp

/-- The loop of the program never runs out of fuel: each assignment reads a token at least. -/
theorem assignments_ne_outOfFuel (fuel : ℕ) : ∀ done pos, pos < ts.length →
    3 * (ts.length - pos) + 1 ≤ fuel → assignments ts fuel done pos ≠ .error .outOfFuel := by
  induction fuel with
  | zero => intro done pos h hf; omega
  | succ n ih =>
    intro done pos h hf
    have hq := skipTrivia_lt he h
    have hpq : pos ≤ skipTrivia ts pos := le_skipTrivia
    simp only [assignments]
    split
    · simp
    · have ha := parseAssignment_ne_outOfFuel he n hq (by omega)
      cases hr : parseAssignment ts n (skipTrivia ts pos) with
      | error e =>
        rw [hr] at ha
        simpa using ha
      | ok r =>
        obtain ⟨a, p'⟩ := r
        obtain ⟨hp, hp'⟩ := parseAssignment_progress he hq hr
        exact ih _ _ hp' (by omega)
    · simp

theorem parseProgram_ne_outOfFuel : parseProgram ts ≠ .error .outOfFuel := by
  have h := assignments_ne_outOfFuel he (3 * ts.length + 1) [] 0 (length_pos he) (by omega)
  unfold parseProgram
  cases hr : assignments ts (3 * ts.length + 1) [] 0 with
  | error e =>
    rw [hr] at h
    simpa [Except.map] using h
  | ok as => simp [Except.map]

end Bound

/-! ## The automaton reads what the descent reads -/

section Steps

variable {t : Token} (done : List Assignment) (name : Token) (rest : List Token)

theorem run_item_number (hk : t.kind = .number) (frames : List Frame) :
    run done (.item name frames) (t :: rest) =
      match numberValue t with
      | .ok v => run done (Phase.deliver name v frames) rest
      | .error e => .error e := by
  obtain ⟨k, sp, tx⟩ := t
  cases hk
  rfl

theorem run_item_opener (frames : List Frame) {close : Token.Kind}
    (h : t.kind = .lbracket ∧ close = .rbracket ∨ t.kind = .lparen ∧ close = .rparen) :
    run done (.item name frames) (t :: rest) =
      run done (.item name (⟨close, t.span, []⟩ :: frames)) rest := by
  obtain ⟨k, sp, tx⟩ := t
  rcases h with ⟨hk, rfl⟩ | ⟨hk, rfl⟩ <;> cases hk <;> rfl

theorem run_item_other (frames : List Frame) (htriv : t.isTrivia = false)
    (hk : t.kind ≠ .number ∧ t.kind ≠ .lbracket ∧ t.kind ≠ .lparen)
    (hcl : ∀ f ∈ frames.head?, t.kind ≠ f.closer) :
    run done (.item name frames) (t :: rest) = .error (.at .value t) := by
  obtain ⟨k, sp, tx⟩ := t
  obtain ⟨h1, h2, h3⟩ := hk
  cases frames with
  | nil => cases k <;> simp_all [run]
  | cons f outer => cases k <;> simp_all [run]

theorem run_separator_other {f : Frame} (outer : List Frame) (htriv : t.isTrivia = false)
    (hk : t.kind ≠ .comma) (hcl : t.kind ≠ f.closer) :
    run done (.separator name f outer) (t :: rest) = .error (.at (.kind f.closer) t) := by
  simp [run, htriv, hk, hcl]

theorem run_statement_other (htriv : t.isTrivia = false)
    (hk : t.kind ≠ .eof ∧ t.kind ≠ .ident) :
    run done .statement (t :: rest) = .error (.at .assignment t) := by
  obtain ⟨k, sp, tx⟩ := t
  obtain ⟨h1, h2⟩ := hk
  cases k <;> simp_all [run, Token.isTrivia]

theorem run_equals_other (htriv : t.isTrivia = false) (hk : t.kind ≠ .equals) :
    run done (.equals name) (t :: rest) = .error (.at (.kind .equals) t) := by
  simp [run, htriv, hk]

end Steps

/-- The automaton's result `lhs` agrees with the descent's result `r`: it is `k a` after a
result `a`, and the same error after a failed descent. Fuel used up is left aside. -/
def Agrees {α : Type} (r : Except Stop α) (lhs : Except ParseError (List Assignment))
    (k : α → Except ParseError (List Assignment)) : Prop :=
  match r with
  | .ok a => lhs = k a
  | .error (.failed e) => lhs = .error e
  | .error .outOfFuel => True

@[simp] theorem agrees_ok {α : Type} {a : α} {lhs : Except ParseError (List Assignment)}
    {k : α → Except ParseError (List Assignment)} : Agrees (.ok a) lhs k ↔ lhs = k a := Iff.rfl

@[simp] theorem agrees_failed {α : Type} {e : ParseError} {lhs : Except ParseError (List Assignment)}
    {k : α → Except ParseError (List Assignment)} :
    Agrees (.error (.failed e) : Except Stop α) lhs k ↔ lhs = .error e := Iff.rfl

@[simp] theorem agrees_outOfFuel {α : Type} {lhs : Except ParseError (List Assignment)}
    {k : α → Except ParseError (List Assignment)} :
    Agrees (.error .outOfFuel : Except Stop α) lhs k := trivial

theorem agrees_error {α β : Type} {e : Stop} {lhs : Except ParseError (List Assignment)}
    {k : α → Except ParseError (List Assignment)} {k' : β → Except ParseError (List Assignment)}
    (h : Agrees (.error e : Except Stop α) lhs k) : Agrees (.error e : Except Stop β) lhs k' := by
  cases e <;> exact h

/-- The automaton where the descent reads the closer of the list `f`. -/
def closeList (ts : List Token) (done : List Assignment) (name : Token) (f : Frame)
    (outer : List Frame) (pos : ℕ) : Except ParseError (List Assignment) :=
  match expect ts f.closer pos with
  | .ok (t, p') => run done (Phase.deliver name (f.close t.span) outer) (ts.drop p')
  | .error e => .error e

theorem agrees (fuel : ℕ) :
    (∀ pos done name frames, (∀ f ∈ frames.head?, peekKind ts (skipTrivia ts pos) ≠ f.closer) →
      Agrees (parseValue ts fuel pos) (run done (.item name frames) (ts.drop pos))
        fun r => run done (Phase.deliver name r.1 frames) (ts.drop r.2)) ∧
    (∀ pos close done name frames, Opens ts pos close →
      Agrees (parseList ts fuel close pos) (run done (.item name frames) (ts.drop pos))
        fun r => run done (Phase.deliver name r.1 frames) (ts.drop r.2)) ∧
    (∀ pos close items done name opener outer, (close = .rbracket ∨ close = .rparen) →
      Agrees (listItems ts fuel close items pos)
        (run done (.item name (⟨close, opener, items⟩ :: outer)) (ts.drop pos))
        fun r => closeList ts done name ⟨close, opener, r.1⟩ outer r.2) := by
  induction fuel with
  | zero => exact ⟨fun _ _ _ _ _ => trivial, fun _ _ _ _ _ _ => trivial,
      fun _ _ _ _ _ _ _ _ => trivial⟩
  | succ n ih =>
    obtain ⟨ihV, ihP, ihL⟩ := ih
    refine ⟨fun pos done name frames hcl => ?_, fun pos close done name frames ho => ?_,
      fun pos close items done name opener outer hcl => ?_⟩
    · rw [← run_skipTrivia (.item name frames) trivial]
      simp only [parseValue]
      split
      · -- a number token
        rename_i hk
        obtain ⟨t, hc, hkt⟩ := exists_current (by rw [hk]; exact Token.Kind.noConfusion)
        rw [drop_of_current hc, run_item_number _ _ _ (hkt.trans hk)]
        have hx := expect_of_current (k := .number)
          (by rwa [skipTrivia_skipTrivia]) (hkt.trans hk)
        rw [skipTrivia_skipTrivia] at hx
        simp only [parseNumber, hx]
        cases numberValue t <;> simp [Except.map, Except.mapError]
      · exact ihP _ _ _ _ _ (.inl ⟨by assumption, rfl⟩)
      · exact ihP _ _ _ _ _ (.inr ⟨by assumption, rfl⟩)
      · -- any other token is an error where a value stands
        rename_i hnum hbr hpar
        cases hc : current ts (skipTrivia ts pos) with
        | none => simp [unexpected, hc, drop_of_current_none hc, run]
        | some t =>
          have hk := peekKind_of_current hc
          rw [drop_of_current hc]
          simp only [unexpected, hc, agrees_failed]
          exact run_item_other _ _ _ _ (isTrivia_of_skipTrivia hc)
            ⟨fun h => hnum (hk.trans h), fun h => hbr (hk.trans h), fun h => hpar (hk.trans h)⟩
            fun f hf => hk ▸ hcl f hf
    · -- the opener, the loop over the items, and the closer
      obtain ⟨opener, hc, hko⟩ := exists_current ho.peekKind_ne_eof
      simp only [parseList, hc]
      rw [drop_of_current hc, run_item_opener _ _ _ _ (by rwa [hko])]
      have hL := ihL (pos + 1) close [] done name opener.span frames ho.closer
      cases hr : listItems ts n close [] (pos + 1) with
      | error e =>
        rw [hr] at hL
        exact agrees_error hL
      | ok r =>
        obtain ⟨items, p1⟩ := r
        rw [hr, agrees_ok] at hL
        rw [hL]
        simp only [closeList]
        cases hx : expect ts close p1 with
        | error e => simp
        | ok r => simp [Frame.close]
    · rw [← run_skipTrivia (.item name _) trivial]
      simp only [listItems]
      split_ifs with hclose
      · -- the closer right away
        have hne : peekKind ts (skipTrivia ts pos) ≠ .eof := by
          rw [hclose]
          rcases hcl with rfl | rfl <;> exact Token.Kind.noConfusion
        obtain ⟨t, hc, hkt⟩ := exists_current hne
        rw [agrees_ok, drop_of_current hc, run_item_closer (hkt.trans hclose) hcl]
        simp only [closeList]
        rw [expect_of_current (by rwa [skipTrivia_skipTrivia]) (hkt.trans hclose),
          skipTrivia_skipTrivia]
      have hV := ihV (skipTrivia ts pos) done name (⟨close, opener, items⟩ :: outer)
        (by simpa using hclose)
      cases hr : parseValue ts n (skipTrivia ts pos) with
      | error e =>
        rw [hr] at hV
        exact agrees_error hV
      | ok r =>
        obtain ⟨v, p1⟩ := r
        rw [hr, agrees_ok] at hV
        rw [hV]
        simp only [Phase.deliver]
        rw [← run_skipTrivia (.separator name _ outer) trivial]
        split_ifs with hcomma
        · -- a comma: the loop goes on
          obtain ⟨t, hc, hkt⟩ := exists_current (by rw [hcomma]; exact Token.Kind.noConfusion)
          rw [drop_of_current hc, run_separator_comma _ _ (hkt.trans hcomma)]
          exact ihL _ close (v :: items) done name opener outer hcl
        · -- no comma: the list must close here
          rw [agrees_ok]
          simp only [closeList]
          cases hc : current ts (skipTrivia ts p1) with
          | none =>
            rw [expect_of_current_none (by rwa [skipTrivia_skipTrivia]), drop_of_current_none hc]
            rfl
          | some t =>
            rw [drop_of_current hc]
            by_cases hkt : t.kind = close
            · rw [expect_of_current (by rwa [skipTrivia_skipTrivia]) hkt, skipTrivia_skipTrivia]
              exact run_separator_closer hkt hcl _ _ _ _
            · rw [expect_of_current_ne (by rwa [skipTrivia_skipTrivia]) hkt]
              exact run_separator_other _ _ _ _ (isTrivia_of_skipTrivia hc)
                (by rwa [← peekKind_of_current hc]) hkt

theorem run_lineEnd_ends {p : ℕ} (hp : p < ts.length)
    (hk : peekKind ts p = .newline ∨ peekKind ts p = .eof) (done : List Assignment)
    (a : Assignment) (c : Bool) :
    run done (.lineEnd a c) (ts.drop p) = run (a :: done) .statement (ts.drop p) := by
  obtain ⟨t, hc⟩ := exists_current_of_lt hp
  rw [peekKind_of_current hc] at hk
  rw [drop_of_current hc]
  rcases hk with hk | hk
  · rw [run_lineEnd_newline _ _ hk, @run_trivia .statement trivial _ (.inl hk)]
  · rw [run_lineEnd_eof _ _ hk, run_statement_eof _ _ hk]

theorem run_lineEnd_other {p : ℕ} {c : Bool} (hp : p < ts.length)
    (hk : peekKind ts p ≠ .newline) (hk' : peekKind ts p ≠ .eof)
    (hcm : peekKind ts p = .comment → c = true) (done : List Assignment) (a : Assignment) :
    run done (.lineEnd a c) (ts.drop p) = .error (unexpected ts .endOfLine p) := by
  obtain ⟨t, hc⟩ := exists_current_of_lt hp
  rw [peekKind_of_current hc] at hk hk' hcm
  rw [drop_of_current hc]
  simp only [unexpected, hc]
  by_cases hcom : t.kind = .comment
  · simp [run, hcom, hcm hcom]
  · simp [run, hcom, hk, hk']

section Top

variable (he : EndsWithEof ts)
include he

theorem parseAssignment_agrees (fuel : ℕ) {t : Token} (hc : current ts pos = some t)
    (hk : t.kind = .ident) (done : List Assignment) :
    Agrees (parseAssignment ts fuel pos) (run done .statement (ts.drop pos))
      fun r => run (r.1 :: done) .statement (ts.drop r.2) := by
  have hskip : skipTrivia ts pos = pos :=
    skipTrivia_of_not_isTrivia fun u hu => by
      rw [hc] at hu
      cases hu
      simp [Token.isTrivia, hk]
  have hp1 : pos + 1 < ts.length :=
    succ_lt_of_ne_eof he (lt_of_current hc) (by rw [peekKind_of_current hc, hk]; decide)
  unfold parseAssignment
  rw [expect_of_current (by rwa [hskip]) hk, hskip]
  simp only
  rw [drop_of_current hc, run_statement_ident _ _ hk]
  rw [← run_skipTrivia (.equals t) trivial]
  cases hc2 : current ts (skipTrivia ts (pos + 1)) with
  | none =>
    rw [expect_of_current_none hc2, drop_of_current_none hc2]
    rfl
  | some u =>
    rw [drop_of_current hc2]
    by_cases hku : u.kind = .equals
    · rw [expect_of_current hc2 hku, run_equals_equals _ _ hku]
      simp only
      have hp2 : skipTrivia ts (pos + 1) + 1 < ts.length :=
        succ_lt_of_ne_eof he (skipTrivia_lt he hp1) (by rw [peekKind_of_current hc2, hku]; decide)
      have hV := (@agrees ts fuel).1 (skipTrivia ts (pos + 1) + 1) done t [] (by simp)
      cases hr : parseValue ts fuel (skipTrivia ts (pos + 1) + 1) with
      | error e =>
        rw [hr] at hV
        exact agrees_error hV
      | ok r =>
        obtain ⟨v, p3⟩ := r
        have hp3 := (parseValue_progress he hp2 hr).2
        rw [hr, agrees_ok] at hV
        rw [hV]
        simp only [Phase.deliver]
        by_cases hcom : peekKind ts p3 = .comment
        · have hp31 := succ_lt_of_ne_eof he hp3 (by rw [hcom]; exact Token.Kind.noConfusion)
          obtain ⟨t3, hc3⟩ := exists_current_of_lt hp3
          rw [drop_of_current hc3,
            run_lineEnd_comment _ _ ((peekKind_of_current hc3).symm.trans hcom), if_pos hcom]
          split
          · exact run_lineEnd_ends hp31 (.inl ‹_›) _ _ _
          · exact run_lineEnd_ends hp31 (.inr ‹_›) _ _ _
          · exact run_lineEnd_other hp31 ‹_› ‹_› (fun _ => rfl) _ _
        · rw [if_neg hcom]
          split
          · exact run_lineEnd_ends hp3 (.inl ‹_›) _ _ _
          · exact run_lineEnd_ends hp3 (.inr ‹_›) _ _ _
          · exact run_lineEnd_other hp3 ‹_› ‹_› (fun h => absurd h hcom) _ _
    · rw [expect_of_current_ne hc2 hku, run_equals_other _ _ _ (isTrivia_of_skipTrivia hc2) hku]
      rfl

theorem assignments_agrees (fuel : ℕ) : ∀ done pos, pos < ts.length →
    Agrees (assignments ts fuel done pos) (run done .statement (ts.drop pos)) .ok := by
  induction fuel with
  | zero => exact fun _ _ _ => trivial
  | succ n ih =>
    intro done pos h
    have hq := skipTrivia_lt he h
    obtain ⟨t, hc⟩ := exists_current_of_lt hq
    have hk := peekKind_of_current hc
    rw [← run_skipTrivia .statement trivial]
    simp only [assignments]
    split
    · rename_i heof
      rw [drop_of_current hc]
      exact run_statement_eof _ _ (hk.symm.trans heof)
    · rename_i hid
      have hA := parseAssignment_agrees he n hc (hk.symm.trans hid) done
      cases hr : parseAssignment ts n (skipTrivia ts pos) with
      | error e =>
        rw [hr] at hA
        exact agrees_error hA
      | ok r =>
        obtain ⟨a, p'⟩ := r
        rw [hr, agrees_ok] at hA
        rw [hA]
        exact ih _ _ (parseAssignment_progress he hq hr).2
    · rename_i heof hid
      rw [drop_of_current hc]
      simp only [unexpected, hc]
      exact run_statement_other _ _ (isTrivia_of_skipTrivia hc)
        ⟨fun h => heof (hk.trans h), fun h => hid (hk.trans h)⟩

end Top

end Descent

open Descent

/-- The recursive descent and the automaton read every text alike. -/
theorem parse_eq_run (s : String) :
    Document.parse s = (run [] .statement (tokenize s)).map (⟨·⟩) := by
  have he := endsWithEof_tokenize s
  have hfuel := parseProgram_ne_outOfFuel he
  have hag := assignments_agrees he (3 * (tokenize s).length + 1) [] 0 (length_pos he)
  rw [List.drop_zero] at hag
  unfold Document.parse
  unfold parseProgram at hfuel ⊢
  cases hr : assignments (tokenize s) (3 * (tokenize s).length + 1) [] 0 with
  | ok as =>
    rw [hr, agrees_ok] at hag
    simp [Except.map, hag]
  | error e =>
    rw [hr] at hag hfuel
    cases e with
    | failed e =>
      rw [agrees_failed] at hag
      simp [Except.map, hag]
    | outOfFuel => simp [Except.map] at hfuel

/-- Parsing a text terminates on the tokens left. From any position inside the tokens, three
calls a token left are fuel enough; every call that returns a value, a list or an assignment
has read a token at least, and the loop of a list a token an item; and no call moves past the
end token, so a token is current wherever the parser reads. -/
theorem parse_terminates (s : String) :
    parseProgram (tokenize s) ≠ .error .outOfFuel ∧
    ∀ pos < (tokenize s).length, let ts := tokenize s
      current ts pos ≠ none ∧ skipTrivia ts pos < ts.length ∧
      (∀ fuel, 3 * (ts.length - pos) ≤ fuel →
        parseValue ts fuel pos ≠ .error .outOfFuel ∧
          parseAssignment ts fuel pos ≠ .error .outOfFuel) ∧
      (∀ fuel close items, 3 * (ts.length - pos) + 1 ≤ fuel →
        listItems ts fuel close items pos ≠ .error .outOfFuel ∧
          assignments ts fuel [] pos ≠ .error .outOfFuel) ∧
      (∀ fuel v p', parseValue ts fuel pos = .ok (v, p') → pos < p' ∧ p' < ts.length) ∧
      (∀ fuel close v p', Opens ts pos close → parseList ts fuel close pos = .ok (v, p') →
        pos < p' ∧ p' < ts.length) ∧
      (∀ fuel close items items' p', listItems ts fuel close items pos = .ok (items', p') →
        ∃ read, items' = read ++ items ∧ pos + read.length ≤ p' ∧ p' < ts.length) ∧
      (∀ fuel a p', parseAssignment ts fuel pos = .ok (a, p') → pos < p' ∧ p' < ts.length) := by
  have he := endsWithEof_tokenize s
  refine ⟨parseProgram_ne_outOfFuel he, fun pos h => ⟨current_of_lt h, skipTrivia_lt he h,
    fun fuel hf => ⟨(fuel_enough he fuel).1 pos h hf, parseAssignment_ne_outOfFuel he fuel h hf⟩,
    fun fuel close items hf => ⟨(fuel_enough he fuel).2.2 pos close items h hf,
      assignments_ne_outOfFuel he fuel [] pos h hf⟩,
    fun fuel v p' hx => parseValue_progress he h hx,
    fun fuel close v p' ho hx => (progress he fuel).2.1 pos close v p' ho hx,
    fun fuel close items items' p' hx => (progress he fuel).2.2 pos close items items' p' h hx,
    fun fuel a p' hx => parseAssignment_progress he h hx⟩⟩

/-- In `b = [4]` the list stands at the third token and is read up to the end token. -/
theorem parse_terminates_listOfFour :
    2 < (tokenize "b = [4]").length ∧
      (parseValue (tokenize "b = [4]") 12 2).map Prod.snd = .ok 5 ∧
      parseValue (tokenize "b = [4]") 12 2 ≠ .error .outOfFuel := by
  have h2 : 2 < (tokenize "b = [4]").length := by decide +kernel
  exact ⟨h2, by decide +kernel, (((parse_terminates "b = [4]").2 2 h2).2.2.1 12 (by decide +kernel)).1⟩

end RevisedSimplex.Source
