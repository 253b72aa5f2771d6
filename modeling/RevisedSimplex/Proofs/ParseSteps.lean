import Mathlib
import RevisedSimplex.Source.Parse

/-! # The parser one token at a time

The parser reads each token once. On a token it either goes on reading from a new phase
(`Moves`) or ends the run (`Ends`): with the assignments read when the end token comes between
assignments or after one, or with an error. Every error names the token where it stops, except
a number token whose text does not read, which is reported with that text. `run_cons` says that
every token does one of these; properties of whole runs are then proved one move at a time.
-/

namespace RevisedSimplex.Source

/-- The moves of the parser on one token that go on reading. -/
inductive Moves : List Assignment → Phase → Token → List Assignment → Phase → Prop
  /-- a token passed over: a newline or a comment where these may stand -/
  | stay {done : List Assignment} {phase : Phase} {t : Token} : Moves done phase t done phase
  /-- a name starts an assignment -/
  | name {done : List Assignment} {t : Token} (h : t.kind = .ident) :
      Moves done .statement t done (.equals t)
  /-- `=` after the name -/
  | equals {done : List Assignment} {name t : Token} (h : t.kind = .equals) :
      Moves done (.equals name) t done (.item name [])
  /-- a number that reads as `x` is a value -/
  | number {done : List Assignment} {name t : Token} {frames : List Frame} {x : Float}
      (h : t.kind = .number) (hx : Decimal.readFloat? t.text = some x) :
      Moves done (.item name frames) t done (Phase.deliver name (.number t.span x) frames)
  /-- `[` opens a list that `]` closes -/
  | bracket {done : List Assignment} {name t : Token} {frames : List Frame}
      (h : t.kind = .lbracket) :
      Moves done (.item name frames) t done (.item name (⟨.rbracket, t.span, []⟩ :: frames))
  /-- `(` opens a list that `)` closes -/
  | paren {done : List Assignment} {name t : Token} {frames : List Frame} (h : t.kind = .lparen) :
      Moves done (.item name frames) t done (.item name (⟨.rparen, t.span, []⟩ :: frames))
  /-- the closer of the innermost list where an item may stand: after its opener or a comma -/
  | closeItem {done : List Assignment} {name t : Token} {f : Frame} {outer : List Frame}
      (h : t.kind = f.closer) :
      Moves done (.item name (f :: outer)) t done (Phase.deliver name (f.close t.span) outer)
  /-- a comma after an item -/
  | comma {done : List Assignment} {name t : Token} {f : Frame} {outer : List Frame}
      (h : t.kind = .comma) : Moves done (.separator name f outer) t done (.item name (f :: outer))
  /-- the closer of the innermost list after an item -/
  | closeSeparator {done : List Assignment} {name t : Token} {f : Frame} {outer : List Frame}
      (h : t.kind = f.closer) :
      Moves done (.separator name f outer) t done (Phase.deliver name (f.close t.span) outer)
  /-- the one comment allowed after a value -/
  | comment {done : List Assignment} {a : Assignment} {t : Token} (h : t.kind = .comment) :
      Moves done (.lineEnd a false) t done (.lineEnd a true)
  /-- the newline that ends an assignment -/
  | newline {done : List Assignment} {a : Assignment} {c : Bool} {t : Token}
      (h : t.kind = .newline) : Moves done (.lineEnd a c) t (a :: done) .statement

/-- How a run ends on one token. -/
inductive Ends : List Assignment → Phase → Token → Except ParseError (List Assignment) → Prop
  /-- the end token between assignments -/
  | statement {done : List Assignment} {t : Token} (h : t.kind = .eof) :
      Ends done .statement t (.ok done.reverse)
  /-- the end token after an assignment -/
  | lineEnd {done : List Assignment} {a : Assignment} {c : Bool} {t : Token}
      (h : t.kind = .eof) : Ends done (.lineEnd a c) t (.ok (a :: done).reverse)
  /-- a token out of place -/
  | misplaced {done : List Assignment} {phase : Phase} {t : Token} (e : Expectation) :
      Ends done phase t (.error (.at e t))
  /-- a number token whose text does not read -/
  | unreadable {done : List Assignment} {phase : Phase} {t : Token} (h : t.kind = .number)
      (hx : Decimal.readFloat? t.text = none) : Ends done phase t (.error (.invalidNumber t.text))

theorem numberValue_eq_ok {t : Token} {v : Value} (h : numberValue t = .ok v) :
    ∃ x, Decimal.readFloat? t.text = some x ∧ v = .number t.span x := by
  unfold numberValue at h
  split at h
  · rename_i x hx
    cases h
    exact ⟨x, hx, rfl⟩
  · cases h

theorem numberValue_eq_error {t : Token} {e : ParseError} (h : numberValue t = .error e) :
    Decimal.readFloat? t.text = none ∧ e = .invalidNumber t.text := by
  unfold numberValue at h
  split at h
  · cases h
  · rename_i hx
    cases h
    exact ⟨hx, rfl⟩

theorem run_nil (done : List Assignment) (phase : Phase) : run done phase [] = .error .endOfInput :=
  rfl

/-- Each token moves the parser on or ends the run. -/
theorem run_cons {done : List Assignment} {phase : Phase} {t : Token} {ts : List Token}
    {r : Except ParseError (List Assignment)} (h : run done phase (t :: ts) = r) :
    (∃ done' phase', Moves done phase t done' phase' ∧ run done' phase' ts = r) ∨
      Ends done phase t r := by
  cases phase with
  | statement =>
    unfold run at h
    split at h
    · exact .inl ⟨_, _, .stay, h⟩
    · exact .inl ⟨_, _, .stay, h⟩
    · subst h
      exact .inr (.statement (by assumption))
    · exact .inl ⟨_, _, .name (by assumption), h⟩
    · subst h
      exact .inr (.misplaced _)
  | equals name =>
    unfold run at h
    split_ifs at h with htriv hk
    · exact .inl ⟨_, _, .stay, h⟩
    · exact .inl ⟨_, _, .equals hk, h⟩
    · subst h
      exact .inr (.misplaced _)
  | item name frames =>
    unfold run at h
    split_ifs at h with htriv
    · exact .inl ⟨_, _, .stay, h⟩
    split at h
    · rename_i hk
      split at h
      · rename_i v hv
        obtain ⟨x, hx, rfl⟩ := numberValue_eq_ok hv
        exact .inl ⟨_, _, .number hk hx, h⟩
      · rename_i e he
        obtain ⟨hx, rfl⟩ := numberValue_eq_error he
        subst h
        exact .inr (.unreadable hk hx)
    · exact .inl ⟨_, _, .bracket (by assumption), h⟩
    · exact .inl ⟨_, _, .paren (by assumption), h⟩
    · split_ifs at h with hc
      · exact .inl ⟨_, _, .closeItem hc, h⟩
      · subst h
        exact .inr (.misplaced _)
    · subst h
      exact .inr (.misplaced _)
  | separator name f outer =>
    unfold run at h
    split_ifs at h with htriv hk hc
    · exact .inl ⟨_, _, .stay, h⟩
    · exact .inl ⟨_, _, .comma hk, h⟩
    · exact .inl ⟨_, _, .closeSeparator hc, h⟩
    · subst h
      exact .inr (.misplaced _)
  | lineEnd a commented =>
    unfold run at h
    split_ifs at h with hcom hnl heof
    · obtain ⟨hk, hc⟩ := hcom
      simp only [Bool.not_eq_eq_eq_not, Bool.not_true] at hc
      subst hc
      exact .inl ⟨_, _, .comment hk, h⟩
    · exact .inl ⟨_, _, .newline hnl, h⟩
    · subst h
      exact .inr (.lineEnd heof)
    · subst h
      exact .inr (.misplaced _)

/-- The phases that pass over newlines and comments. -/
def Phase.SkipsTrivia : Phase → Prop
  | .lineEnd _ _ => False
  | _ => True

theorem run_trivia {P : Phase} (hP : P.SkipsTrivia) {t : Token}
    (ht : t.kind = .newline ∨ t.kind = .comment) (done : List Assignment) (ts : List Token) :
    run done P (t :: ts) = run done P ts := by
  obtain ⟨k, sp, tx⟩ := t
  cases P with
  | lineEnd a cm => exact hP.elim
  | _ => rcases ht with hk | hk <;> cases hk <;> rfl

theorem run_item_closer {t : Token} {f : Frame} (hk : t.kind = f.closer)
    (hcl : f.closer = .rbracket ∨ f.closer = .rparen) (done : List Assignment) (name : Token)
    (outer : List Frame) (ts : List Token) :
    run done (.item name (f :: outer)) (t :: ts) =
      run done (Phase.deliver name (f.close t.span) outer) ts := by
  obtain ⟨k, sp, tx⟩ := t
  obtain ⟨closer, opener, items⟩ := f
  rcases hcl with h | h <;> cases h <;> cases hk <;> rfl

theorem run_separator_closer {t : Token} {f : Frame} (hk : t.kind = f.closer)
    (hcl : f.closer = .rbracket ∨ f.closer = .rparen) (done : List Assignment) (name : Token)
    (outer : List Frame) (ts : List Token) :
    run done (.separator name f outer) (t :: ts) =
      run done (Phase.deliver name (f.close t.span) outer) ts := by
  obtain ⟨k, sp, tx⟩ := t
  obtain ⟨closer, opener, items⟩ := f
  rcases hcl with h | h <;> cases h <;> cases hk <;> rfl

/-! The steps of the automaton that a text of a document takes. -/

section Steps

variable {t : Token} (done : List Assignment) (ts : List Token)

theorem run_statement_ident (hk : t.kind = .ident) : run done .statement (t :: ts) = run done (.equals t) ts := by
  obtain ⟨k, sp, tx⟩ := t
  cases hk
  rfl

theorem run_statement_eof (hk : t.kind = .eof) : run done .statement (t :: ts) = .ok done.reverse := by
  obtain ⟨k, sp, tx⟩ := t
  cases hk
  rfl

theorem run_equals_equals (hk : t.kind = .equals) (name : Token) :
    run done (.equals name) (t :: ts) = run done (.item name []) ts := by
  obtain ⟨k, sp, tx⟩ := t
  cases hk
  rfl

theorem run_separator_comma (hk : t.kind = .comma) (name : Token) (f : Frame) (outer : List Frame) :
    run done (.separator name f outer) (t :: ts) = run done (.item name (f :: outer)) ts := by
  obtain ⟨k, sp, tx⟩ := t
  cases hk
  rfl

theorem run_lineEnd_comment (hk : t.kind = .comment) (a : Assignment) :
    run done (.lineEnd a false) (t :: ts) = run done (.lineEnd a true) ts := by
  obtain ⟨k, sp, tx⟩ := t
  cases hk
  rfl

theorem run_lineEnd_newline (hk : t.kind = .newline) (a : Assignment) (cm : Bool) :
    run done (.lineEnd a cm) (t :: ts) = run (a :: done) .statement ts := by
  obtain ⟨k, sp, tx⟩ := t
  cases hk
  rfl

theorem run_lineEnd_eof (hk : t.kind = .eof) (a : Assignment) (cm : Bool) :
    run done (.lineEnd a cm) (t :: ts) = .ok (a :: done).reverse := by
  obtain ⟨k, sp, tx⟩ := t
  cases hk
  rfl

end Steps

end RevisedSimplex.Source
