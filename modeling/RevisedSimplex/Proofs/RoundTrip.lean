import Mathlib
import RevisedSimplex.Source.Parse
import RevisedSimplex.Proofs.Lexing
import RevisedSimplex.Proofs.Descent

/-! # Printing and parsing back

A document is written out as text in any of the layouts the grammar allows (`DocumentText`):
names are identifiers, numbers are numerals that read back as their values, lists are
delimited by `[ ]` or `( )` with commas and an optional trailing comma, blanks stand between
any two tokens, newlines and comments before `=`, before a value and anywhere in a list or
between assignments, and at most one comment after a value. Parsing any such text gives back
the names and the values, up to spans (`parse_documentText`).
-/

namespace RevisedSimplex.Source

/-- A value with its spans forgotten. -/
inductive Shape where
  | number (value : Float)
  | list (items : List Shape)

def Value.shape : Value → Shape
  | .number _ x => .number x
  | .list _ items => .list (items.map Value.shape)

/-! ## Texts of a document -/

/-- Blanks, newlines and comments, each comment closed by its newline. -/
inductive Layout : List Char → Prop
  | nil : Layout []
  | blank {c : Char} {l : List Char} (hc : isBlank c = true) (h : Layout l) : Layout (c :: l)
  | newline {l : List Char} (h : Layout l) : Layout ('\n' :: l)
  | comment {x l : List Char} (hx : IsComment x) (h : Layout l) : Layout (x ++ '\n' :: l)

mutual
/-- The texts of a value: a numeral that reads as its number, or a list between `[ ]` or
`( )`. -/
inductive ValueText : Shape → List Char → Prop
  | number {w : List Char} {x : Float} (hw : IsNumeral w)
      (hx : Decimal.readFloat? (String.ofList w) = some x) : ValueText (.number x) w
  | list {o c : Char} {vs : List Shape} {body : List Char}
      (hoc : (o = '[' ∧ c = ']') ∨ (o = '(' ∧ c = ')')) (hb : ItemsText vs body) :
      ValueText (.list vs) (o :: (body ++ [c]))

/-- The texts between the brackets of a list: values separated by commas, layout around every
token, and a trailing comma after the last value allowed. -/
inductive ItemsText : List Shape → List Char → Prop
  | nil {l : List Char} (hl : Layout l) : ItemsText [] l
  | last {l w l' : List Char} {v : Shape} (hl : Layout l) (hv : ValueText v w) (hl' : Layout l') :
      ItemsText [v] (l ++ w ++ l')
  | cons {l w l' r : List Char} {v : Shape} {vs : List Shape} (hl : Layout l) (hv : ValueText v w)
      (hl' : Layout l') (hr : ItemsText vs r) : ItemsText (v :: vs) (l ++ w ++ l' ++ ',' :: r)
end

/-- The texts of an assignment: its name, layout, `=`, layout and the value, then blanks and at
most one comment. -/
inductive AssignmentText : String × Shape → List Char → Prop
  | mk {n l l' w b c : List Char} {v : Shape} (hn : IsIdent n) (hl : Layout l) (hl' : Layout l')
      (hv : ValueText v w) (hb : ∀ d ∈ b, isBlank d = true) (hc : c = [] ∨ IsComment c) :
      AssignmentText (String.ofList n, v) (n ++ l ++ '=' :: (l' ++ w ++ b ++ c))

/-- The texts of a document: its assignments with layout before each, every assignment ended by
a newline or the end of the text, which may close with layout and a comment. -/
inductive DocumentText : List (String × Shape) → List Char → Prop
  | nil {l c : List Char} (hl : Layout l) (hc : c = [] ∨ IsComment c) : DocumentText [] (l ++ c)
  | last {l x : List Char} {a : String × Shape} (hl : Layout l) (ha : AssignmentText a x) :
      DocumentText [a] (l ++ x)
  | cons {l x r : List Char} {a : String × Shape} {as : List (String × Shape)} (hl : Layout l)
      (ha : AssignmentText a x) (hr : DocumentText as r) : DocumentText (a :: as) (l ++ x ++ '\n' :: r)

/-! ## Lexing the pieces of a text -/

section Pieces

/-- The characters numerals are made of. -/
def NumeralChar (d : Char) : Prop :=
  d.isDigit = true ∨ d = '+' ∨ d = '-' ∨ d = '.' ∨ d = 'e' ∨ d = 'E'

instance : DecidablePred NumeralChar := fun _ => inferInstanceAs (Decidable (_ ∨ _))

theorem IsNumeral.numeralChar {y : List Char} (hy : IsNumeral y) : ∀ d ∈ y, NumeralChar d := by
  obtain @⟨s, m, e, hs, hm, he⟩ := hy
  have hdigits : ∀ {ds : List Char}, AllDigits ds → ∀ d ∈ ds, NumeralChar d :=
    fun hds d hd => .inl (hds d hd)
  have hsign : ∀ d ∈ s, NumeralChar d := by
    cases hs <;> simp [NumeralChar]
  have hmant : ∀ d ∈ m, NumeralChar d := by
    cases hm with
    | whole ha _ => exact hdigits ha
    | point ha hb _ =>
      intro d hd
      simp only [List.mem_append, List.mem_cons] at hd
      rcases hd with hd | rfl | hd
      · exact hdigits ha d hd
      · simp [NumeralChar]
      · exact hdigits hb d hd
  have hexp : ∀ d ∈ e, NumeralChar d := by
    cases he with
    | none => simp
    | mark hE hs' hds _ =>
      intro d hd
      simp only [List.mem_cons, List.mem_append] at hd
      rcases hd with rfl | hd | hd
      · rcases hE with rfl | rfl <;> simp [NumeralChar]
      · cases hs' <;> simp_all [NumeralChar]
      · exact hdigits hds d hd
  intro d hd
  simp only [List.mem_append] at hd
  rcases hd with (hd | hd) | hd
  exacts [hsign d hd, hmant d hd, hexp d hd]

theorem isIdentChar_stop_all :
    ([' ', '\t', '\r', '\n', '#', '/', '='].all fun d => !isIdentChar d) = true := by
  decide +kernel

theorem isIdentChar_stop {d : Char} (hd : d ∈ [' ', '\t', '\r', '\n', '#', '/', '=']) :
    isIdentChar d = false := by
  simpa using List.all_eq_true.mp isIdentChar_stop_all d hd

theorem isAlphabetic_punct_all :
    ([' ', '\t', '\r', '\n', '#', '/', '=', ',', '[', ']', '(', ')', '+', '-', '.'].all
      fun d => !Text.isAlphabetic d) = true := by
  decide +kernel

theorem isAlphabetic_punct {d : Char}
    (hd : d ∈ [' ', '\t', '\r', '\n', '#', '/', '=', ',', '[', ']', '(', ')', '+', '-', '.']) :
    Text.isAlphabetic d = false := by
  simpa using List.all_eq_true.mp isAlphabetic_punct_all d hd

theorem alphabeticRanges_start : ∀ r ∈ Text.alphabeticRanges, 0x41 ≤ r.1 := by
  decide +kernel

theorem isAlphabetic_of_isDigit {d : Char} (hd : d.isDigit = true) : Text.isAlphabetic d = false := by
  have hlt : d.toNat < 0x41 := by
    simp only [Char.isDigit, Bool.and_eq_true, decide_eq_true_eq] at hd
    have h9 : ('9' : Char).val.toNat = 57 := rfl
    have := hd.2
    simp only [Char.toNat, UInt32.le_iff_toNat_le] at this ⊢
    omega
  unfold Text.isAlphabetic Text.inRanges
  rw [List.any_eq_false]
  intro r hr
  have := alphabeticRanges_start r hr
  simp only [Bool.and_eq_true, decide_eq_true_eq, not_and, not_le]
  omega

theorem NumeralChar.not_blank {d : Char} (hd : NumeralChar d) : isBlank d = false := by
  rcases hd with hd | rfl | rfl | rfl | rfl | rfl
  · simp only [isBlank, decide_eq_false_iff_not]
    rintro (rfl | rfl | rfl) <;> simp at hd
  all_goals decide

theorem takeWhile_append_stop {p : Char → Bool} {xs rest : List Char} (hxs : ∀ d ∈ xs, p d = true)
    (hrest : ∀ d ∈ rest.head?, p d = false) : (xs ++ rest).takeWhile p = xs := by
  rw [List.takeWhile_append_of_pos hxs]
  cases rest with
  | nil => simp
  | cons d r => simp [hrest d rfl]

theorem eq_of_prefix_stop {P : Char → Prop} {x w rest : List Char} (hx : x <+: w ++ rest)
    (hlen : w.length ≤ x.length) (hchars : ∀ d ∈ x, P d) (hrest : ∀ d ∈ rest.head?, ¬ P d) :
    x = w := by
  obtain ⟨u, rfl⟩ := List.prefix_of_prefix_length_le (List.prefix_append w rest) hx hlen
  obtain ⟨t, ht⟩ := hx
  cases u with
  | nil => simp
  | cons d u =>
    have hhead : rest.head? = some d := by
      rw [List.append_assoc, List.append_cancel_left_eq] at ht
      rw [← ht]
      rfl
    exact absurd (hchars d (by simp)) (hrest d hhead)

theorem tokensFrom_blank {c : Char} (hc : isBlank c = true) (pos : ℕ) (cs : List Char) :
    tokensFrom pos (c :: cs) = tokensFrom (pos + c.utf8Size) cs := by
  rw [tokensFrom, if_pos hc]

theorem tokensFrom_blanks {b : List Char} (hb : ∀ d ∈ b, isBlank d = true) (pos : ℕ) (cs : List Char) :
    ∃ p, tokensFrom pos (b ++ cs) = tokensFrom p cs := by
  induction b generalizing pos with
  | nil => exact ⟨pos, rfl⟩
  | cons c b ih =>
    rw [List.cons_append, tokensFrom_blank (hb c (by simp))]
    exact ih (fun d hd => hb d (by simp [hd])) _

theorem tokensFrom_lexeme {c : Char} {xs rest : List Char} {k : Token.Kind} (hc : isBlank c = false)
    (hk : (lexeme c (xs ++ rest)).1 = k) (htaken : (lexeme c (xs ++ rest)).2.taken = xs) (pos : ℕ) :
    ∃ sp p, tokensFrom pos (c :: xs ++ rest) = ⟨k, sp, String.ofList (c :: xs)⟩ :: tokensFrom p rest := by
  have hrest : (lexeme c (xs ++ rest)).2.rest = rest := by
    have h := (lexeme c (xs ++ rest)).2.split
    rw [htaken] at h
    exact List.append_cancel_left h
  rw [List.cons_append, tokensFrom, if_neg (by simp [hc])]
  simp only [hk, htaken, hrest]
  exact ⟨_, _, rfl⟩

/-- The one-character lexemes, with their kinds. -/
def punctuation : List (Char × Token.Kind) :=
  [('\n', .newline), ('=', .equals), (',', .comma), ('[', .lbracket), (']', .rbracket),
    ('(', .lparen), (')', .rparen)]

theorem lexeme_punct {c : Char} {k : Token.Kind} (h : (c, k) ∈ punctuation) (cs : List Char) :
    (lexeme c cs).1 = k ∧ (lexeme c cs).2.taken = [] := by
  simp only [punctuation, List.mem_cons, Prod.mk.injEq, List.not_mem_nil, or_false] at h
  rcases h with ⟨rfl, rfl⟩ | ⟨rfl, rfl⟩ | ⟨rfl, rfl⟩ | ⟨rfl, rfl⟩ | ⟨rfl, rfl⟩ | ⟨rfl, rfl⟩ |
    ⟨rfl, rfl⟩ <;> simp [lexeme, Cut.empty]

theorem tokensFrom_punct {c : Char} {k : Token.Kind} (h : (c, k) ∈ punctuation) (pos : ℕ)
    (rest : List Char) :
    ∃ sp p, tokensFrom pos (c :: rest) = ⟨k, sp, String.ofList [c]⟩ :: tokensFrom p rest := by
  have hc : isBlank c = false := by
    simp only [punctuation, List.mem_cons, Prod.mk.injEq, List.not_mem_nil, or_false] at h
    rcases h with ⟨rfl, -⟩ | ⟨rfl, -⟩ | ⟨rfl, -⟩ | ⟨rfl, -⟩ | ⟨rfl, -⟩ | ⟨rfl, -⟩ | ⟨rfl, -⟩ <;> decide
  exact @tokensFrom_lexeme c [] rest k hc (lexeme_punct h rest).1 (lexeme_punct h rest).2 pos

theorem lexeme_comment {c : Char} {xs rest : List Char} (hx : IsComment (c :: xs))
    (hrest : ∀ d ∈ rest.head?, d = '\n') :
    (lexeme c (xs ++ rest)).1 = .comment ∧ (lexeme c (xs ++ rest)).2.taken = xs := by
  obtain ⟨body, hform, hbody⟩ := hx
  have hstop : ∀ d ∈ rest.head?, (!decide (d = '\n')) = false := fun d hd => by simp [hrest d hd]
  have htake : ∀ pre : List Char, '\n' ∉ pre →
      (pre ++ rest).takeWhile (fun d => !decide (d = '\n')) = pre := fun pre hpre =>
    takeWhile_append_stop (fun d hd => by
      simp only [Bool.not_eq_eq_eq_not, Bool.not_true, decide_eq_false_iff_not]
      rintro rfl
      exact hpre hd) hstop
  rcases hform with h | h
  · obtain ⟨rfl, rfl⟩ := List.cons.inj h
    simp [lexeme, Cut.span, htake _ hbody]
  · obtain ⟨rfl, rfl⟩ := List.cons.inj h
    simp [lexeme, Cut.span, htake body hbody]

theorem IsIdent.head_not_blank {c : Char} {xs : List Char} (h : IsIdent (c :: xs)) :
    isBlank c = false := by
  rcases h.1 with h | rfl
  · simp only [isBlank, decide_eq_false_iff_not]
    rintro (rfl | rfl | rfl) <;> rw [isAlphabetic_punct (by simp)] at h <;> exact Bool.false_ne_true h
  · decide

theorem lexeme_ident {c : Char} {xs rest : List Char} (hx : IsIdent (c :: xs))
    (hrest : ∀ d ∈ rest.head?, isIdentChar d = false) :
    (lexeme c (xs ++ rest)).1 = .ident ∧ (lexeme c (xs ++ rest)).2.taken = xs := by
  obtain ⟨hc, hxs⟩ := hx
  have hnot : ∀ d ∈ [' ', '\t', '\r', '\n', '#', '/', '=', ',', '[', ']', '(', ')', '+', '-', '.'],
      c ≠ d := by
    rintro d hd rfl
    rcases hc with hc | rfl
    · rw [isAlphabetic_punct hd] at hc
      exact Bool.false_ne_true hc
    · simp at hd
  have hdig : c.isDigit = false := by
    rcases hc with hc | rfl
    · cases h : c.isDigit
      · rfl
      · rw [isAlphabetic_of_isDigit h] at hc
        exact absurd hc Bool.false_ne_true
    · decide
  simp only [List.mem_cons, List.not_mem_nil, or_false, forall_eq_or_imp, forall_eq] at hnot
  simp [lexeme, hnot, hdig, hc, Cut.span, takeWhile_append_stop hxs hrest]

theorem lexeme_of_numberStart {c : Char} (hc : c = '+' ∨ c = '-' ∨ c = '.' ∨ c.isDigit = true)
    (cs : List Char) :
    lexeme c cs = (if (numberTail c cs).1 then .number else .error, (numberTail c cs).2) := by
  have hnot : ∀ d ∈ ['\n', '#', '/', '=', ',', '[', ']', '(', ')'], c ≠ d := by
    rintro d hd rfl
    simp only [List.mem_cons, List.not_mem_nil, or_false] at hd
    rcases hd with rfl | rfl | rfl | rfl | rfl | rfl | rfl | rfl | rfl <;>
      rcases hc with h | h | h | h <;> simp at h
  simp only [List.mem_cons, List.not_mem_nil, or_false, forall_eq_or_imp, forall_eq] at hnot
  obtain ⟨h1, h2, h3, h4, h5, h6, h7, h8, h9⟩ := hnot
  simp only [lexeme, h1, h2, h3, h4, h5, h6, h7, h8, h9, hc, false_or, false_and, if_false, if_true]

theorem lexeme_number {c : Char} {ws rest : List Char} (hw : IsNumeral (c :: ws))
    (hrest : ∀ d ∈ rest.head?, ¬ NumeralChar d) :
    (lexeme c (ws ++ rest)).1 = .number ∧ (lexeme c (ws ++ rest)).2.taken = ws := by
  obtain ⟨d, y', hdy, hd⟩ := hw.head
  obtain ⟨rfl, rfl⟩ := List.cons.inj hdy
  have hfits := lexeme_fits c (ws ++ rest) (hw.numeralChar c (by simp)).not_blank
  rw [lexeme_of_numberStart hd] at hfits ⊢
  -- what the lexer read and left is the whole text
  have hwhole : c :: (numberTail c (ws ++ rest)).2.taken ++ (numberTail c (ws ++ rest)).2.rest =
      c :: ws ++ rest := by
    rw [List.cons_append, (numberTail c (ws ++ rest)).2.split, List.cons_append]
  have hpre : c :: ws <+: c :: (numberTail c (ws ++ rest)).2.taken ++ (numberTail c (ws ++ rest)).2.rest :=
    hwhole ▸ List.prefix_append _ _
  cases hok : (numberTail c (ws ++ rest)).1
  · -- an error lexeme would mean no numeral starts here
    simp only [hok] at hfits
    exact absurd hw (hfits.2 _ hpre)
  · simp only [hok, if_true, true_and] at hfits ⊢
    have hle := hfits.2 _ hpre hw
    have heq := eq_of_prefix_stop (hwhole ▸ List.prefix_append _ _) hle
      (hfits.1.numeralChar) hrest
    exact (List.cons.inj heq).2

end Pieces

/-! ## The parser on the tokens of a text -/

section Parsing

theorem IsComment.exists_cons {x : List Char} (hx : IsComment x) :
    ∃ c xs, x = c :: xs ∧ isBlank c = false := by
  obtain ⟨body, hform | hform, -⟩ := hx
  · exact ⟨_, _, hform, by decide⟩
  · exact ⟨_, _, hform, by decide⟩

theorem tokensFrom_comment {x rest : List Char} (hx : IsComment x) (hrest : ∀ d ∈ rest.head?, d = '\n')
    (pos : ℕ) : ∃ sp p, tokensFrom pos (x ++ rest) = ⟨.comment, sp, String.ofList x⟩ :: tokensFrom p rest := by
  obtain ⟨c, xs, rfl, hc⟩ := hx.exists_cons
  obtain ⟨hk, htaken⟩ := lexeme_comment hx hrest
  exact tokensFrom_lexeme hc hk htaken pos

theorem Layout.skip {l : List Char} (hl : Layout l) {P : Phase} (hP : P.SkipsTrivia)
    (done : List Assignment) : ∀ pos rest, ∃ p,
      run done P (tokensFrom pos (l ++ rest)) = run done P (tokensFrom p rest) := by
  induction hl with
  | nil => exact fun pos rest => ⟨pos, rfl⟩
  | blank hc h ih =>
    intro pos rest
    rw [List.cons_append, tokensFrom_blank hc]
    exact ih _ rest
  | @newline l h ih =>
    intro pos rest
    obtain ⟨sp, p, hp⟩ := tokensFrom_punct (c := '\n') (k := .newline) (by simp [punctuation]) pos (l ++ rest)
    rw [List.cons_append, hp, run_trivia hP (.inl rfl)]
    exact ih p rest
  | @comment x l hx h ih =>
    intro pos rest
    obtain ⟨sp, p, hp⟩ := tokensFrom_comment hx
      (show ∀ d ∈ ('\n' :: (l ++ rest)).head?, d = '\n' by simp) pos
    obtain ⟨sp', p', hp'⟩ := tokensFrom_punct (c := '\n') (k := .newline) (by simp [punctuation]) p (l ++ rest)
    rw [List.append_assoc, List.cons_append, hp, run_trivia hP (.inr rfl), hp',
      run_trivia hP (.inl rfl)]
    exact ih p' rest

theorem Layout.head_mem {l : List Char} (hl : Layout l) :
    ∀ d ∈ l.head?, d ∈ [' ', '\t', '\r', '\n', '#', '/'] := by
  cases hl with
  | nil => simp
  | blank hc h =>
    simp only [isBlank, decide_eq_true_eq] at hc
    intro d hd
    obtain rfl : _ = d := Option.some.inj hd
    rcases hc with rfl | rfl | rfl <;> simp
  | newline h => intro d hd; obtain rfl : _ = d := Option.some.inj hd; simp
  | comment hx h =>
    obtain ⟨body, hform | hform, -⟩ := hx <;> subst hform <;> intro d hd <;>
      obtain rfl : _ = d := Option.some.inj hd <;> simp

theorem not_numeralChar_of_mem {d : Char} (hd : d ∈ [' ', '\t', '\r', '\n', '#', '/', ',', ']', ')']) :
    ¬ NumeralChar d := by
  simp only [List.mem_cons, List.not_mem_nil, or_false] at hd
  rcases hd with rfl | rfl | rfl | rfl | rfl | rfl | rfl | rfl | rfl <;> decide

theorem Layout.head_append {l : List Char} (hl : Layout l) (c : Char) (rest : List Char) :
    ∀ d ∈ (l ++ c :: rest).head?, d = c ∨ d ∈ [' ', '\t', '\r', '\n', '#', '/'] := by
  intro d hd
  cases l with
  | nil => exact .inl (Option.some.inj hd).symm
  | cons e l =>
    obtain rfl : e = d := Option.some.inj hd
    exact .inr (hl.head_mem e rfl)

theorem Layout.stops_number {l : List Char} (hl : Layout l) {c : Char} (hc : c ∈ [',', ']', ')'])
    (rest : List Char) : ∀ d ∈ (l ++ c :: rest).head?, ¬ NumeralChar d := by
  intro d hd
  apply not_numeralChar_of_mem
  rcases hl.head_append c rest d hd with rfl | h
  · simp only [List.mem_cons, List.not_mem_nil, or_false] at hc
    rcases hc with rfl | rfl | rfl <;> simp
  · simp only [List.mem_cons, List.not_mem_nil, or_false] at h
    rcases h with rfl | rfl | rfl | rfl | rfl | rfl <;> simp

theorem lineEnd_stops_number {b c rest : List Char} (hb : ∀ d ∈ b, isBlank d = true)
    (hc : c = [] ∨ IsComment c) (hrest : ∀ d ∈ rest.head?, d = '\n') :
    ∀ d ∈ (b ++ c ++ rest).head?, ¬ NumeralChar d := by
  intro d hd
  apply not_numeralChar_of_mem
  cases b with
  | cons e b =>
    obtain rfl : e = d := Option.some.inj hd
    have := hb e (by simp)
    simp only [isBlank, decide_eq_true_eq] at this
    rcases this with rfl | rfl | rfl <;> simp
  | nil =>
    rcases hc with rfl | hc
    · cases rest with
      | nil => simp at hd
      | cons e r => obtain rfl : e = d := Option.some.inj hd; simp [hrest e rfl]
    · obtain ⟨body, hform | hform, -⟩ := hc <;> subst hform <;>
        obtain rfl : _ = d := Option.some.inj hd <;> simp

theorem Frame.close_shape (f : Frame) (sp : Span) :
    (f.close sp).shape = .list (f.items.reverse.map Value.shape) := by
  simp [Frame.close, Value.shape]

mutual
theorem ValueText.parses {v : Shape} {w : List Char} (h : ValueText v w) (done : List Assignment)
    (name : Token) (frames : List Frame) (pos : ℕ) (rest : List Char)
    (hrest : ∀ d ∈ rest.head?, ¬ NumeralChar d) :
    ∃ v' : Value, v'.shape = v ∧ ∃ p, run done (.item name frames) (tokensFrom pos (w ++ rest)) =
      run done (Phase.deliver name v' frames) (tokensFrom p rest) :=
  match h with
  | @ValueText.number w x hw hx => by
    obtain ⟨c, ws, rfl, -⟩ := hw.head
    obtain ⟨hk, htaken⟩ := lexeme_number hw hrest
    obtain ⟨sp, p, hp⟩ := tokensFrom_lexeme (hw.numeralChar c (by simp)).not_blank hk htaken pos
    refine ⟨.number sp x, by simp [Value.shape], p, ?_⟩
    rw [hp]
    simp [run, numberValue, hx, Token.isTrivia, -String.ofList_cons]
  | @ValueText.list o c vs body hoc hb => by
    -- the opener pushes a frame with the closer's kind, which the items fill and the closer ends
    obtain ⟨k, hko, hkc⟩ : ∃ k : Token.Kind,
        (o, (if k = .rbracket then Token.Kind.lbracket else .lparen)) ∈ punctuation ∧
          (c, k) ∈ [(']', Token.Kind.rbracket), (')', .rparen)] := by
      rcases hoc with ⟨rfl, rfl⟩ | ⟨rfl, rfl⟩
      · exact ⟨.rbracket, by simp [punctuation], by simp⟩
      · exact ⟨.rparen, by simp [punctuation], by simp⟩
    obtain ⟨sp, p, hp⟩ := tokensFrom_punct hko pos (body ++ c :: rest)
    have hopen : run done (.item name frames)
        (⟨if k = .rbracket then Token.Kind.lbracket else .lparen, sp, String.ofList [o]⟩ ::
          tokensFrom p (body ++ c :: rest)) =
        run done (.item name (⟨k, sp, []⟩ :: frames)) (tokensFrom p (body ++ c :: rest)) := by
      simp only [List.mem_cons, Prod.mk.injEq, List.not_mem_nil, or_false] at hkc
      rcases hkc with ⟨-, rfl⟩ | ⟨-, rfl⟩ <;> simp [run, Token.isTrivia]
    obtain ⟨vl, hshape, p', hrun⟩ := ItemsText.parses hb done name ⟨k, sp, []⟩ frames c hkc p rest
    refine ⟨vl, by simpa using hshape, p', ?_⟩
    rw [List.cons_append, List.append_assoc, List.singleton_append, hp, hopen, hrun]

theorem ItemsText.parses {vs : List Shape} {body : List Char} (h : ItemsText vs body)
    (done : List Assignment) (name : Token) (f : Frame) (outer : List Frame) (c : Char)
    (hc : (c, f.closer) ∈ [(']', Token.Kind.rbracket), (')', .rparen)]) (pos : ℕ) (rest : List Char) :
    ∃ vl : Value, vl.shape = .list (f.items.reverse.map Value.shape ++ vs) ∧ ∃ p,
      run done (.item name (f :: outer)) (tokensFrom pos (body ++ c :: rest)) =
        run done (Phase.deliver name vl outer) (tokensFrom p rest) := by
  have hcases : (c = ']' ∧ f.closer = .rbracket) ∨ (c = ')' ∧ f.closer = .rparen) := by
    simpa only [List.mem_cons, Prod.mk.injEq, List.not_mem_nil, or_false] using hc
  have hpunct : (c, f.closer) ∈ punctuation := by
    rcases hcases with ⟨rfl, h⟩ | ⟨rfl, h⟩ <;> simp [punctuation, h]
  have hcl : f.closer = .rbracket ∨ f.closer = .rparen := hcases.imp And.right And.right
  have hcm : c ∈ [',', ']', ')'] := by
    rcases hcases with ⟨rfl, -⟩ | ⟨rfl, -⟩ <;> simp
  match h with
  | @ItemsText.nil l hl =>
    obtain ⟨p, hp⟩ := hl.skip (P := .item name (f :: outer)) trivial done pos (c :: rest)
    obtain ⟨sp, p', hp'⟩ := tokensFrom_punct hpunct p rest
    refine ⟨f.close sp, by simp [Frame.close_shape], p', ?_⟩
    rw [hp, hp', run_item_closer rfl hcl]
  | @ItemsText.last l w l' v hl hv hl' =>
    obtain ⟨p₁, hp₁⟩ := hl.skip (P := .item name (f :: outer)) trivial done pos (w ++ (l' ++ c :: rest))
    obtain ⟨v', hv', p₂, hp₂⟩ := hv.parses done name (f :: outer) p₁ (l' ++ c :: rest)
      (hl'.stops_number hcm rest)
    obtain ⟨p₃, hp₃⟩ := hl'.skip (P := .separator name { f with items := v' :: f.items } outer)
      trivial done p₂ (c :: rest)
    obtain ⟨sp, p₄, hp₄⟩ := tokensFrom_punct hpunct p₃ rest
    refine ⟨Frame.close { f with items := v' :: f.items } sp, by simp [Frame.close_shape, hv'], p₄, ?_⟩
    simp only [List.append_assoc]
    rw [hp₁, hp₂, Phase.deliver, hp₃, hp₄,
      run_separator_closer (f := { f with items := v' :: f.items }) rfl hcl]
  | @ItemsText.cons l w l' r v vs' hl hv hl' hr =>
    obtain ⟨p₁, hp₁⟩ := hl.skip (P := .item name (f :: outer)) trivial done pos
      (w ++ (l' ++ ',' :: (r ++ c :: rest)))
    obtain ⟨v', hv', p₂, hp₂⟩ := hv.parses done name (f :: outer) p₁ (l' ++ ',' :: (r ++ c :: rest))
      (hl'.stops_number (by simp) _)
    obtain ⟨p₃, hp₃⟩ := hl'.skip (P := .separator name { f with items := v' :: f.items } outer)
      trivial done p₂ (',' :: (r ++ c :: rest))
    obtain ⟨sp, p₄, hp₄⟩ := tokensFrom_punct (c := ',') (k := .comma) (by simp [punctuation]) p₃ (r ++ c :: rest)
    obtain ⟨vl, hvl, p₅, hp₅⟩ := ItemsText.parses hr done name { f with items := v' :: f.items } outer c hc p₄ rest
    refine ⟨vl, by simpa [hv'] using hvl, p₅, ?_⟩
    simp only [List.append_assoc, List.cons_append]
    rw [hp₁, hp₂, Phase.deliver, hp₃, hp₄, run_separator_comma done _ rfl, hp₅]
end

theorem AssignmentText.parses {a : String × Shape} {x : List Char} (h : AssignmentText a x)
    (done : List Assignment) (pos : ℕ) (rest : List Char) (hrest : ∀ d ∈ rest.head?, d = '\n') :
    ∃ asg : Assignment, (asg.name, asg.value.shape) = a ∧ ∃ cm p,
      run done .statement (tokensFrom pos (x ++ rest)) = run done (.lineEnd asg cm) (tokensFrom p rest) := by
  obtain @⟨n, l, l', w, b, c, v, hn, hl, hl', hv, hb, hc⟩ := h
  obtain ⟨c₀, ns, rfl⟩ : ∃ c₀ ns, n = c₀ :: ns := by
    cases n with
    | nil => exact absurd hn id
    | cons c₀ ns => exact ⟨c₀, ns, rfl⟩
  have hstop : ∀ d ∈ (l ++ '=' :: (l' ++ w ++ b ++ c ++ rest)).head?, isIdentChar d = false := by
    intro d hd
    apply isIdentChar_stop
    rcases hl.head_append '=' _ d hd with rfl | h
    · simp
    · simp only [List.mem_cons, List.not_mem_nil, or_false] at h
      rcases h with rfl | rfl | rfl | rfl | rfl | rfl <;> simp
  obtain ⟨hk, htaken⟩ := lexeme_ident hn hstop
  obtain ⟨sp, p₁, hp₁⟩ := tokensFrom_lexeme hn.head_not_blank hk htaken pos
  set name : Token := ⟨.ident, sp, String.ofList (c₀ :: ns)⟩
  obtain ⟨p₂, hp₂⟩ := hl.skip (P := .equals name) trivial done p₁ ('=' :: (l' ++ w ++ b ++ c ++ rest))
  obtain ⟨sp', p₃, hp₃⟩ := tokensFrom_punct (c := '=') (k := .equals) (by simp [punctuation]) p₂
    (l' ++ w ++ b ++ c ++ rest)
  obtain ⟨p₄, hp₄⟩ := hl'.skip (P := .item name []) trivial done p₃ (w ++ b ++ c ++ rest)
  obtain ⟨v', hv', p₅, hp₅⟩ := hv.parses done name [] p₄ (b ++ c ++ rest)
    (lineEnd_stops_number hb hc hrest)
  obtain ⟨p₆, hp₆⟩ := tokensFrom_blanks hb p₅ (c ++ rest)
  refine ⟨⟨name.span.merge v'.span, name.text, v'⟩, by simp [name, hv'], ?_⟩
  have hlead : run done .statement (tokensFrom pos (c₀ :: ns ++ l ++ '=' :: (l' ++ w ++ b ++ c) ++ rest)) =
      run done (.lineEnd ⟨name.span.merge v'.span, name.text, v'⟩ false) (tokensFrom p₆ (c ++ rest)) := by
    simp only [List.append_assoc, List.cons_append] at hp₁ hp₂ hp₃ hp₄ hp₅ hp₆ ⊢
    rw [hp₁, run_statement_ident done _ rfl, hp₂, hp₃, run_equals_equals done _ rfl, hp₄, hp₅,
      Phase.deliver, hp₆]
  rcases hc with rfl | hc
  · exact ⟨false, p₆, by simpa using hlead⟩
  · obtain ⟨sp'', p₇, hp₇⟩ := tokensFrom_comment hc hrest p₆
    exact ⟨true, p₇, by rw [hlead, hp₇, run_lineEnd_comment done _ rfl]⟩

theorem DocumentText.parses {as : List (String × Shape)} {text : List Char} (h : DocumentText as text) :
    ∀ (done : List Assignment) (pos : ℕ), ∃ ds : List Assignment,
      ds.map (fun a => (a.name, a.value.shape)) = as ∧
        run done .statement (tokensFrom pos text) = .ok (done.reverse ++ ds) := by
  induction h with
  | @nil l c hl hc =>
    intro done pos
    obtain ⟨p, hp⟩ := hl.skip (P := .statement) trivial done pos c
    refine ⟨[], rfl, ?_⟩
    rw [hp]
    rcases hc with rfl | hc
    · simp [tokensFrom, run_statement_eof]
    · obtain ⟨sp, p', hp'⟩ := tokensFrom_comment hc (by simp : ∀ d ∈ ([] : List Char).head?, d = '\n') p
      rw [List.append_nil] at hp'
      rw [hp', run_trivia (P := .statement) (t := ⟨.comment, sp, String.ofList c⟩) trivial (.inr rfl)]
      simp [tokensFrom, run_statement_eof]
  | @last l x a hl ha =>
    intro done pos
    obtain ⟨p, hp⟩ := hl.skip (P := .statement) trivial done pos x
    obtain ⟨asg, hasg, cm, p', hp'⟩ := ha.parses done p [] (by simp)
    refine ⟨[asg], by simp [hasg], ?_⟩
    rw [List.append_nil] at hp'
    rw [hp, hp']
    simpa [tokensFrom] using run_lineEnd_eof done [] (t := ⟨.eof, ⟨p', p'⟩, ""⟩) rfl asg cm
  | @cons l x r a as hl ha hr ih =>
    intro done pos
    obtain ⟨p, hp⟩ := hl.skip (P := .statement) trivial done pos (x ++ '\n' :: r)
    obtain ⟨asg, hasg, cm, p', hp'⟩ := ha.parses done p ('\n' :: r) (by simp)
    obtain ⟨sp, p'', hp''⟩ := tokensFrom_punct (c := '\n') (k := .newline) (by simp [punctuation]) p' r
    obtain ⟨ds, hds, hrun⟩ := ih (asg :: done) p''
    refine ⟨asg :: ds, by simp [hasg, hds], ?_⟩
    rw [List.append_assoc, hp, hp', hp'', run_lineEnd_newline done _ rfl, hrun]
    simp

end Parsing

/-- Parsing any text of a document gives back its assignments: the same names in the same order
and the same values, up to spans. -/
theorem parse_documentText {as : List (String × Shape)} {text : List Char} (h : DocumentText as text) :
    ∃ d : Document, Document.parse (String.ofList text) = .ok d ∧
      d.assignments.map (fun a => (a.name, a.value.shape)) = as := by
  obtain ⟨ds, hds, hrun⟩ := h.parses [] 0
  refine ⟨⟨ds⟩, ?_, hds⟩
  rw [parse_eq_run, tokenize, String.toList_ofList, hrun]
  rfl

/-- `b = [4]` is a text of the document binding `b` to the list of `4`, and it parses back. -/
theorem parse_documentText_listOfFour :
    DocumentText [(String.ofList ['b'], .list [.number (Decimal.toFloat 4 0)])]
        ['b', ' ', '=', ' ', '[', '4', ']'] ∧
      ∃ d : Document, Document.parse (String.ofList ['b', ' ', '=', ' ', '[', '4', ']']) = .ok d ∧
        d.assignments.map (fun a => (a.name, a.value.shape)) =
          [(String.ofList ['b'], .list [.number (Decimal.toFloat 4 0)])] := by
  have hfour : ValueText (.number (Decimal.toFloat 4 0)) ['4'] :=
    .number (IsNumeral.mk (s := []) (m := ['4']) (e := []) .none (.whole (by simp [AllDigits]) (by simp)) .none) rfl
  have hlist : ValueText (.list [.number (Decimal.toFloat 4 0)]) ['[', '4', ']'] :=
    .list (.inl ⟨rfl, rfl⟩) (@ItemsText.last [] ['4'] [] _ .nil hfour .nil)
  have hname : IsIdent ['b'] := ⟨.inl (by decide +kernel), by simp⟩
  have htext : DocumentText [(String.ofList ['b'], .list [.number (Decimal.toFloat 4 0)])]
      ['b', ' ', '=', ' ', '[', '4', ']'] :=
    .last (l := []) .nil (@AssignmentText.mk ['b'] [' '] [' '] _ [] [] _ hname
      (.blank rfl .nil) (.blank rfl .nil) hlist (by simp) (.inl rfl))
  exact ⟨htext, parse_documentText htext⟩

end RevisedSimplex.Source
