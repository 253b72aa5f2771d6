import Mathlib
import RevisedSimplex.Proofs.Lexing
import RevisedSimplex.Proofs.ParseSteps
import RevisedSimplex.Proofs.Descent

/-! # Where parsed values stand in the text

Every span of a document read from a text `s` is a non-empty stretch of `s` between character
boundaries: a number stands on its number token, a list runs from its opener to the matching
closer with its items inside and in order, an assignment runs from its name to the end of its
value, and the assignments follow one another (`parse_places_spans`). The proof follows the
automaton one token at a time with the invariant `Phase.Placed` (`Moves.placed`, `run_placed`).
-/

namespace RevisedSimplex.Source

/-! ## Spans in a text -/

/-- The text of `s` that the span `sp` covers. -/
def Span.text (s : String) (sp : Span) : String :=
  String.Pos.Raw.extract s ⟨sp.start⟩ ⟨sp.stop⟩

/-- `sp` is a non-empty stretch of `s` that starts and ends on character boundaries. -/
structure Span.InText (s : String) (sp : Span) : Prop where
  lt : sp.start < sp.stop
  le_size : sp.stop ≤ s.utf8ByteSize
  valid_start : String.Pos.Raw.IsValid s ⟨sp.start⟩
  valid_stop : String.Pos.Raw.IsValid s ⟨sp.stop⟩

/-- The first and the last byte of `sp` in `s` are a matching pair of brackets or of
parentheses. -/
def Span.Delimited (s : String) (sp : Span) : Prop :=
  Span.text s ⟨sp.start, sp.start + 1⟩ = "[" ∧ Span.text s ⟨sp.stop - 1, sp.stop⟩ = "]" ∨
    Span.text s ⟨sp.start, sp.start + 1⟩ = "(" ∧ Span.text s ⟨sp.stop - 1, sp.stop⟩ = ")"

theorem Span.merge_of_le {a b : Span} (hstart : a.start ≤ b.start) (hstop : a.stop ≤ b.stop) :
    a.merge b = ⟨a.start, b.stop⟩ := by
  unfold Span.merge
  rw [min_eq_left hstart, max_eq_right hstop]

/-- Where a value read from `s` stands: a number on the number token whose text reads as its
value; a list between a matching pair of delimiters, with its items inside it, in order. -/
inductive Value.Placed (s : String) : Value → Prop
  | number {sp : Span} {x : Float} (hsp : sp.InText s)
      (htoken : (⟨.number, sp, sp.text s⟩ : Token) ∈ tokenize s)
      (hx : Decimal.readFloat? (sp.text s) = some x) : Value.Placed s (.number sp x)
  | list {sp : Span} {items : List Value} (hsp : sp.InText s) (hdelim : sp.Delimited s)
      (hitems : ∀ v ∈ items, Value.Placed s v)
      (hinside : ∀ v ∈ items, sp.start + 1 ≤ v.span.start ∧ v.span.stop ≤ sp.stop - 1)
      (hsorted : items.Pairwise fun u v => u.span.stop ≤ v.span.start) :
      Value.Placed s (.list sp items)

/-- Where an assignment read from `s` stands: from its name, which its span starts with, to the
end of its value. -/
structure Assignment.Placed (s : String) (a : Assignment) : Prop where
  span : a.span.InText s
  name : Span.text s ⟨a.span.start, a.span.start + a.name.utf8ByteSize⟩ = a.name
  name_le : a.span.start + a.name.utf8ByteSize ≤ a.value.span.start
  stop : a.span.stop = a.value.span.stop
  value : a.value.Placed s

theorem Value.Placed.inText {s : String} {v : Value} (h : v.Placed s) : v.span.InText s := by
  cases h with
  | number hsp => exact hsp
  | list hsp => exact hsp

/-! ## Tokens in the text -/

/-- A token of the text `s`: a slice of it and, unless it is the end token, a lexeme that fits
its kind. -/
structure Token.Lexed (s : String) (t : Token) : Prop where
  mem : t ∈ tokenize s
  slices : t.Slices s.toList
  fits : t.kind = .eof ∨ ∃ x rest, x ≠ [] ∧ t.kind.Fits x rest ∧ t.text = String.ofList x

namespace Token.Lexed

variable {s : String} {t : Token}

theorem of_mem (ht : t ∈ tokenize s) : t.Lexed s := by
  have h := lexes_tokensFrom 0 s.toList
  refine ⟨ht, h.slices [] rfl t ht, ?_⟩
  rcases h.fits t ht with heof | ⟨x, rest, hx, hfit, htext, -⟩
  · exact .inl heof
  · exact .inr ⟨x, rest, hx, hfit, htext⟩

theorem text_eq (h : t.Lexed s) : t.text = t.span.text s :=
  h.slices.bounds.2.2.2

theorem stop_eq (h : t.Lexed s) : t.span.stop = t.span.start + t.text.utf8ByteSize := by
  obtain ⟨pre, x, post, -, hspan, htext⟩ := h.slices
  rw [hspan, htext, ← byteLength_eq_utf8ByteSize]

theorem stop_le (h : t.Lexed s) : t.span.stop ≤ s.utf8ByteSize := by
  obtain ⟨pre, x, post, hs, hspan, -⟩ := h.slices
  have hsize : s.utf8ByteSize = byteLength (pre ++ x ++ post) := by
    rw [← hs, byteLength_eq_utf8ByteSize, String.ofList_toList]
  rw [hspan, hsize]
  simp only [byteLength_append]
  omega

theorem inText (h : t.Lexed s) (hk : t.kind ≠ .eof) : t.span.InText s := by
  obtain ⟨-, hstart, hstop, -⟩ := h.slices.bounds
  refine ⟨?_, h.stop_le, hstart, hstop⟩
  rcases h.fits with heof | ⟨x, rest, hx, -, htext⟩
  · exact absurd heof hk
  · have hpos := byteLength_pos hx
    rw [h.stop_eq, htext, ← byteLength_eq_utf8ByteSize]
    omega

theorem mem_of_kind {k : Token.Kind} (h : t.Lexed s) (hk : t.kind = k) :
    (⟨k, t.span, t.span.text s⟩ : Token) ∈ tokenize s := by
  rw [← hk, ← h.text_eq]
  exact h.mem

theorem delimiter {k : Token.Kind} {d : String} (h : t.Lexed s) (hk : t.kind = k)
    (hne : k ≠ .eof) (hfit : ∀ x rest, k.Fits x rest → String.ofList x = d)
    (hsize : d.utf8ByteSize = 1) :
    t.span.stop = t.span.start + 1 ∧ Span.text s ⟨t.span.start, t.span.start + 1⟩ = d := by
  rcases h.fits with heof | ⟨x, rest, -, hx, htext⟩
  · exact absurd (hk.symm.trans heof) hne
  · rw [hk] at hx
    have htd : t.text = d := htext.trans (hfit x rest hx)
    have hone : t.span.stop = t.span.start + 1 := by rw [h.stop_eq, htd, hsize]
    refine ⟨hone, ?_⟩
    rw [← hone, ← htd, h.text_eq]

end Token.Lexed

/-! ## What the parser holds -/

/-- The assignments read so far stand in `s` in order, the last one first, and end by `b`. -/
structure PlacedBefore (s : String) (done : List Assignment) (b : ℕ) : Prop where
  placed : ∀ a ∈ done, a.Placed s
  le : ∀ a ∈ done, a.span.stop ≤ b
  sorted : done.reverse.Pairwise fun a c => a.span.stop ≤ c.span.start

/-- The name token of the assignment being read, after the assignments read before it. -/
structure NameAt (s : String) (done : List Assignment) (name : Token) : Prop where
  before : PlacedBefore s done name.span.start
  lexed : name.Lexed s

/-- An open list of `s`: its opener is one byte, the bracket or parenthesis that matches its
closer, and its items so far, the last one first, stand in order between the opener and `hi`. -/
structure Frame.Placed (s : String) (f : Frame) (hi : ℕ) : Prop where
  opener_stop : f.opener.stop = f.opener.start + 1
  opener_le : f.opener.stop ≤ hi
  opener_valid : String.Pos.Raw.IsValid s ⟨f.opener.start⟩
  opens : f.closer = .rbracket ∧ Span.text s ⟨f.opener.start, f.opener.start + 1⟩ = "[" ∨
    f.closer = .rparen ∧ Span.text s ⟨f.opener.start, f.opener.start + 1⟩ = "("
  items : ∀ v ∈ f.items, v.Placed s
  inside : ∀ v ∈ f.items, f.opener.stop ≤ v.span.start ∧ v.span.stop ≤ hi
  sorted : f.items.reverse.Pairwise fun u v => u.span.stop ≤ v.span.start

/-- The open lists, innermost first: the outermost opened after `lo`, each other one after the
items of the list around it, and the innermost holding its items before `hi`. -/
inductive Frame.Stacked (s : String) (lo : ℕ) : List Frame → ℕ → Prop
  | nil {hi : ℕ} (h : lo ≤ hi) : Frame.Stacked s lo [] hi
  | cons {f : Frame} {outer : List Frame} {hi : ℕ} (houter : Frame.Stacked s lo outer f.opener.start)
      (hf : f.Placed s hi) : Frame.Stacked s lo (f :: outer) hi

/-- Where the parser stands, in each phase, once it has read `s` up to byte `q`. -/
def Phase.Placed (s : String) (done : List Assignment) (q : ℕ) : Phase → Prop
  | .statement => PlacedBefore s done q
  | .equals name => NameAt s done name ∧ name.span.stop ≤ q
  | .item name frames => NameAt s done name ∧ Frame.Stacked s name.span.stop frames q
  | .separator name f outer => NameAt s done name ∧ Frame.Stacked s name.span.stop (f :: outer) q
  | .lineEnd a _ => PlacedBefore s done a.span.start ∧ a.Placed s ∧ a.span.stop ≤ q

section Invariant

variable {s : String}

theorem PlacedBefore.mono {done : List Assignment} {b b' : ℕ} (h : PlacedBefore s done b)
    (hb : b ≤ b') : PlacedBefore s done b' :=
  ⟨h.placed, fun a ha => (h.le a ha).trans hb, h.sorted⟩

theorem PlacedBefore.push {done : List Assignment} {a : Assignment}
    (h : PlacedBefore s done a.span.start) (ha : a.Placed s) :
    PlacedBefore s (a :: done) a.span.stop := by
  have hlt := ha.span.lt
  refine ⟨?_, ?_, ?_⟩
  · rintro c (_ | ⟨_, hc⟩)
    · exact ha
    · exact h.placed c hc
  · rintro c (_ | ⟨_, hc⟩)
    · exact le_rfl
    · exact (h.le c hc).trans hlt.le
  · have hsorted := h.sorted
    rw [List.pairwise_reverse] at hsorted ⊢
    exact List.pairwise_cons.mpr ⟨h.le, hsorted⟩

theorem Frame.Placed.mono {f : Frame} {hi hi' : ℕ} (h : f.Placed s hi) (hle : hi ≤ hi') :
    f.Placed s hi' :=
  { h with
    opener_le := h.opener_le.trans hle
    inside := fun v hv => ⟨(h.inside v hv).1, (h.inside v hv).2.trans hle⟩ }

theorem Frame.Stacked.mono {lo hi hi' : ℕ} {frames : List Frame} (h : Frame.Stacked s lo frames hi)
    (hle : hi ≤ hi') : Frame.Stacked s lo frames hi' := by
  cases h with
  | nil h => exact .nil (h.trans hle)
  | cons houter hf => exact .cons houter (hf.mono hle)

theorem Phase.Placed.mono {done : List Assignment} {phase : Phase} {q q' : ℕ}
    (h : phase.Placed s done q) (hle : q ≤ q') : phase.Placed s done q' := by
  cases phase with
  | statement => exact PlacedBefore.mono h hle
  | equals name =>
    obtain ⟨hn, hstop⟩ := h
    exact ⟨hn, hstop.trans hle⟩
  | item name frames =>
    obtain ⟨hn, hstack⟩ := h
    exact ⟨hn, hstack.mono hle⟩
  | separator name f outer =>
    obtain ⟨hn, hstack⟩ := h
    exact ⟨hn, hstack.mono hle⟩
  | lineEnd a c =>
    obtain ⟨hdone, ha, hstop⟩ := h
    exact ⟨hdone, ha, hstop.trans hle⟩

theorem Frame.placed_opened {t : Token} {c : Token.Kind} (ht : t.Lexed s)
    (hone : t.span.stop = t.span.start + 1)
    (hc : c = .rbracket ∧ Span.text s ⟨t.span.start, t.span.start + 1⟩ = "[" ∨
      c = .rparen ∧ Span.text s ⟨t.span.start, t.span.start + 1⟩ = "(") :
    Frame.Placed s ⟨c, t.span, []⟩ t.span.stop where
  opener_stop := hone
  opener_le := le_rfl
  opener_valid := ht.slices.bounds.2.1
  opens := hc
  items := by simp
  inside := by simp
  sorted := List.Pairwise.nil

theorem Frame.Placed.push {f : Frame} {v : Value} (hf : f.Placed s v.span.start)
    (hv : v.Placed s) : Frame.Placed s { f with items := v :: f.items } v.span.stop := by
  have hlt := hv.inText.lt
  refine { hf with opener_le := hf.opener_le.trans hlt.le, items := ?_, inside := ?_, sorted := ?_ }
  · rintro u (_ | ⟨_, hu⟩)
    · exact hv
    · exact hf.items u hu
  · rintro u (_ | ⟨_, hu⟩)
    · exact ⟨hf.opener_le, le_rfl⟩
    · exact ⟨(hf.inside u hu).1, (hf.inside u hu).2.trans hlt.le⟩
  · show (v :: f.items).reverse.Pairwise _
    have hsorted := hf.sorted
    rw [List.pairwise_reverse] at hsorted ⊢
    exact List.pairwise_cons.mpr ⟨fun u hu => (hf.inside u hu).2, hsorted⟩

theorem Frame.Placed.close {f : Frame} {t : Token} {q : ℕ} (hf : f.Placed s q) (ht : t.Lexed s)
    (hk : t.kind = f.closer) (hq : q ≤ t.span.start) :
    (f.close t.span).Placed s ∧ (f.close t.span).span = ⟨f.opener.start, t.span.stop⟩ := by
  obtain ⟨ho, hle, hvalid, hopens, hitems, hinside, hsorted⟩ := hf
  have hclose : t.span.stop = t.span.start + 1 ∧ Span.Delimited s ⟨f.opener.start, t.span.stop⟩ := by
    rcases hopens with ⟨hc, hl⟩ | ⟨hc, hl⟩
    · obtain ⟨hone, hr⟩ := ht.delimiter (d := "]") (hk.trans hc) (by decide)
        (by rintro _ _ rfl; decide) (by decide)
      refine ⟨hone, Or.inl ⟨hl, ?_⟩⟩
      rwa [hone, Nat.add_sub_cancel]
    · obtain ⟨hone, hr⟩ := ht.delimiter (d := ")") (hk.trans hc) (by decide)
        (by rintro _ _ rfl; decide) (by decide)
      refine ⟨hone, Or.inr ⟨hl, ?_⟩⟩
      rwa [hone, Nat.add_sub_cancel]
  obtain ⟨hone, hdelim⟩ := hclose
  have hspan : f.opener.merge t.span = ⟨f.opener.start, t.span.stop⟩ :=
    Span.merge_of_le (by omega) (by omega)
  refine ⟨?_, hspan⟩
  show Value.Placed s (.list (f.opener.merge t.span) f.items.reverse)
  rw [hspan]
  refine .list ⟨by dsimp only; omega, ht.stop_le, hvalid, ht.slices.bounds.2.2.1⟩ hdelim
    (fun v hv => hitems v (List.mem_reverse.mp hv)) (fun v hv => ?_) hsorted
  have hv' := hinside v (List.mem_reverse.mp hv)
  dsimp only
  omega

theorem Phase.Placed.deliver {done : List Assignment} {name : Token} {v : Value}
    {frames : List Frame} (hname : NameAt s done name)
    (hstack : Frame.Stacked s name.span.stop frames v.span.start) (hv : v.Placed s) :
    (Phase.deliver name v frames).Placed s done v.span.stop := by
  have hvs := hv.inText
  cases hstack with
  | nil hle =>
    obtain ⟨hname_le, hname_start, -, -⟩ := hname.lexed.slices.bounds
    have hsize := hname.lexed.stop_eq
    have hlt := hvs.lt
    have hspan : name.span.merge v.span = ⟨name.span.start, v.span.stop⟩ :=
      Span.merge_of_le (by omega) (by omega)
    have hdeliver : Phase.deliver name v [] =
        .lineEnd ⟨⟨name.span.start, v.span.stop⟩, name.text, v⟩ false := by
      rw [Phase.deliver, hspan]
    rw [hdeliver]
    refine ⟨hname.before, ⟨⟨?_, hvs.le_size, hname_start, hvs.valid_stop⟩, ?_, ?_, rfl, hv⟩, le_rfl⟩
    · show name.span.start < v.span.stop
      omega
    · show Span.text s ⟨name.span.start, name.span.start + name.text.utf8ByteSize⟩ = name.text
      rw [← hsize, hname.lexed.text_eq]
    · show name.span.start + name.text.utf8ByteSize ≤ v.span.start
      rw [← hsize]
      exact hle
  | cons houter hf => exact ⟨hname, .cons houter (hf.push hv)⟩

theorem Phase.Placed.close {done : List Assignment} {name t : Token} {f : Frame}
    {outer : List Frame} {q : ℕ} (hname : NameAt s done name)
    (hstack : Frame.Stacked s name.span.stop (f :: outer) q) (ht : t.Lexed s)
    (hk : t.kind = f.closer) (hq : q ≤ t.span.start) :
    (Phase.deliver name (f.close t.span) outer).Placed s done t.span.stop := by
  cases hstack with
  | cons houter hf =>
    obtain ⟨hv, hspan⟩ := hf.close ht hk hq
    have hdone := Phase.Placed.deliver hname (by rw [hspan]; exact houter) hv
    exact hdone.mono (by rw [hspan])

end Invariant

/-! ## Runs keep the invariant -/

section Runs

variable {s : String}

/-- Every move keeps the parser's invariant, from before the token to after it. -/
theorem Moves.placed {done done' : List Assignment} {phase phase' : Phase} {t : Token} {q : ℕ}
    (hm : Moves done phase t done' phase') (hp : phase.Placed s done q) (ht : t.Lexed s)
    (hq : q ≤ t.span.start) : phase'.Placed s done' t.span.stop := by
  have hstop : q ≤ t.span.stop := hq.trans ht.slices.bounds.1
  cases hm with
  | stay => exact hp.mono hstop
  | name hk => exact ⟨⟨PlacedBefore.mono hp hq, ht⟩, le_rfl⟩
  | equals hk =>
    obtain ⟨hn, hle⟩ := hp
    exact ⟨hn, .nil (hle.trans hstop)⟩
  | number hk hx =>
    obtain ⟨hn, hstack⟩ := hp
    have hv : (Value.number t.span _).Placed s :=
      .number (ht.inText (by rw [hk]; decide)) (ht.mem_of_kind hk) (by rw [← ht.text_eq]; exact hx)
    exact Phase.Placed.deliver hn (hstack.mono hq) hv
  | bracket hk =>
    obtain ⟨hn, hstack⟩ := hp
    obtain ⟨hone, hl⟩ := ht.delimiter (d := "[") hk (by decide) (by rintro _ _ rfl; decide)
      (by decide)
    exact ⟨hn, .cons (hstack.mono hq) (Frame.placed_opened ht hone (.inl ⟨rfl, hl⟩))⟩
  | paren hk =>
    obtain ⟨hn, hstack⟩ := hp
    obtain ⟨hone, hl⟩ := ht.delimiter (d := "(") hk (by decide) (by rintro _ _ rfl; decide)
      (by decide)
    exact ⟨hn, .cons (hstack.mono hq) (Frame.placed_opened ht hone (.inr ⟨rfl, hl⟩))⟩
  | closeItem hk =>
    obtain ⟨hn, hstack⟩ := hp
    exact Phase.Placed.close hn hstack ht hk hq
  | comma hk =>
    obtain ⟨hn, hstack⟩ := hp
    exact ⟨hn, hstack.mono hstop⟩
  | closeSeparator hk =>
    obtain ⟨hn, hstack⟩ := hp
    exact Phase.Placed.close hn hstack ht hk hq
  | comment hk => exact hp.mono hstop
  | newline hk =>
    obtain ⟨hdone, ha, hle⟩ := hp
    exact (hdone.push ha).mono (hle.trans hstop)

/-- A run that ends with a document ends with placed assignments, in order. -/
theorem Ends.placed {done : List Assignment} {phase : Phase} {t : Token} {q : ℕ}
    {as : List Assignment} (he : Ends done phase t (.ok as)) (hp : phase.Placed s done q) :
    (∀ a ∈ as, a.Placed s) ∧ as.Pairwise fun a b => a.span.stop ≤ b.span.start := by
  generalize hr : (Except.ok as : Except ParseError (List Assignment)) = r at he
  cases he with
  | statement =>
    cases hr
    exact ⟨fun a ha => hp.placed a (List.mem_reverse.mp ha), hp.sorted⟩
  | @lineEnd _ a =>
    cases hr
    obtain ⟨hdone, ha, -⟩ := hp
    have hall := hdone.push ha
    exact ⟨fun c hc => hall.placed c (List.mem_reverse.mp hc), hall.sorted⟩
  | misplaced => cases hr
  | unreadable => cases hr

/-- A run over tokens of `s` that come in order after byte `q`, from a phase placed up to `q`,
that ends with a document ends with placed assignments, in order. The induction is on the
tokens, and each token either moves the parser on, keeping the invariant, or ends the run. -/
theorem run_placed {done : List Assignment} {phase : Phase} {ts : List Token} {q : ℕ}
    {as : List Assignment} (hp : phase.Placed s done q)
    (hts : ∀ t ∈ ts, t.Lexed s ∧ q ≤ t.span.start)
    (hsorted : ts.Pairwise fun t u => t.span.stop ≤ u.span.start)
    (h : run done phase ts = .ok as) :
    (∀ a ∈ as, a.Placed s) ∧ as.Pairwise fun a b => a.span.stop ≤ b.span.start := by
  induction ts generalizing done phase q with
  | nil =>
    rw [run_nil] at h
    cases h
  | cons t ts ih =>
    obtain ⟨ht, hq⟩ := hts t List.mem_cons_self
    rcases run_cons h with ⟨done', phase', hm, hrun⟩ | hend
    · refine ih (hm.placed hp ht hq) (fun u hu => ⟨(hts u (List.mem_cons_of_mem t hu)).1, ?_⟩)
        hsorted.of_cons hrun
      exact List.rel_of_pairwise_cons hsorted hu
    · exact hend.placed hp

end Runs

/-- Every span of a document read from `s` lies in `s`, on character boundaries. A number
stands on its number token, whose text reads as its value. A list runs from its opener to its
closer, a matching pair of brackets or parentheses, and its items stand inside it, in order and
apart. An assignment starts with its name and ends with its value, and the assignments follow
one another. -/
theorem parse_places_spans {s : String} {d : Document} (h : Document.parse s = .ok d) :
    (∀ a ∈ d.assignments, a.Placed s) ∧
      d.assignments.Pairwise fun a b => a.span.stop ≤ b.span.start := by
  have hrun : run [] .statement (tokenize s) = .ok d.assignments := by
    rw [parse_eq_run] at h
    cases hr : run [] .statement (tokenize s) <;> simp_all [Except.map]
    subst h
    rfl
  have hstart : Phase.Placed s [] 0 .statement := ⟨by simp, by simp, by simp⟩
  have hlex := lexes_tokensFrom 0 s.toList
  exact run_placed hstart (fun t ht => ⟨.of_mem ht, Nat.zero_le _⟩) hlex.sorted.2 hrun

/-- In "b = [4]" the assignment runs over the whole text and its list from byte 4 on. -/
theorem parse_places_spans_listOfOne :
    ∃ d, Document.parse "b = [4]" = .ok d ∧
      d.assignments.map (fun a => (a.span, a.value.span)) = [(⟨0, 7⟩, ⟨4, 7⟩)] ∧
      (∀ a ∈ d.assignments, a.Placed "b = [4]") ∧
      d.assignments.Pairwise fun a b => a.span.stop ≤ b.span.start := by
  have hspans : (Document.parse "b = [4]").map (fun d => d.assignments.map
      (fun a => (a.span, a.value.span))) = .ok [(⟨0, 7⟩, ⟨4, 7⟩)] := by
    decide +kernel
  cases hd : Document.parse "b = [4]" with
  | error e =>
    rw [hd] at hspans
    cases hspans
  | ok d =>
    rw [hd] at hspans
    exact ⟨d, rfl, Except.ok.inj hspans, parse_places_spans hd⟩

end RevisedSimplex.Source
