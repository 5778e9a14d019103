import SqlScript.Statements
import SqlScript.Proofs.Reading

/-!
# Text that is copied as it stands

What stands in a quotation, and a character behind a backslash, belongs to the statement whatever
it is and whatever the tokens are. `Context.isLiteralAll` says of a text that all its characters
are of this kind, and `Scan.exists_copies` that the scan copies such a text: `Scan.Copies` says
where it stands afterwards, and that it ended no statement, passed over no comment and did not give
up on the way.

The text between the marks of a quotation is a `Quote.Body`. Up to its closing mark a quotation is
copied always, and with that mark if no token starts there; an escape is copied anywhere
(`Scan.copies_quotation_and_escape`).
-/

namespace SqlScript

/-- A text for the inside of a quotation: marks that would close it are escaped, and the last
character escapes nothing. -/
inductive Quote.Body (q : Quote) : Text → Prop
  /-- Nothing stands in the quotation. -/
  | nil : Body q []
  /-- A character that neither escapes another one nor closes the quotation. -/
  | plain {c : Char} {t : Text} (hesc : c ≠ escapeMark) (hq : c ≠ q.mark) (ht : Body q t) :
      Body q (c :: t)
  /-- A backslash, and the character that it escapes. -/
  | escaped {c : Char} {t : Text} (ht : Body q t) : Body q (escapeMark :: c :: t)

/-! ### Literal texts -/

namespace Context

/-- Whether all characters of a text are literal when it is read from this context on. -/
def isLiteralAll (x : Context) : Text → Bool
  | [] => true
  | c :: t => x.isLiteral c && (x.read c).isLiteralAll t

variable {x : Context} {q : Quote} {c : Char} {t : Text}

theorem read_escapeMark (h : x.escaped = false) :
    x.read escapeMark = { x with escaped := true } := by
  simp [read, h]

theorem read_of_escaped (h : x.escaped = true) : x.read c = { x with escaped := false } := by
  simp [read, h]

theorem isLiteral_escapeMark : x.isLiteral escapeMark = true := by
  simp [isLiteral]

theorem isLiteral_of_escaped (h : x.escaped = true) : x.isLiteral c = true := by
  simp [isLiteral, h]

theorem read_clear_mark (q : Quote) : clear.read q.mark = ⟨some q, false⟩ := by
  cases q <;> rfl

/-- Other characters than the backslash and the closing mark change nothing in a quotation. -/
theorem read_of_ne_mark (hesc : c ≠ escapeMark) (hq : c ≠ q.mark) :
    (⟨some q, false⟩ : Context).read c = ⟨some q, false⟩ := by
  simp [read, hesc, hq]

/-- An escape is literal, and the context after it is that before it. -/
theorem escape_isLiteralAll (h : x.escaped = false) (c : Char) :
    x.isLiteralAll [escapeMark, c] = true ∧ x.readAll [escapeMark, c] = x := by
  have hread := read_escapeMark h
  constructor
  · simp [isLiteralAll, isLiteral_escapeMark, hread, isLiteral_of_escaped]
  · rw [readAll_cons, readAll_cons, readAll_nil, hread, read_of_escaped rfl, ← h]

/-- A text is literal if its first part is, and its second part from the context behind the
first. -/
theorem isLiteralAll_append {u : Text} :
    x.isLiteralAll (t ++ u) = (x.isLiteralAll t && (x.readAll t).isLiteralAll u) := by
  induction t generalizing x with
  | nil => rfl
  | cons c t ih => simp [isLiteralAll, ih, Bool.and_assoc]

end Context

/-- The inside of a quotation is literal, and at its end the quotation is still open. -/
theorem Quote.Body.isLiteralAll {q : Quote} {t : Text} (h : q.Body t) :
    (⟨some q, false⟩ : Context).isLiteralAll t = true ∧
      (⟨some q, false⟩ : Context).readAll t = ⟨some q, false⟩ := by
  induction h with
  | nil => exact ⟨rfl, rfl⟩
  | @plain c t hesc hq _ ih =>
    have hread := Context.read_of_ne_mark hesc hq
    have hlit : (⟨some q, false⟩ : Context).isLiteral c = true := by
      simp [Context.isLiteral, hread]
    rw [Context.isLiteralAll, Context.readAll_cons, hlit, hread, Bool.true_and]
    exact ih
  | @escaped c t _ ih =>
    -- the escape is read at once, since between its two characters the context is another one
    obtain ⟨hlit, hread⟩ := Context.escape_isLiteralAll (x := ⟨some q, false⟩) rfl c
    rw [show escapeMark :: c :: t = [escapeMark, c] ++ t from rfl, Context.isLiteralAll_append,
      Context.readAll_append, hlit, hread, Bool.true_and]
    exact ih

/-! ### Copying -/

namespace Scan

/-- The scan goes on from `s` to `s'` in some number of steps, none of which ends a statement or
passes over a comment. -/
def Advances (k : Tokens) : Scan → Scan → Prop :=
  Relation.ReflTransGen fun s s' => s.step k = .advanced s'

/-- The scan goes on from `s` to `s'` and copies the text `t`. -/
structure Copies (k : Tokens) (s : Scan) (t : Text) (s' : Scan) : Prop where
  /-- No statement is ended and no comment passed over. -/
  advances : Advances k s s'
  /-- The text is read. -/
  rest : s.rest = t ++ s'.rest
  /-- The position is behind the text. -/
  position : s'.position = s.position + Text.byteLen t
  /-- The text is added to the statement. -/
  statement : s'.statement = s.statement ++ t
  /-- The context is that after the text. -/
  context : s'.context = s.context.readAll t

variable {k : Tokens} {s s' s'' : Scan} {t u r : Text}

/-- Where the scan only goes on, nothing is told, and the reading of the statement stops alike. -/
theorem Advances.run_eq (h : Advances k s s') : s.run k = s'.run k := by
  induction h with
  | refl => rfl
  | @tail m s' _ hstep ih => rw [ih, Scan.run_eq k m, hstep]

theorem Copies.refl (k : Tokens) (s : Scan) : Copies k s [] s where
  advances := .refl
  rest := rfl
  position := rfl
  statement := (List.append_nil _).symm
  context := rfl

theorem Copies.trans (h : Copies k s t s') (h' : Copies k s' u s'') :
    Copies k s (t ++ u) s'' where
  advances := Relation.ReflTransGen.trans h.advances h'.advances
  rest := by rw [h.rest, h'.rest, List.append_assoc]
  position := by rw [h'.position, h.position, Text.byteLen_append, Nat.add_assoc]
  statement := by rw [h'.statement, h.statement, List.append_assoc]
  context := by rw [h'.context, h.context, Context.readAll_append]

/-- A copied character is copied. -/
theorem copies_of_lexes {c : Char} (h : Lexes k s.context s.rest (.copied c) r) :
    Copies k s [c] (s.after (.copied c) r) where
  advances := .single (step_of_lexes h)
  rest := h.text_append
  position := rfl
  statement := statement_after
  context := rfl

/-- The scan copies a literal text. -/
theorem exists_copies (hrest : s.rest = t ++ r) (ht : s.context.isLiteralAll t = true) :
    ∃ s', Copies k s t s' ∧ s'.rest = r := by
  induction t generalizing s with
  | nil => exact ⟨s, .refl k s, hrest⟩
  | cons c t ih =>
    -- a literal character is copied before any token is looked for
    rw [Context.isLiteralAll, Bool.and_eq_true] at ht
    have hl : Lexes k s.context s.rest (.copied c) (t ++ r) := by
      rw [hrest]
      exact .literal ht.1
    obtain ⟨s', hs', hr⟩ := ih (s := s.after (.copied c) (t ++ r)) rfl ht.2
    exact ⟨s', (copies_of_lexes hl).trans hs', hr⟩

/-- The scan copies the closing mark of a quotation if no token starts there. -/
theorem exists_copies_mark {q : Quote} (hx : s.context = ⟨some q, false⟩)
    (hrest : s.rest = q.mark :: r) (hk : k.NoneStarts (q.mark :: r)) :
    ∃ s', Copies k s [q.mark] s' ∧ s'.context = .clear := by
  -- the closing mark is not literal: it is copied only because nothing else is found there
  have hlit := Context.isLiteral_mark q
  have hblank : isBlank q.mark = false := by cases q <;> rfl
  have hl : Lexes k s.context s.rest (.copied q.mark) r := by
    rw [hx, hrest]
    exact .plain hlit hk hblank
  refine ⟨_, copies_of_lexes hl, ?_⟩
  rw [context_after, hx]
  exact Context.read_eq_clear hlit

/-- **Quotations and escapes are copied**: wherever a scan stands outside of quotations and escapes
at a mark, behind which a text follows that can stand in the quotation, and the same mark, it copies
the mark and the text and then stands in that quotation. It copies the closing mark as well if no
token starts there, and leaves the quotation. Wherever it stands at a backslash that is not escaped,
it copies the backslash and the next character, and the quotation is the same as before. -/
theorem copies_quotation_and_escape (k : Tokens) (s : Scan) :
    (∀ (q : Quote) (body tail : Text), s.context = .clear → q.Body body →
      s.rest = q.mark :: (body ++ q.mark :: tail) →
      ∃ s', Copies k s (q.mark :: body) s' ∧ s'.position = s.position + 1 + Text.byteLen body ∧
        s'.context = ⟨some q, false⟩ ∧ s'.rest = q.mark :: tail ∧ s.run k = s'.run k ∧
        (k.NoneStarts (q.mark :: tail) →
          ∃ s'', Copies k s' [q.mark] s'' ∧ s''.context = .clear)) ∧
    ∀ (c : Char) (tail : Text), s.context.escaped = false → s.rest = escapeMark :: c :: tail →
      ∃ s', Copies k s [escapeMark, c] s' ∧ s'.context = s.context ∧ s.run k = s'.run k := by
  constructor
  · intro q body tail hx hbody hrest
    obtain ⟨hlit, hread⟩ := hbody.isLiteralAll
    have hmark : Context.clear.isLiteral q.mark = true := by cases q <;> rfl
    -- the opening mark is literal, because it opens the quotation
    have hall : s.context.isLiteralAll (q.mark :: body) = true := by
      rw [hx, Context.isLiteralAll, Context.read_clear_mark, hmark, hlit]
      rfl
    obtain ⟨s', hs', hrest'⟩ := exists_copies (k := k) (r := q.mark :: tail) hrest hall
    have hcontext : s'.context = ⟨some q, false⟩ := by
      rw [hs'.context, hx, Context.readAll_cons, Context.read_clear_mark, hread]
    have hone : q.mark.utf8Size = 1 := by cases q <;> rfl
    refine ⟨s', hs', ?_, hcontext, hrest', hs'.advances.run_eq, ?_⟩
    · rw [hs'.position, Text.byteLen_cons, hone, Nat.add_assoc]
    · intro hk
      exact exists_copies_mark hcontext hrest' hk
  · intro c tail hx hrest
    obtain ⟨hlit, hread⟩ := Context.escape_isLiteralAll hx c
    obtain ⟨s', hs', -⟩ := exists_copies (k := k) (t := [escapeMark, c]) hrest hlit
    exact ⟨s', hs', by rw [hs'.context, hread], hs'.advances.run_eq⟩

/-- A separator, the other mark, an escaped mark, blanks and the start of a comment are copied in a
quotation, and an escaped separator in another one. -/
theorem copies_quotation_and_escape_of_tokens :
    (∃ s', Copies Delimiters.standard.tokens
        (.start ['\x27', ';', '\x22', '\\', '\x27', ' ', '\t', '/', '*', '\x27', ';'])
        ['\x27', ';', '\x22', '\\', '\x27', ' ', '\t', '/', '*'] s' ∧ s'.position = 9 ∧
      ∃ s'', Copies Delimiters.standard.tokens s' ['\x27'] s'' ∧ s''.context = .clear) ∧
      ∃ s', Copies Delimiters.standard.tokens ⟨['\\', ';', 'a'], 1, ⟨some .double, false⟩, ['\x22']⟩
        ['\\', ';'] s' ∧ s'.context = ⟨some .double, false⟩ := by
  have hbody : Quote.single.Body [';', '\x22', '\\', '\x27', ' ', '\t', '/', '*'] :=
    .plain (by decide) (by decide) (.plain (by decide) (by decide) (.escaped
      (.plain (by decide) (by decide) (.plain (by decide) (by decide)
        (.plain (by decide) (by decide) (.plain (by decide) (by decide) .nil))))))
  have hk : Delimiters.standard.tokens.NoneStarts ['\x27', ';'] :=
    ⟨fun h => absurd h.2 (by decide), fun h => absurd h.2 (by decide),
      fun h => absurd h.2 (by decide)⟩
  obtain ⟨hquotation, -⟩ := copies_quotation_and_escape Delimiters.standard.tokens
    (.start ['\x27', ';', '\x22', '\\', '\x27', ' ', '\t', '/', '*', '\x27', ';'])
  obtain ⟨-, hescape⟩ := copies_quotation_and_escape Delimiters.standard.tokens
    ⟨['\\', ';', 'a'], 1, ⟨some .double, false⟩, ['\x22']⟩
  obtain ⟨s', hs', hpos, -, -, -, hclose⟩ := hquotation .single _ [';'] rfl hbody rfl
  obtain ⟨s'', hs'', hcontext, -⟩ := hescape ';' ['a'] rfl rfl
  exact ⟨⟨s', hs', hpos, hclose hk⟩, s'', hs'', hcontext⟩

end Scan

end SqlScript
