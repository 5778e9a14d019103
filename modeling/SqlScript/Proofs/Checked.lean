import SqlScript.Invariants
import SqlScript.Sample.Script
import SqlScript.Proofs.TwoPhases

/-!
# No split is a violation

What is right about a split can be said without the check: its statements are `WellFormed`, and an
error stands where a block comment starts (`Sound`). The check finds nothing exactly if this is so
(`outcomeViolation?_eq_none_iff`), and `sound_split` says that it is so, whatever the tokens and the
script are; in particular a script without block comments is always split (`exists_split_eq_ok`).
Hence `checkedSplit_eq_ok_split`: the check of splits never finds a violation.

Of the statements this is shown with an invariant of the scan, `Tidy x out`: it relates the context
`x` to the statement `out` that was read so far, and every lexeme keeps it (`Tidy.pass`). A
quotation is open only if its mark was read, and a character is escaped only if a backslash stands
right before it; hence a blank that is read as it stands, rather than collapsed, is neither the
first character nor, without quotation marks, the second of two spaces.
-/

namespace SqlScript

open Invariants

/-! ### What the check asks for -/

namespace Invariants

/-- A statement as it should be. -/
structure WellFormed (s : Text) : Prop where
  /-- It is not empty. -/
  ne_nil : s ≠ []
  /-- It does not start with a blank. -/
  head : ∀ c ∈ s.head?, isBlank c = false
  /-- Without quotation marks there are no two spaces in a row. -/
  spaces : (∀ c ∈ s, isQuoteMark c = false) → ¬ [' ', ' '] <:+: s

/-- A script without structure. -/
structure Unstructured (k : Tokens) (script : Text) : Prop where
  /-- It holds neither quotation marks nor backslashes. -/
  marks : ∀ c ∈ script, isQuoteMark c = false ∧ c ≠ escapeMark
  /-- It holds none of the tokens that are looked for. -/
  tokens : ∀ u ∈ k.searched, ¬ u <:+: script

/-- What may come of a script when it is split. -/
inductive Sound (d : Delimiters) (script : Text) : Except SplitError (List Text) → Prop
  /-- Statements as they should be. A script without structure is its own only statement,
  collapsed. -/
  | statements {ts : List Text} (hts : ∀ s ∈ ts, WellFormed s)
      (hplain : Unstructured d.tokens script → ts = collapsedStatements script) :
      Sound d script (.ok ts)
  /-- An error at a place where a block comment starts. It names the token that is missing. -/
  | unterminated {before after : Text} (h : script = before ++ (d.blockOpen.val ++ after)) :
      Sound d script (.error (.unterminated d.blockClose.val (Text.byteLen before)))

variable {d : Delimiters} {script s : Text} {outcome : Except SplitError (List Text)}

/-- An error needs a block comment. -/
theorem Sound.exists_ok (h : Sound d script outcome) (ho : ¬ d.blockOpen.val <:+: script) :
    ∃ ts, outcome = .ok ts := by
  cases h with
  | @statements ts => exact ⟨ts, rfl⟩
  | @unterminated before after h =>
    rw [h] at ho
    exact absurd ⟨before, after, List.append_assoc ..⟩ ho

theorem isUnstructured_iff : isUnstructured d script = true ↔ Unstructured d.tokens script := by
  have hmarks : (script.all fun c => !isQuoteMark c && c != escapeMark) = true ↔
      ∀ c ∈ script, isQuoteMark c = false ∧ c ≠ escapeMark := by simp
  have htokens : ([d.separator, d.lineComment, d.blockOpen].all fun token =>
      !Text.occursIn token.val script) = true ↔ ∀ u ∈ d.tokens.searched, ¬ u <:+: script := by
    simp [Tokens.searched, Delimiters.tokens, ← Text.occursIn_iff]
  rw [isUnstructured, Bool.and_eq_true, hmarks, htokens]
  constructor
  · intro h
    exact ⟨h.1, h.2⟩
  · intro h
    exact ⟨h.marks, h.tokens⟩

/-- The check of a statement finds nothing exactly if the statement is as it should be. -/
theorem statementViolation?_eq_none_iff : statementViolation? s = none ↔ WellFormed s := by
  have hhead : (!s.head?.any isBlank) = true ↔ ∀ c ∈ s.head?, isBlank c = false := by
    cases s with
    | nil => simp
    | cons c s => simp
  have hmarks : s.any isQuoteMark = false ↔ ∀ c ∈ s, isQuoteMark c = false := by simp
  have hspaces : (s.any isQuoteMark || !Text.occursIn [' ', ' '] s) = true ↔
      ((∀ c ∈ s, isQuoteMark c = false) → ¬ [' ', ' '] <:+: s) := by
    rw [← hmarks, ← Text.occursIn_iff]
    cases s.any isQuoteMark with
    | false => simp
    | true => simp
  simp only [statementViolation?, Option.orElse_eq_orElse, Option.orElse_eq_or,
    Option.or_eq_none_iff, ensure_eq_none_iff, bne_iff_ne, hhead, hspaces]
  constructor
  · intro h
    exact ⟨h.1, h.2.1, h.2.2⟩
  · intro h
    exact ⟨h.ne_nil, h.head, h.spaces⟩

/-- The text `u` is found at byte `p` of a script exactly if it stands behind `p` bytes. -/
theorem any_fromByte?_iff {u : Text} {p : Nat} :
    ((Text.fromByte? p script).any fun r => (Text.after? u r).isSome) = true ↔
      ∃ before after, script = before ++ (u ++ after) ∧ Text.byteLen before = p := by
  constructor
  · intro h
    cases hr : Text.fromByte? p script with
    | none =>
      rw [hr] at h
      cases h
    | some r =>
      rw [hr, Option.any_some, Option.isSome_iff_exists] at h
      obtain ⟨after, hafter⟩ := h
      obtain ⟨before, rfl, hlen⟩ := Text.fromByte?_eq_some_iff.1 hr
      exact ⟨before, after, by rw [Text.after?_eq_some_iff.1 hafter], hlen⟩
  · rintro ⟨before, after, rfl, rfl⟩
    rw [Text.fromByte?_byteLen_append, Option.any_some, Text.after?_append]
    rfl

/-- The check of an outcome finds nothing exactly if the outcome is sound. -/
theorem outcomeViolation?_eq_none_iff :
    outcomeViolation? d script outcome = none ↔ Sound d script outcome := by
  cases outcome with
  | ok ts =>
    have hplain : (!isUnstructured d script || ts == collapsedStatements script) = true ↔
        (Unstructured d.tokens script → ts = collapsedStatements script) := by
      rw [← isUnstructured_iff]
      cases isUnstructured d script with
      | false => simp
      | true => simp
    simp only [outcomeViolation?, Option.orElse_eq_orElse, Option.orElse_eq_or,
      Option.or_eq_none_iff, List.findSome?_eq_none_iff, ensure_eq_none_iff, hplain]
    constructor
    · rintro ⟨hts, hcol⟩
      exact .statements (fun s hs => statementViolation?_eq_none_iff.1 (hts s hs)) hcol
    · intro h
      cases h with
      | statements hts hcol =>
        exact ⟨fun s hs => statementViolation?_eq_none_iff.2 (hts s hs), hcol⟩
  | error e =>
    obtain ⟨expected, position⟩ := e
    simp only [outcomeViolation?, Option.orElse_eq_orElse, Option.orElse_eq_or,
      Option.or_eq_none_iff, ensure_eq_none_iff, beq_iff_eq, any_fromByte?_iff, Text.occursIn_iff]
    constructor
    · rintro ⟨rfl, ⟨before, after, hscript, rfl⟩, -⟩
      exact .unterminated hscript
    · intro h
      cases h with
      | @unterminated before after hscript =>
        -- the place of the error shows that a block comment starts somewhere
        have hin : d.blockOpen.val <:+: script :=
          ⟨before, after, by rw [hscript, List.append_assoc]⟩
        exact ⟨rfl, ⟨before, after, hscript, rfl⟩, hin⟩

end Invariants

/-! ### What a context tells of the characters before -/

namespace Context

variable {x : Context} {c : Char}

/-- A quotation is open because it was open before, or because its mark was read. -/
theorem isSome_quote_or_of_read (h : (x.read c).quote.isSome = true) :
    x.quote.isSome = true ∨ isQuoteMark c = true := by
  obtain ⟨quote, escaped⟩ := x
  cases quote with
  | some q => exact Or.inl rfl
  | none =>
    refine Or.inr ?_
    cases escaped with
    | true => simp [read] at h
    | false =>
      by_cases hc : c = escapeMark
      · simp [read, hc] at h
      · simpa [read, hc, isQuoteMark] using h

/-- Only a backslash makes the next character an ordinary one. -/
theorem eq_escapeMark_of_read (h : (x.read c).escaped = true) : c = escapeMark := by
  obtain ⟨quote, escaped⟩ := x
  by_cases hc : c = escapeMark
  · exact hc
  · cases escaped with
    | true => simp [read] at h
    | false =>
      cases quote with
      | none => simp [read, hc] at h
      | some q =>
        simp only [read, hc, Bool.false_eq_true, ↓reduceIte] at h
        split at h <;> cases h

end Context

theorem isQuoteMark_eq_false_of_isBlank {c : Char} (h : isBlank c = true) :
    isQuoteMark c = false := by
  rcases isBlank_iff.1 h with rfl | rfl | rfl <;> decide

/-! ### The invariant of the scan -/

/-- In the context `x` the statement `out` was read so far, and nothing is wrong with it. -/
structure Tidy (x : Context) (out : Text) : Prop where
  /-- The mark of an open quotation was read. -/
  quoted : x.quote.isSome = true → out.any isQuoteMark = true
  /-- A backslash stands before an escaped character. -/
  escaped : x.escaped = true → out.getLast? = some escapeMark
  /-- The statement does not start with a blank. -/
  head : out.head?.any isBlank = false
  /-- Without quotation marks there are no two spaces in a row. -/
  spaces : out.any isQuoteMark = false → ¬ [' ', ' '] <:+: out

namespace Tidy

variable {k : Tokens} {x : Context} {out : Text} {c : Char}

/-- Nothing is wrong where a statement starts. -/
theorem start : Tidy .clear [] where
  quoted hq := by cases hq
  escaped hesc := by cases hesc
  head := rfl
  spaces _ h := by simp at h

/-- Outside of quotations and escapes nothing more is to be shown. -/
theorem clear (h : Tidy x out) : Tidy .clear out where
  quoted hq := by cases hq
  escaped hesc := by cases hesc
  head := h.head
  spaces := h.spaces

/-- A character that is read as it stands makes two spaces in a row only with a space before. -/
theorem not_infix_concat (h : ¬ [' ', ' '] <:+: out) (hc : c ≠ ' ' ∨ out.getLast? ≠ some ' ') :
    ¬ [' ', ' '] <:+: out ++ [c] := by
  intro hin
  -- two spaces stood there before, or the second one is the new character
  rcases List.infix_concat_iff.1 hin with hsuf | hin
  · rcases List.suffix_concat_iff.1 hsuf with hnil | ⟨u, hu, hsuf⟩
    · cases hnil
    · have hends : [' '] = u ∧ [' '] = [c] :=
        List.append_inj' (show [' '] ++ [' '] = u ++ [c] from hu) rfl
      obtain ⟨rfl, hspace⟩ := hends
      obtain ⟨v, rfl⟩ := hsuf
      rcases hc with hc | hc
      · exact hc (List.cons.inj hspace).1.symm
      · exact hc List.getLast?_concat
  · exact h hin

/-- A character that is read as it stands is no blank, or it is escaped or quoted. -/
theorem copied (h : Tidy x out) (hc : x.isLiteral c = true ∨ isBlank c = false) :
    Tidy (x.read c) (out ++ [c]) := by
  -- a blank is quoted, or it follows a backslash
  have hblank : isBlank c = true → x.escaped = true ∨ x.quote.isSome = true := by
    intro hb
    rcases hc with hc | hc
    · simp only [Context.isLiteral, Bool.or_eq_true, beq_iff_eq] at hc
      rcases hc with (hesc | hmark) | hquote
      · exact Or.inl hesc
      · exact absurd hmark (ne_escapeMark_of_isBlank hb)
      · rcases Context.isSome_quote_or_of_read hquote with hq | hq
        · exact Or.inr hq
        · rw [isQuoteMark_eq_false_of_isBlank hb] at hq
          cases hq
    · rw [hb] at hc
      cases hc
  refine ⟨?_, ?_, ?_, ?_⟩
  · intro hq
    rcases Context.isSome_quote_or_of_read hq with hq | hq
    · simp [h.quoted hq]
    · simp [hq]
  · intro hesc
    rw [Context.eq_escapeMark_of_read hesc, List.getLast?_concat]
  · -- a first character is neither quoted nor escaped
    cases out with
    | cons a out => exact h.head
    | nil =>
      cases hb : isBlank c with
      | false => simp [hb]
      | true =>
        rcases hblank hb with hesc | hq
        · cases h.escaped hesc
        · cases h.quoted hq
  · -- without quotation marks a space is escaped, and stands behind a backslash
    intro hmarks
    rw [List.any_append, Bool.or_eq_false_iff] at hmarks
    refine not_infix_concat (h.spaces hmarks.1) ?_
    by_cases hsp : c = ' '
    · right
      rcases hblank (by rw [hsp]; rfl) with hesc | hq
      · rw [h.escaped hesc]
        decide
      · rw [h.quoted hq] at hmarks
        cases hmarks.1
    · exact Or.inl hsp

/-- A blank is collapsed. -/
theorem blank (h : Tidy x out) : Tidy .clear ((Lexeme.blank c).onto out) := by
  rw [Lexeme.onto]
  split
  · exact h.clear
  · next hout =>
    rw [not_or] at hout
    refine ⟨?_, ?_, ?_, ?_⟩
    · intro hq
      cases hq
    · intro hesc
      cases hesc
    · obtain ⟨a, out, rfl⟩ := List.exists_cons_of_ne_nil hout.1
      exact h.head
    · intro hmarks
      rw [List.any_append, Bool.or_eq_false_iff] at hmarks
      exact not_infix_concat (h.spaces hmarks.1) (Or.inr hout.2)

/-- Every lexeme leaves a statement with which nothing is wrong. -/
theorem pass {t r : Text} {l : Lexeme} (h : Tidy x out) (hl : Lexes k x t l r) :
    Tidy (x.pass l) (l.onto out) := by
  cases hl with
  | literal hc => exact h.copied (Or.inl hc)
  | separator => exact start
  | lineComment => exact h.clear
  | blockComment => exact h.clear
  | blank => exact h.blank
  | plain _ _ hb => exact h.copied (Or.inr hb)

/-- A statement with which nothing is wrong is as it should be, unless nothing was read. -/
theorem wellFormed (h : Tidy x out) (hne : out ≠ []) : WellFormed out where
  ne_nil := hne
  head := by
    intro c hc
    have hhead := h.head
    rwa [hc, Option.any_some] at hhead
  spaces := by
    intro hmarks
    refine h.spaces (List.any_eq_false.2 fun c hc => ?_)
    rw [hmarks c hc]
    exact Bool.false_ne_true

/-- All statements that lexemes end are as they should be, and so is the one that is left over. -/
theorem wellFormed_closed {t r : Text} {ls : List Lexeme} (h : Tidy x out)
    (hr : Reads k x t ls r) :
    ∀ s ∈ Lexeme.closed out ls ++ Lexeme.given (Lexeme.ontoAll out ls), WellFormed s := by
  have hgiven {y : Context} {u : Text} (hu : Tidy y u) : ∀ s ∈ Lexeme.given u, WellFormed s := by
    intro s hs
    by_cases hne : u = []
    · rw [hne] at hs
      cases hs
    · rw [Lexeme.given_of_ne_nil hne, List.mem_singleton] at hs
      rw [hs]
      exact hu.wellFormed hne
  induction hr generalizing out with
  | nil => exact hgiven h
  | @cons x t t' r l ls hl hls ih =>
    -- a statement is ended by the first lexeme or by a later one
    intro s hs
    rw [Lexeme.closed_cons, List.append_assoc, List.mem_append] at hs
    rcases hs with hs | hs
    · rw [Lexeme.ended] at hs
      split at hs
      · exact hgiven h s hs
      · cases hs
    · exact ih (h.pass hl) s hs

end Tidy

/-! ### Scripts without structure -/

/-- The lexemes of a text without structure: its blanks, and its other characters. -/
def Lexeme.unstructured (t : Text) : List Lexeme :=
  t.map fun c => if isBlank c then .blank c else .copied c

namespace Lexeme

/-- A text without structure adds what it is when it is collapsed, behind what was read before. -/
theorem ontoAll_unstructured (out t : Text) :
    ontoAll out (unstructured t) =
      out ++ Text.collapseFrom (decide (out = [] ∨ out.getLast? = some ' ')) t := by
  induction t generalizing out with
  | nil => simp [unstructured, Text.collapseFrom]
  | cons c t ih =>
    have hcons : unstructured (c :: t) =
        (if isBlank c then .blank c else .copied c) :: unstructured t := rfl
    rw [hcons, ontoAll_cons, ih, Text.collapseFrom]
    by_cases hb : isBlank c = true
    · by_cases hout : out = [] ∨ out.getLast? = some ' '
      · simp [hb, onto, hout]
      · simp [hb, onto, hout]
    · have hc : c ≠ ' ' := by
        rintro rfl
        exact hb rfl
      simp [hb, onto, hc]

theorem isSeparator_of_mem_unstructured {l : Lexeme} {t : Text} (h : l ∈ unstructured t) :
    l.isSeparator = false := by
  obtain ⟨c, -, rfl⟩ := List.mem_map.1 h
  split <;> rfl

/-- The statements of a text without structure: the text, collapsed. -/
theorem statementsOf_unstructured (t : Text) :
    statementsOf (unstructured t) = collapsedStatements t := by
  have hclosed : closed [] (unstructured t) = [] :=
    closed_of_not_isSeparator fun l hl => isSeparator_of_mem_unstructured hl
  rw [← closed_append_given_ontoAll, hclosed, ontoAll_unstructured]
  rfl

end Lexeme

theorem Text.not_starts_of_not_infix {u t : Text} (h : ¬ u <:+: t) : ¬ u.Starts t :=
  fun hs => h hs.2.isInfix

theorem Invariants.Unstructured.of_cons {k : Tokens} {c : Char} {t : Text}
    (h : Unstructured k (c :: t)) : Unstructured k t where
  marks b hb := h.marks b (List.mem_cons_of_mem c hb)
  tokens u hu hin := h.tokens u hu (List.infix_cons hin)

/-- A text without structure is read character by character. -/
theorem Invariants.Unstructured.reads {k : Tokens} {t : Text} (h : Unstructured k t) :
    Reads k .clear t (Lexeme.unstructured t) [] := by
  induction t with
  | nil => exact .nil
  | cons c t ih =>
    obtain ⟨hquote, hesc⟩ := h.marks c List.mem_cons_self
    have hlit : Context.clear.isLiteral c = false := by
      have hq : Quote.ofMark? c = none := by simpa [isQuoteMark] using hquote
      simp [Context.isLiteral, Context.clear, Context.read, hesc, hq]
    have hk : k.NoneStarts (c :: t) :=
      ⟨Text.not_starts_of_not_infix (h.tokens _ Tokens.separator_mem_searched),
        Text.not_starts_of_not_infix (h.tokens _ (Tokens.opener_mem_searched .line)),
        Text.not_starts_of_not_infix (h.tokens _ (Tokens.opener_mem_searched .block))⟩
    have hrest := ih h.of_cons
    have hcons : Lexeme.unstructured (c :: t) =
        (if isBlank c then .blank c else .copied c) :: Lexeme.unstructured t := rfl
    rw [hcons]
    by_cases hb : isBlank c = true
    · rw [if_pos hb]
      exact .cons (.blank hlit hk hb) hrest
    · rw [if_neg hb]
      refine .cons (.plain hlit hk (by simpa using hb)) ?_
      rwa [Context.pass, Context.read_eq_clear hlit]

/-! ### The check -/

/-- A script without structure is its own only statement, collapsed. -/
theorem Invariants.Unstructured.split_eq {d : Delimiters} {script : Text}
    (h : Unstructured d.tokens script) : split d script = .ok (collapsedStatements script) := by
  have hsplit : split d script = _ := splitTokens_of_lexed ⟨h.reads, Or.inl rfl⟩
  rw [hsplit, Lexeme.outcome, if_pos rfl, Lexeme.statementsOf_unstructured]

/-- **What a split satisfies**, for all tokens and scripts: no statement is empty or starts with a
blank, and without quotation marks none has two spaces in a row; a script without structure is its
own only statement, collapsed; and an error names the end of block comments and stands where one
starts. -/
theorem sound_split (d : Delimiters) (script : Text) : Sound d script (split d script) := by
  obtain ⟨ls, r, hr, hstops⟩ := exists_lexed d.tokens .clear script
  have hsplit : split d script = Lexeme.outcome d.tokens ls r := splitTokens_of_lexed ⟨hr, hstops⟩
  rcases hstops with rfl | hunclosed
  · -- the script is split into statements
    have hok : split d script = .ok (Lexeme.statementsOf ls) := by
      rw [hsplit, Lexeme.outcome, if_pos rfl]
    rw [hok]
    refine .statements ?_ ?_
    · rw [← Lexeme.closed_append_given_ontoAll]
      exact Tidy.start.wellFormed_closed hr
    · intro hplain
      rw [hplain.split_eq] at hok
      exact (Except.ok.inj hok).symm
  · -- a block comment is never closed
    have hne : r ≠ [] := by
      rintro rfl
      cases hunclosed
    obtain ⟨-, after, hafter⟩ := hunclosed.blockOpen_starts
    have hscript : script = Lexeme.textOf ls ++ (d.blockOpen.val ++ after) := by
      rw [hr.text_append, ← hafter]
      rfl
    rw [hsplit, Lexeme.outcome, if_neg hne]
    exact .unterminated hscript

/-- A script without block comments is always split. -/
theorem exists_split_eq_ok {d : Delimiters} {script : Text} (h : ¬ d.blockOpen.val <:+: script) :
    ∃ ts, split d script = .ok ts :=
  (sound_split d script).exists_ok h

/-- The check finds nothing in a split. -/
theorem violation?_eq_none (d : Delimiters) (script : Text) : violation? d script = none :=
  outcomeViolation?_eq_none_iff.2 (sound_split d script)

/-- **No split is a violation**: the check gives what the split gives, for all tokens and scripts,
and so for those that are drawn from any bytes. -/
theorem checkedSplit_eq_ok_split :
    (∀ d script, checkedSplit d script = .ok (split d script)) ∧
      ∀ bytes : Bytes, ∃ outcome, checkedSplit (Sample.both.run bytes).1.1
        (Sample.both.run bytes).1.2 = .ok outcome := by
  have hall (d : Delimiters) (script : Text) :
      checkedSplit d script = .ok (split d script) :=
    checkedSplit_eq_ok_iff.2 ⟨violation?_eq_none d script, rfl⟩
  exact ⟨hall, fun bytes => ⟨_, hall _ _⟩⟩

end SqlScript
