import SqlScript.Proofs.Items
import SqlScript.Proofs.Position

/-!
# Comments that are never closed

A script is not split if a block comment starts in it that is never closed. The error tells where
that comment starts, the statements before it are handed out first, and the script cut off there is
split into these statements and the one that was begun
(`Statements.split_before_unterminated`).

Cutting the script off must not change the comments before that place. A token that starts one of
them could reach past the place. That of a block comment never does, as it would bring a closing
token along (`Lexes.blockOpen_prefix`). That of a line comment does only if it goes on behind a
newline (`Lexes.lineComment_prefix`), and then the text before the place can be read as something
else (`not_forall_split_before_unterminated`).
-/

namespace SqlScript

/-- The token that starts each line comment that is passed over before byte `p` ends there at the
latest. -/
def LineCommentsBefore (k : Tokens) (script : Text) (p : Nat) : Prop :=
  ∀ s s', Scan.Reaches k (.start script) s → s.step k = .skipped .line s' →
    s'.position ≤ p → s.position + Text.byteLen k.lineComment ≤ p

/-! ### Tokens that start comments -/

section Openers

variable {k : Tokens} {x y : Context} {t u v r script : Text} {ls ms ns : List Lexeme}

theorem Unclosed.not_infix_tail (h : Unclosed k x t) : ¬ k.blockClose <:+: t.tail := by
  cases h with
  | intro _ _ _ _ hb => exact hb

theorem openersWithin_iff :
    OpenersWithin k ls ↔
      ∀ ms kind u ns, ls = ms ++ .comment kind u :: ns →
        k.opener kind <+: u ++ Lexeme.textOf ns := by
  induction ls with
  | nil => simp [OpenersWithin]
  | cons l ls ih =>
    rw [OpenersWithin, ih]
    constructor
    · rintro ⟨hl, hls⟩ ms kind u ns h
      cases ms with
      | nil =>
        obtain ⟨rfl, rfl⟩ := List.cons.inj h
        exact hl kind u rfl
      | cons m ms => exact hls ms kind u ns (List.cons.inj h).2
    · intro h
      constructor
      · rintro kind u rfl
        exact h [] kind u ls rfl
      · rintro ms kind u ns rfl
        exact h (l :: ms) kind u ns rfl

/-- A comment among lexemes is read behind those before it. -/
theorem Reads.exists_lexes_comment {kind : Comment}
    (h : Reads k x t (ms ++ .comment kind u :: ns) r) :
    ∃ m, Reads k x t ms m ∧
      Lexes k (x.passAll ms) m (.comment kind u) (Lexeme.textOf ns ++ r) := by
  obtain ⟨m, hms, hns⟩ := h.of_append
  cases hns with
  | cons hl hns => exact ⟨m, hms, hns.text_append ▸ hl⟩

theorem Lexes.opener_prefix {kind : Comment} (h : Lexes k x t (.comment kind u) (v ++ r)) :
    k.opener kind <+: (u ++ v) ++ r := by
  have hopen := h.opener_starts.2
  rwa [h.text_append, Lexeme.text, ← List.append_assoc] at hopen

/-- The token that starts a block comment ends before one that is never closed. -/
theorem Lexes.blockOpen_prefix (h : Lexes k x t (.comment .block u) (v ++ r))
    (hr : Unclosed k y r) : k.blockOpen <+: u ++ v := by
  rcases Text.prefix_append_cases h.opener_prefix with hle | ⟨m, -, hm, -⟩
  · exact hle
  · -- the token would hold the closing token of its comment, and so would the other comment
    exfalso
    obtain ⟨r', rfl⟩ := hr.blockOpen_starts.2
    apply hr.not_infix_tail
    rw [show k.blockOpen = (u ++ v) ++ m from hm]
    cases h with
    | @blockComment c t body => exact ⟨body, v ++ (m ++ r'), by simp⟩

/-- The token that starts a line comment ends before any place behind its comment, unless it goes on
behind a newline. -/
theorem Lexes.lineComment_prefix (h : Lexes k x t (.comment .line u) (v ++ r)) (hr : r ≠ [])
    (hn : '\n' ∉ k.lineComment.tail) : k.lineComment <+: u ++ v := by
  rcases Text.prefix_append_cases h.opener_prefix with hle | ⟨m, hne, hm, hmr⟩
  · exact hle
  · -- the newline that ends the comment would stand in the token
    exfalso
    rw [show k.lineComment = (u ++ v) ++ m from hm] at hn
    cases h with
    | @lineComment c t body _ _ _ _ _ _ hend =>
      have hnewline : (v ++ r).head? = some '\n' :=
        hend.resolve_left (List.append_ne_nil_of_right_ne_nil v hr)
      obtain ⟨w, hw⟩ := (List.prefix_append_right_inj v).2 hmr
      obtain ⟨a, vm, hvm⟩ := List.exists_cons_of_ne_nil (List.append_ne_nil_of_right_ne_nil v hne)
      rw [← hw, hvm] at hnewline
      obtain rfl : a = '\n' := Option.some.inj hnewline
      rw [List.append_assoc, hvm] at hn
      exact hn (by simp)

/-- Line comments before byte `p` are read with the tokens that start them. -/
theorem lineComment_prefix_of_before (h : Reads k .clear script (ms ++ .comment .line u :: ns) r)
    (hb : LineCommentsBefore k script
      (Text.byteLen (Lexeme.textOf (ms ++ .comment .line u :: ns)))) :
    k.lineComment <+: u ++ Lexeme.textOf ns := by
  obtain ⟨m, hms, hl⟩ := h.exists_lexes_comment
  have hreaches := Scan.reaches_of_reads (s := .start script) hms
  have hstep := Scan.step_of_lexes (s := (Scan.start script).afterAll ms m) hl
  have hpos : ((Scan.start script).afterAll ms m).position = Text.byteLen (Lexeme.textOf ms) :=
    Scan.position_start_afterAll
  have hlen : Text.byteLen (Lexeme.textOf (ms ++ .comment .line u :: ns)) =
      Text.byteLen (Lexeme.textOf ms) + Text.byteLen (u ++ Lexeme.textOf ns) := by
    simp [Lexeme.text]
  -- the scan passes over the comment from where the lexemes before it lead
  have hle := hb _ _ hreaches hstep (by
    rw [Scan.position_after, hpos, hlen, Text.byteLen_append]
    simp only [Lexeme.text]
    omega)
  rw [hpos, hlen] at hle
  exact Text.prefix_of_byteLen_le hl.opener_prefix (by omega)

/-- A script may be cut off before a comment that is never closed, if no token that starts a line
comment is cut. -/
theorem openersWithin_of_unclosed (h : Reads k .clear script ls r)
    (hr : Unclosed k (Context.clear.passAll ls) r)
    (hline : LineCommentsBefore k script (Text.byteLen (Lexeme.textOf ls)) ∨
      '\n' ∉ k.lineComment.tail) : OpenersWithin k ls := by
  rw [openersWithin_iff]
  rintro ms kind u ns rfl
  obtain ⟨m, -, hl⟩ := h.exists_lexes_comment
  cases kind with
  | block => exact hl.blockOpen_prefix hr
  | line =>
    rcases hline with hbefore | hnewline
    · exact lineComment_prefix_of_before h hbefore
    · exact hl.lineComment_prefix hr.ne_nil hnewline

end Openers

/-! ### The script before the comment -/

namespace Statements

variable {d : Delimiters} {script expected : Text} {p : Nat}

/-- **What an error means**: the error names the closing token and the place of a block comment
behind whose first character that token stands nowhere. Requests give statements up to that
comment, and then the error; the script cut off there is split into these statements and the one
that was begun, unless the token that starts a line comment reaches past the place. -/
theorem split_before_unterminated (h : split d script = .error (.unterminated expected p)) :
    ∃ before rest ts, script = before ++ rest ∧ p = Text.byteLen before ∧
      expected = d.blockClose.val ∧ d.blockOpen.val <+: rest ∧
      ¬ d.blockClose.val <:+: rest.tail ∧
      (ofScript d script).items = ts.map .ok ++ [.error (.unterminated expected p)] ∧
      (LineCommentsBefore d.tokens script p ∨ '\n' ∉ d.lineComment.val.tail →
        split d before =
          .ok (ts ++ Lexeme.given (ofScript d script).collect.2.scan.statement)) := by
  obtain ⟨ls, r, hreads, hstops⟩ := exists_lexed d.tokens .clear script
  have hsplit : split d script = Lexeme.outcome d.tokens ls r :=
    splitTokens_of_lexed ⟨hreads, hstops⟩
  rcases hstops with rfl | hr
  · rw [h, Lexeme.outcome, if_pos rfl] at hsplit
    cases hsplit
  · -- the reading stops where the comment starts, and the error tells that place
    rw [h, Lexeme.outcome, if_neg hr.ne_nil] at hsplit
    obtain ⟨rfl, rfl⟩ := SplitError.unterminated.inj (Except.error.inj hsplit)
    refine ⟨Lexeme.textOf ls, r, Lexeme.closed [] ls, hreads.text_append, rfl, rfl,
      hr.blockOpen_starts.2, hr.not_infix_tail, ?_, ?_⟩
    · have herror := items_of_unclosed (s := (Scan.start script).afterAll ls r) hr
      rw [Scan.position_start_afterAll] at herror
      rw [← herror]
      exact items_of_reads (s := .start script) hreads
    · intro hline
      have hafter : (ofScript d script).collect.2 =
          ⟨d.tokens, (Scan.start script).afterAll ls r, true⟩ :=
        congrArg Answer.after (drain_of_reads_unclosed (s := .start script) hreads hr)
      rw [hafter, Scan.statement_afterAll]
      exact split_textOf hreads rfl (openersWithin_of_unclosed hreads hr hline)

/-- In the second statement, behind a line comment and a block comment whose tokens overlap, another
comment starts. -/
theorem split_before_unterminated_of_overlapping :
    ∃ before ts, Text.byteLen before = 10 ∧
      (ofScript .standard ['a', ';', 'é', '-', '-', '\n', '/', '*', '/', '/', '*', 'b']).items =
        ts.map .ok ++ [.error (.unterminated ['*', '/'] 10)] ∧
      split .standard before = .ok (ts ++ [['é', ' ']]) := by
  obtain ⟨before, rest, ts, -, hpos, -, -, -, hitems, hcut⟩ :=
    @split_before_unterminated .standard
      ['a', ';', 'é', '-', '-', '\n', '/', '*', '/', '/', '*', 'b'] ['*', '/'] 10
      (by decide +kernel)
  have hbegun : (ofScript .standard ['a', ';', 'é', '-', '-', '\n', '/', '*', '/', '/', '*',
      'b']).collect.2.scan.statement = ['é', ' '] := by decide +kernel
  rw [hbegun] at hcut
  exact ⟨before, ts, hpos.symm, hitems, hcut (Or.inr (by decide))⟩

/-- The token that starts line comments goes on behind a newline with the separator, and with the
first character of a block comment. -/
def commentInComment : Delimiters where
  separator := Token.cons ';' []
  lineComment := Token.cons '-' ['\n', ';', '/']
  blockOpen := Token.cons '/' ['*']
  blockClose := Token.cons '*' ['/']

/-- The script before a comment that is never closed is not always split into the statements before
the error, with or without another one. -/
theorem not_forall_split_before_unterminated :
    ¬ ∀ (d : Delimiters) (script before rest : Text) (ts : List Text) (e : SplitError),
      split d script = .error e → e = .unterminated d.blockClose.val (Text.byteLen before) →
        script = before ++ rest → (ofScript d script).items = ts.map .ok ++ [.error e] →
          ∃ ss, split d before = .ok ss ∧ (ss = ts ∨ ∃ t, ss = ts ++ [t]) := by
  intro h
  obtain ⟨ss, hss, hts⟩ := h commentInComment ['a', '-', '\n', ';', '/', '*'] ['a', '-', '\n', ';']
    ['/', '*'] [['a', ' ']] (.unterminated ['*', '/'] 4) (by decide +kernel) (by decide) rfl
    (by decide +kernel)
  have hvalue : split commentInComment ['a', '-', '\n', ';'] = .ok [['a', '-', ' ']] := by
    decide +kernel
  obtain rfl := Except.ok.inj (hss.symm.trans hvalue)
  rcases hts with hts | ⟨t, hts⟩
  · exact absurd hts (by decide)
  · cases congrArg List.length hts

end Statements

end SqlScript
