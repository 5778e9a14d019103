import SqlScript.Proofs.Requests

/-!
# Splitting in two phases

The scan finds lexemes and makes statements at once. `splitTokens_eq_outcome` says that this comes
to the same as doing it in two phases: the first cuts the script into lexemes and knows of no
statement (`Lexed`), the second makes the statements of the lexemes and knows of no script
(`Lexeme.statementsOf`).
-/

namespace SqlScript

/-- What the lexemes of a script come to, up to `r` where the reading stops: the statements between
the separators, or an error at a block comment that is never closed. -/
def Lexeme.outcome (k : Tokens) (ls : List Lexeme) (r : Text) : Except SplitError (List Text) :=
  if r = [] then .ok (statementsOf ls)
  else .error (.unterminated k.blockClose (Text.byteLen (textOf ls)))

variable {k : Tokens} {s : Scan} {ls : List Lexeme} {r : Text}

/-- Collecting where a scan stands gives what the reading of its rest comes to. -/
theorem Statements.value_drain_of_lexed (h : Lexed k s.context s.rest ls r) :
    (ofScan k s).drain.value =
      if r = [] then
        .ok (Lexeme.closed s.statement ls ++ Lexeme.given (Lexeme.ontoAll s.statement ls))
      else .error (.unterminated k.blockClose (s.position + Text.byteLen (Lexeme.textOf ls))) := by
  rcases h.stops with rfl | hu
  · rw [drain_of_reads_nil h.reads, if_pos rfl]
  · rw [drain_of_reads_unclosed h.reads hu, if_neg hu.ne_nil]
    rfl

/-- A script is split into what its lexemes come to. -/
theorem splitTokens_of_lexed {script : Text} (h : Lexed k .clear script ls r) :
    splitTokens k script = Lexeme.outcome k ls r := by
  have hdrain := Statements.value_drain_of_lexed (s := .start script) h
  have hpos : (Scan.start script).position = 0 := rfl
  rw [Scan.statement_start, Lexeme.closed_append_given_ontoAll, hpos, Nat.zero_add] at hdrain
  exact hdrain

/-- A script that is read to its end is split into what its separators end and what is left over. -/
theorem splitTokens_of_reads {script : Text} (h : Reads k .clear script ls []) :
    splitTokens k script = .ok (Lexeme.closed [] ls ++ Lexeme.given (Lexeme.ontoAll [] ls)) := by
  rw [splitTokens_of_lexed ⟨h, Or.inl rfl⟩, Lexeme.outcome, if_pos rfl,
    Lexeme.closed_append_given_ontoAll]

/-- A script that is split is read to its end. -/
theorem reads_of_splitTokens {script : Text} {ts : List Text} (h : splitTokens k script = .ok ts) :
    ∃ ls, Reads k .clear script ls [] ∧
      Lexeme.closed [] ls ++ Lexeme.given (Lexeme.ontoAll [] ls) = ts := by
  obtain ⟨ls, r, hls⟩ := exists_lexed k .clear script
  -- otherwise the script would be an error
  have hr : r = [] := by
    rw [splitTokens_of_lexed hls, Lexeme.outcome] at h
    split at h
    · assumption
    · cases h
  subst hr
  refine ⟨ls, hls.reads, ?_⟩
  rw [splitTokens_of_reads hls.reads] at h
  exact Except.ok.inj h

/-- **Splitting in two phases**: every script is cut into lexemes in one way only, they and what is
left make up the script, and it is split into what they come to. -/
theorem splitTokens_eq_outcome (k : Tokens) (script : Text) :
    ∃ ls r, (∀ ls' r', Lexed k .clear script ls' r' ↔ ls' = ls ∧ r' = r) ∧
      script = Lexeme.textOf ls ++ r ∧
      splitTokens k script = Lexeme.outcome k ls r ∧
      ∀ d : Delimiters, d.tokens = k → split d script = Lexeme.outcome k ls r := by
  obtain ⟨ls, r, h⟩ := exists_lexed k .clear script
  refine ⟨ls, r, ?_, h.reads.text_append, splitTokens_of_lexed h, ?_⟩
  · intro ls' r'
    constructor
    · intro h'
      exact h'.unique h
    · rintro ⟨rfl, rfl⟩
      exact h
  · rintro d rfl
    exact splitTokens_of_lexed h

end SqlScript
