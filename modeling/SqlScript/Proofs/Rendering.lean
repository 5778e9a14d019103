import SqlScript.Proofs.Reading

/-!
# Statements made of lexemes

The statements of a script are the pieces between its separators, each written as a text
(`Lexeme.render`): copied characters as they are, blanks collapsed, comments left out. Pieces that
come to nothing are dropped (`Lexeme.statementsOf`).

The same statements can be told lexeme by lexeme. `Lexeme.closed out ls` are the statements that the
separators among `ls` end when `out` was read before, and `Lexeme.ontoAll out ls` is what is left
over; `closed_append_given_ontoAll` says that together they are the statements of the pieces.
-/

namespace SqlScript

namespace Lexeme

/-- The text of a piece between separators. -/
def render (piece : List Lexeme) : Text := ontoAll [] piece

/-- The texts of the pieces between separators, without the empty ones. -/
def statementsOf (ls : List Lexeme) : List Text :=
  ((ls.splitOnP isSeparator).map render).filter (· ≠ [])

/-- The statement that was read, unless there is none. -/
def given (out : Text) : List Text := if out = [] then [] else [out]

/-- The statements that a lexeme ends when `out` was read before. -/
def ended (out : Text) (l : Lexeme) : List Text := if l.isSeparator then given out else []

/-- The statements that lexemes end when `out` was read before. -/
def closed (out : Text) : List Lexeme → List Text
  | [] => []
  | l :: ls => ended out l ++ closed (l.onto out) ls

variable {out : Text} {l : Lexeme} {ls ms : List Lexeme}

@[simp] theorem given_nil : given [] = [] := rfl

theorem given_of_ne_nil (h : out ≠ []) : given out = [out] := if_neg h

@[simp] theorem given_eq_nil_iff : given out = [] ↔ out = [] := by
  by_cases h : out = [] <;> simp [given, h]

theorem length_given_le : (given out).length ≤ 1 := by
  by_cases h : out = [] <;> simp [given, h]

/-- A statement that is given is what was read. -/
theorem given_eq_of_head? {t : Text} (h : (given out).head? = some t) :
    given out = [t] ∧ out = t := by
  by_cases hout : out = []
  · rw [hout] at h
    cases h
  · rw [given_of_ne_nil hout] at h ⊢
    obtain rfl := Option.some.inj h
    exact ⟨rfl, rfl⟩

/-- Leaving out empty texts leaves what each of them comes to. -/
theorem filter_cons_eq_given (outs : List Text) :
    (out :: outs).filter (· ≠ []) = given out ++ outs.filter (· ≠ []) := by
  by_cases h : out = [] <;> simp [given, h]

@[simp] theorem ended_separator {token : Text} : ended out (.separator token) = given out := rfl

/-- Only separators end a statement. -/
theorem ended_of_not_isSeparator (h : l.isSeparator = false) : ended out l = [] := by
  simp [ended, h]

/-- No statement is ended without a separator, or if none was begun. -/
theorem ended_eq_nil_iff : ended out l = [] ↔ l.isSeparator = false ∨ out = [] := by
  by_cases hl : l.isSeparator = true <;> simp [ended, hl]

/-- A statement that is ended is what was read. -/
theorem ended_of_ne_nil (h : ended out l ≠ []) : ended out l = [out] := by
  rw [ne_eq, ended_eq_nil_iff, not_or, Bool.not_eq_false] at h
  rw [ended, if_pos h.1, given_of_ne_nil h.2]

@[simp] theorem closed_nil : closed out [] = [] := rfl

@[simp] theorem closed_cons : closed out (l :: ls) = ended out l ++ closed (l.onto out) ls := rfl

/-- The statements that lexemes end are those of the first ones, and those of the others behind what
the first ones left over. -/
@[simp] theorem closed_append :
    closed out (ls ++ ms) = closed out ls ++ closed (ontoAll out ls) ms := by
  induction ls generalizing out with
  | nil => rfl
  | cons l ls ih => simp [ih]

/-- Without separators no statement is ended. -/
theorem closed_of_not_isSeparator (h : ∀ l ∈ ls, l.isSeparator = false) : closed out ls = [] := by
  induction ls generalizing out with
  | nil => rfl
  | cons l ls ih =>
    obtain ⟨hl, hls⟩ := List.forall_mem_cons.1 h
    rw [closed_cons, ended_of_not_isSeparator hl, ih hls, List.append_nil]

/-- After a separator nothing is left over. -/
theorem onto_of_isSeparator (h : l.isSeparator = true) : l.onto out = [] := by
  cases l with
  | separator => rfl
  | copied => cases h
  | comment => cases h
  | blank => cases h

/-- What is closed and what is left over are the texts of the pieces; the first piece goes on with
what was read before. -/
theorem closed_append_given_eq (out : Text) (ls : List Lexeme) :
    ∃ piece pieces, ls.splitOnP isSeparator = piece :: pieces ∧
      closed out ls ++ given (ontoAll out ls) =
        given (ontoAll out piece) ++ (pieces.map render).filter (· ≠ []) := by
  -- what was read before belongs to the first piece, which is why it is kept apart from the others
  induction ls generalizing out with
  | nil => exact ⟨[], [], List.splitOnP_nil, by simp⟩
  | cons l ls ih =>
    rw [List.splitOnP_cons_eq_if_modifyHead]
    obtain ⟨piece, pieces, hsplit, heq⟩ := ih (l.onto out)
    by_cases hl : l.isSeparator = true
    · -- the separator ends the first piece, and the others follow it
      refine ⟨[], piece :: pieces, by rw [if_pos hl, hsplit], ?_⟩
      rw [onto_of_isSeparator hl] at heq
      rw [closed_cons, ontoAll_cons, onto_of_isSeparator hl, ended, if_pos hl, List.append_assoc,
        heq, ontoAll_nil, List.map_cons, filter_cons_eq_given, render]
    · -- any other lexeme goes on with the first piece
      refine ⟨l :: piece, pieces, by rw [if_neg hl, hsplit, List.modifyHead_cons], ?_⟩
      rw [closed_cons, ended_of_not_isSeparator (by simpa using hl), List.nil_append, ontoAll_cons,
        ontoAll_cons, heq]

/-- The statements of a text, told lexeme by lexeme, are the texts of its pieces. -/
theorem closed_append_given_ontoAll (ls : List Lexeme) :
    closed [] ls ++ given (ontoAll [] ls) = statementsOf ls := by
  obtain ⟨piece, pieces, hsplit, heq⟩ := closed_append_given_eq [] ls
  rw [heq, statementsOf, hsplit, List.map_cons, filter_cons_eq_given, render]

end Lexeme

end SqlScript
