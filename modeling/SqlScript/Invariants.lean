import SqlScript.Statements

/-!
# What every split satisfies

`violation?` looks at what `split` gives for a script, and names the first property that does not
hold: no statement is empty or starts with a blank; a statement without quotation marks has no two
spaces in a row; a script without structure is its own only statement, collapsed; an error
stands where a block comment starts, and names the token that is missing; a script without block
comments is never an error. `checkedSplit` is `split` with this check.
-/

namespace SqlScript

/-- A property of splits that does not hold. -/
inductive Violation where
  /-- A statement is empty. -/
  | emptyStatement
  /-- A statement starts with a blank. -/
  | leadingBlank (statement : Text)
  /-- A statement without quotation marks has two spaces in a row. -/
  | doubleSpace (statement : Text)
  /-- A script without structure is not its own only statement, collapsed. -/
  | notCollapsed (statements : List Text)
  /-- An error names another token than the end of block comments. -/
  | wrongToken (expected : Text)
  /-- An error stands where no block comment starts. -/
  | wrongPosition (position : Nat)
  /-- A script without block comments is an error. -/
  | errorWithoutComment
deriving DecidableEq, Repr

/-- The violation in words. -/
def Violation.message : Violation → String
  | emptyStatement => "Empty statement"
  | leadingBlank s => "Statement " ++ String.ofList s ++ " starts with whitespace"
  | doubleSpace s => "Uncollapsed whitespace in " ++ String.ofList s
  | notCollapsed _ => "Unstructured script is not one collapsed statement"
  | wrongToken t => "Error names the token " ++ String.ofList t
  | wrongPosition p => "Error position " ++ toString p ++ " is not a block comment start"
  | errorWithoutComment => "Script without block comments failed"

namespace Invariants

/-- Nothing if `p` holds, the violation `v` otherwise. -/
def ensure (p : Bool) (v : Violation) : Option Violation := if p then none else some v

@[simp] theorem ensure_eq_none_iff {p : Bool} {v : Violation} :
    ensure p v = none ↔ p = true := by
  cases p <;> simp [ensure]

/-- Whether a character is a quotation mark. -/
def isQuoteMark (c : Char) : Bool := (Quote.ofMark? c).isSome

/-- Whether a script holds neither quotation marks nor backslashes nor tokens that start
something. -/
def isUnstructured (d : Delimiters) (script : Text) : Bool :=
  script.all (fun c => !isQuoteMark c && c != escapeMark) &&
    [d.separator, d.lineComment, d.blockOpen].all fun token => !Text.occursIn token.val script

/-- The statements of a script without structure. -/
def collapsedStatements (script : Text) : List Text :=
  if Text.collapse script = [] then [] else [Text.collapse script]

/-- The first property that a statement does not have. -/
def statementViolation? (s : Text) : Option Violation :=
  ensure (s != []) .emptyStatement
    <|> ensure (!s.head?.any isBlank) (.leadingBlank s)
    <|> ensure (s.any isQuoteMark || !Text.occursIn [' ', ' '] s) (.doubleSpace s)

/-- The first property that the outcome of a split does not have. -/
def outcomeViolation? (d : Delimiters) (script : Text) :
    Except SplitError (List Text) → Option Violation
  | .ok statements =>
    statements.findSome? statementViolation?
      <|> ensure (!isUnstructured d script || statements == collapsedStatements script)
        (.notCollapsed statements)
  | .error (.unterminated expected position) =>
    ensure (expected == d.blockClose.val) (.wrongToken expected)
      <|> ensure
        ((Text.fromByte? position script).any fun r => (Text.after? d.blockOpen r).isSome)
        (.wrongPosition position)
      <|> ensure (Text.occursIn d.blockOpen script) .errorWithoutComment

end Invariants

/-- The first property that the split of a script does not have. -/
def violation? (d : Delimiters) (script : Text) : Option Violation :=
  Invariants.outcomeViolation? d script (split d script)

/-- The split of a script, unless it violates a property of splits. -/
def checkedSplit (d : Delimiters) (script : Text) :
    Except Violation (Except SplitError (List Text)) :=
  let outcome := split d script
  match Invariants.outcomeViolation? d script outcome with
  | some v => .error v
  | none => .ok outcome

/-- Splits are checked for violations only. -/
theorem checkedSplit_eq_ok_iff {d : Delimiters} {script : Text}
    {outcome : Except SplitError (List Text)} :
    checkedSplit d script = .ok outcome ↔
      violation? d script = none ∧ split d script = outcome := by
  unfold checkedSplit violation?
  cases h : Invariants.outcomeViolation? d script (split d script) <;> simp [h]

end SqlScript
