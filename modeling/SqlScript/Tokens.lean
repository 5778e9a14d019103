import SqlScript.Text

/-!
# The tokens of a script

Outside quotations a script is structured by four tokens: one ends a statement, one starts a line
comment, and two enclose a block comment. `Tokens` holds any four texts, and an empty one is never
found. A configuration that promises four tokens is a `Delimiters`.
-/

namespace SqlScript

/-- What a token is for. The constructors stand in the order in which tokens are written and
checked. -/
inductive Role where
  /-- Ends a statement. -/
  | separator
  /-- Starts a comment that reaches to the end of the line. -/
  | lineComment
  /-- Starts a comment that reaches to its closing token. -/
  | blockOpen
  /-- Ends a block comment. -/
  | blockClose
deriving DecidableEq, Repr

namespace Role

/-- All roles, in their order. -/
def all : List Role := [separator, lineComment, blockOpen, blockClose]

theorem mem_all (r : Role) : r ∈ all := by cases r <;> decide

/-- The role in words. -/
def title : Role → String
  | separator => "statement separator"
  | lineComment => "line comment prefix"
  | blockOpen => "block comment start delimiter"
  | blockClose => "block comment end delimiter"

end Role

/-- Four texts, one in each role. An empty text switches its role off. -/
structure Tokens where
  /-- Ends a statement. -/
  separator : Text
  /-- Starts a line comment. -/
  lineComment : Text
  /-- Starts a block comment. -/
  blockOpen : Text
  /-- Ends a block comment. -/
  blockClose : Text
deriving DecidableEq, Repr

namespace Tokens

/-- The text in a role. -/
def get (k : Tokens) : Role → Text
  | .separator => k.separator
  | .lineComment => k.lineComment
  | .blockOpen => k.blockOpen
  | .blockClose => k.blockClose

/-- The tokens that `f` names. -/
def ofFn (f : Role → Text) : Tokens :=
  ⟨f .separator, f .lineComment, f .blockOpen, f .blockClose⟩

@[simp] theorem get_ofFn (f : Role → Text) (r : Role) : (ofFn f).get r = f r := by
  cases r <;> rfl

@[simp] theorem ofFn_get (k : Tokens) : ofFn k.get = k := rfl

end Tokens

end SqlScript
