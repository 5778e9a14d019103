import SqlScript.Text

/-!
# Blanks

Space, newline and tab are blanks; a carriage return is not. Outside of quotations a run of blanks
counts as one space, and as nothing at the start. `Text.collapse` writes a text in this way.
-/

namespace SqlScript

/-- A space, a newline or a tab. -/
def isBlank (c : Char) : Bool := c == ' ' || c == '\n' || c == '\t'

theorem isBlank_iff {c : Char} : isBlank c = true ↔ c = ' ' ∨ c = '\n' ∨ c = '\t' := by
  simp [isBlank, or_assoc]

namespace Text

/-- The text with each run of blanks written as one space. A run at the start is dropped if a
space was written just before (`spaced`). -/
def collapseFrom : (spaced : Bool) → Text → Text
  | _, [] => []
  | spaced, c :: t =>
    if isBlank c then
      if spaced then collapseFrom true t else ' ' :: collapseFrom true t
    else c :: collapseFrom false t

/-- The text with each run of blanks written as one space, and without blanks at its start. -/
def collapse (t : Text) : Text := collapseFrom true t

end Text

end SqlScript
