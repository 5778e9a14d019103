import SqlScript.Delimiters
import SqlScript.Sample.Draw

/-!
# Sample scripts

Configurations and scripts drawn from bytes. They lean towards what real scripts hold: usual
tokens, and pieces of text in which quotations, escapes, comments and separators meet.
-/

namespace SqlScript

namespace Sample

/-- Separators in use. -/
def separators : List Token :=
  [Token.cons ';' [], Token.cons 'G' ['O'], Token.cons '\n' [], Token.cons '$' ['$'],
    Token.cons '/' []]

/-- Starts of line comments in use. -/
def lineComments : List Token :=
  [Token.cons '-' ['-'], Token.cons '#' [], Token.cons '/' ['/'],
    Token.cons 'R' ['E', 'M']]

/-- Starts of block comments in use. -/
def blockOpens : List Token :=
  [Token.cons '/' ['*'], Token.cons '\x7b' [], Token.cons '(' ['*'],
    Token.cons '<' ['!', '-', '-']]

/-- Ends of block comments in use. -/
def blockCloses : List Token :=
  [Token.cons '*' ['/'], Token.cons '\x7d' [], Token.cons '*' [')'],
    Token.cons '-' ['-', '>']]

/-- A token, in three of four cases one in use. -/
def token (common : List Token) (h : common ≠ []) : Draw Token := do
  if ← Draw.chance 3 4 then Draw.pick common h
  else
    let t ← Draw.text
    if ht : t = [] then Draw.pick common h else return ⟨t, ht⟩

/-- A configuration. -/
def delimiters : Draw Delimiters := do
  let separator ← token separators (by decide)
  let lineComment ← token lineComments (by decide)
  let blockOpen ← token blockOpens (by decide)
  let blockClose ← token blockCloses (by decide)
  return { separator, lineComment, blockOpen, blockClose }

/-- Pieces of scripts. -/
def pieces : List Text :=
  [['S', 'E', 'L', 'E', 'C', 'T'], ['1'], ['F', 'R', 'O', 'M', ' ', 't'], ['x'], [' '],
    [' ', ' '], ['\n'], ['\t'], ['\r', '\n'], [';'], ['\x27'], ['\x22'], ['\\'], ['-', '-'],
    ['/', '*'], ['*', '/'], ['/'], ['*'], ['-'], ['G', 'O'], ['#'], ['\x7b'], ['\x7d'],
    ['$', '$'], ['é'], ['§']]

/-- A piece of a script, in one of eight cases any text. -/
def piece : Draw Text := do
  if ← Draw.chance 1 8 then Draw.text else Draw.pick pieces (by decide)

/-- A text of `n` pieces. -/
def textOf : Nat → Draw Text
  | 0 => return []
  | n + 1 => do
    let first ← piece
    let others ← textOf n
    return first ++ others

/-- A script of at most 64 pieces. -/
def script : Draw Text := do
  let n ← Draw.below 65
  textOf n

/-- A configuration and a script. -/
def both : Draw (Delimiters × Text) := do
  let d ← delimiters
  let s ← script
  return (d, s)

end Sample

end SqlScript
