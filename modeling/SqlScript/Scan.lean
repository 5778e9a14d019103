import SqlScript.Blank
import SqlScript.Quotation
import SqlScript.Tokens

/-!
# The scan

A script is read once, from left to right. `Scan` is where the reading stands, and `Scan.step`
reads on by one literal character, one token or one comment. What may stand at a place is decided
in this order:

1. a literal character belongs to the statement (`Context.isLiteral`);
2. the separator ends the statement;
3. a line comment reaches to the next newline, which stays to be read, or to the end;
4. a block comment reaches past the next closing token, which may overlap the opening one in all
   but its first character;
5. a blank counts as a space, and as nothing at the start of a statement or after a space;
6. any other character belongs to the statement.

Every step reads at least one character (`length_rest_lt_of_step`).
-/

namespace SqlScript

/-- The two kinds of comment. -/
inductive Comment where
  /-- Up to the end of the line. -/
  | line
  /-- Up to the closing token. -/
  | block
deriving DecidableEq, Repr

/-- Where the reading of a script stands. -/
structure Scan where
  /-- What is still to be read. -/
  rest : Text
  /-- The number of bytes that were read. -/
  position : Nat
  /-- How the next character is to be read. -/
  context : Context
  /-- The statement read so far, its last character first. -/
  pending : Text
deriving DecidableEq, Repr

/-- What one step of the scan comes to. -/
inductive Step where
  /-- Nothing is left to be read. -/
  | finished
  /-- The reading goes on here. -/
  | advanced (s : Scan)
  /-- A comment was passed over. -/
  | skipped (kind : Comment) (s : Scan)
  /-- A separator ended this statement. -/
  | closed (statement : Text) (s : Scan)
  /-- A block comment starts here that is never closed. -/
  | unterminated
deriving DecidableEq, Repr

/-- Where the reading stands after a step that goes on. -/
def Step.scan? : Step → Option Scan
  | finished | unterminated => none
  | advanced s | skipped _ s | closed _ s => some s

namespace Scan

/-- The scan at the start of a script. -/
def start (script : Text) : Scan := ⟨script, 0, .clear, []⟩

/-- The scan after the text `read`, which `rest` follows. -/
def pass (s : Scan) (read rest : Text) : Scan :=
  { s with rest, position := s.position + Text.byteLen read }

/-- The scan with one more character of the statement. -/
def append (s : Scan) (c : Char) : Scan := { s with pending := c :: s.pending }

/-- The scan with a blank after the statement read so far. -/
def appendBlank (s : Scan) : Scan :=
  if s.pending = [] ∨ s.pending.head? = some ' ' then s else s.append ' '

/-- The statement read so far. -/
def statement (s : Scan) : Text := s.pending.reverse

/-- Ends the statement read so far; an empty one is passed over. -/
def close (s : Scan) : Step :=
  if s.pending = [] then .advanced s else .closed s.statement { s with pending := [] }

/-- Reads on from where the scan stands. -/
def step (k : Tokens) (s : Scan) : Step :=
  match s.rest with
  | [] => .finished
  | c :: t =>
    let here := { s with context := s.context.read c }
    -- a character that is not literal leaves the context clear, so that all the rest is the same
    -- outside of quotations and at their closing marks
    if s.context.isLiteral c then .advanced ((here.pass [c] t).append c)
    else
      match Text.afterToken? k.separator (c :: t) with
      | some r => (here.pass k.separator r).close
      | none =>
        if (Text.afterToken? k.lineComment (c :: t)).isSome then
          -- the newline stays to be read, as a blank or as a token
          let body := t.takeWhile (· != '\n')
          .skipped .line (here.pass (c :: body) (t.dropWhile (· != '\n')))
        else if (Text.afterToken? k.blockOpen (c :: t)).isSome then
          match Text.cutAt? k.blockClose t with
          | some (body, r) => .skipped .block (here.pass (c :: (body ++ k.blockClose)) r)
          | none => .unterminated
        else if isBlank c then .advanced (here.pass [c] t).appendBlank
        else .advanced ((here.pass [c] t).append c)

/-! ### Progress -/

@[simp] theorem rest_pass (s : Scan) (read rest : Text) : (s.pass read rest).rest = rest := rfl

@[simp] theorem rest_append (s : Scan) (c : Char) : (s.append c).rest = s.rest := rfl

@[simp] theorem rest_appendBlank (s : Scan) : s.appendBlank.rest = s.rest := by
  unfold appendBlank
  split <;> rfl

theorem rest_of_close {s s' : Scan} (h : s.close.scan? = some s') : s'.rest = s.rest := by
  unfold close at h
  split at h <;> · simp only [Step.scan?, Option.some.injEq] at h; rw [← h]

/-- Every step reads at least one character. -/
theorem length_rest_lt_of_step {k : Tokens} {s s' : Scan} (h : (s.step k).scan? = some s') :
    s'.rest.length < s.rest.length := by
  unfold step at h
  split at h
  · simp [Step.scan?] at h
  · next c t hr =>
    rw [hr, List.length_cons]
    split at h
    · simp only [Step.scan?, Option.some.injEq] at h
      simp [← h]
    split at h
    · next r hs =>
      obtain ⟨hk, ht⟩ := Text.afterToken?_eq_some_iff.1 hs
      have hlen := congrArg List.length ht
      have := List.length_pos_iff.2 hk
      rw [rest_of_close h, rest_pass]
      simp only [List.length_cons, List.length_append] at hlen
      omega
    split at h
    · simp only [Step.scan?, Option.some.injEq] at h
      have := (List.dropWhile_sublist (· != '\n') (l := t)).length_le
      simp only [← h, rest_pass]
      omega
    split at h
    · split at h
      · next body r hc =>
        have hlen := congrArg List.length (Text.eq_of_cutAt? hc)
        simp only [Step.scan?, Option.some.injEq] at h
        simp only [← h, rest_pass]
        simp only [List.length_append] at hlen
        omega
      · simp [Step.scan?] at h
    split at h <;> · simp only [Step.scan?, Option.some.injEq] at h; simp [← h]

end Scan

end SqlScript
