import SqlScript.Delimiters
import SqlScript.Event

/-!
# The statements of a script

`Statements` hands out the statements of a script one at a time (`Statements.next`), tells how far
it has read (`Statements.position`), and collects what is left (`Statements.collect`). A block
comment that is never closed is an error; it comes after the statements before it, and nothing
comes after it. `split` collects all statements of a script, `trace` tells the events on the way
as well.

Each request reads the script with `Scan.run` up to the end of a statement, and leaves less to be
read (`remaining_lt_of_pull`), so that collecting comes to an end.
-/

namespace SqlScript

/-- How the reading of a statement stops. -/
inductive Halt where
  /-- A separator ended this statement, and the reading goes on here. -/
  | closed (statement : Text) (s : Scan)
  /-- A block comment that is never closed starts here. -/
  | unterminated (s : Scan)
  /-- The script is read to its end. -/
  | finished (s : Scan)
deriving DecidableEq, Repr

/-- Reads on until a separator ends a statement or the reading stops, and tells the events on the
way. -/
def Scan.run (k : Tokens) (s : Scan) : List Event × Halt :=
  match _h : s.step k with
  | .finished => ([], .finished s)
  | .unterminated => ([.unterminated s.position k.blockClose], .unterminated s)
  | .closed statement s' =>
    ([.closed s'.position (Text.byteLen statement)], .closed statement s')
  | .advanced s' => s'.run k
  | .skipped kind s' =>
    let (events, halt) := s'.run k
    (.skipped kind s'.position :: events, halt)
termination_by s.rest.length
decreasing_by
  · exact Scan.length_rest_lt_of_step (by rw [_h]; rfl)
  · exact Scan.length_rest_lt_of_step (by rw [_h]; rfl)

/-- A run is a step and, unless the step stops it, a run. -/
theorem Scan.run_eq (k : Tokens) (s : Scan) :
    s.run k =
      match s.step k with
      | .finished => ([], .finished s)
      | .unterminated => ([.unterminated s.position k.blockClose], .unterminated s)
      | .closed statement s' =>
        ([.closed s'.position (Text.byteLen statement)], .closed statement s')
      | .advanced s' => s'.run k
      | .skipped kind s' => (.skipped kind s'.position :: (s'.run k).1, (s'.run k).2) := by
  rw [run]
  split <;> simp only [*]

/-- A run up to the end of a statement reads at least one character. -/
theorem Scan.length_rest_lt_of_run {k : Tokens} {s s' : Scan} {events : List Event}
    {statement : Text} (h : s.run k = (events, .closed statement s')) :
    s'.rest.length < s.rest.length := by
  fun_induction Scan.run k s generalizing events with
  | case1 => simp at h
  | case2 => simp at h
  | case3 s statement' s'' hs =>
    simp only [Prod.mk.injEq, Halt.closed.injEq] at h
    obtain ⟨-, -, rfl⟩ := h
    exact length_rest_lt_of_step (by rw [hs]; rfl)
  | case4 s s'' hs ih =>
    exact Nat.lt_trans (ih h) (length_rest_lt_of_step (by rw [hs]; rfl))
  | case5 s kind s'' hs events' halt hr ih =>
    simp only [Prod.mk.injEq] at h
    obtain ⟨-, rfl⟩ := h
    exact Nat.lt_trans (ih hr) (length_rest_lt_of_step (by rw [hs]; rfl))

/-- The statements of a script that are still to be handed out. -/
structure Statements where
  /-- The tokens of the script. -/
  tokens : Tokens
  /-- Where the reading stands. -/
  scan : Scan
  /-- Whether the end of the script or an error was met. -/
  finished : Bool
deriving DecidableEq, Repr

/-- What a request gives, the events on the way, and the statements that are left. -/
structure Answer (α : Type) where
  /-- What was asked for. -/
  value : α
  /-- The events on the way. -/
  events : List Event
  /-- What is left. -/
  after : Statements

namespace Statements

/-- The statements of a script under any four texts. -/
def ofTokens (k : Tokens) (script : Text) : Statements := ⟨k, .start script, false⟩

/-- The statements of a script. -/
def ofScript (d : Delimiters) (script : Text) : Statements := ofTokens d.tokens script

/-- The number of bytes of the script that were read. -/
def position (it : Statements) : Nat := it.scan.position

/-- Asks for a statement. There is none once the end of the script or an error was met. -/
def pull (it : Statements) : Answer (Option (Except SplitError Text)) :=
  if it.finished then ⟨none, [], it⟩
  else
    match it.scan.run it.tokens with
    | (events, .closed statement s) => ⟨some (.ok statement), events, { it with scan := s }⟩
    | (events, .unterminated s) =>
      ⟨some (.error (.unterminated it.tokens.blockClose s.position)), events,
        { it with scan := s, finished := true }⟩
    | (events, .finished s) =>
      let after := { it with scan := { s with pending := [] }, finished := true }
      if s.pending = [] then ⟨none, events, after⟩
      else ⟨some (.ok s.statement), events ++ [.ended (Text.byteLen s.statement)], after⟩

/-- The next statement or the error, and what is left. -/
def next (it : Statements) : Option (Except SplitError Text) × Statements :=
  let answer := it.pull
  (answer.value, answer.after)

/-- A bound on the number of statements that are still to come. -/
def remaining (it : Statements) : Nat := if it.finished then 0 else it.scan.rest.length + 1

/-- A statement that is handed out is no longer among those to come. -/
theorem remaining_lt_of_pull {it : Statements} {statement : Text}
    (h : it.pull.value = some (.ok statement)) : it.pull.after.remaining < it.remaining := by
  by_cases hf : it.finished = true
  · -- once the end was met there is no statement
    simp [pull, hf] at h
  · unfold pull at h ⊢
    simp only [hf, Bool.false_eq_true, ↓reduceIte] at h ⊢
    split at h
    · next events t s hr =>
      have := Scan.length_rest_lt_of_run hr
      simp only [remaining, hf, Bool.false_eq_true, ↓reduceIte]
      omega
    · simp at h
    · next events s hr =>
      -- a statement that is left over at the end is the last one
      split at h
      · simp at h
      · simp [remaining, *]

/-- Collects the statements that are left, or the error if there is one. -/
def drain (it : Statements) : Answer (Except SplitError (List Text)) :=
  let answer := it.pull
  match _h : answer.value with
  | none => ⟨.ok [], answer.events, answer.after⟩
  | some (.error e) => ⟨.error e, answer.events, answer.after⟩
  | some (.ok statement) =>
    let others := answer.after.drain
    ⟨others.value.map (statement :: ·), answer.events ++ others.events, others.after⟩
termination_by it.remaining
decreasing_by exact remaining_lt_of_pull _h

/-- Collecting is a request and, if that gives a statement, collecting. -/
theorem drain_eq (it : Statements) :
    it.drain =
      match it.pull.value with
      | none => ⟨.ok [], it.pull.events, it.pull.after⟩
      | some (.error e) => ⟨.error e, it.pull.events, it.pull.after⟩
      | some (.ok statement) =>
        ⟨it.pull.after.drain.value.map (statement :: ·),
          it.pull.events ++ it.pull.after.drain.events, it.pull.after.drain.after⟩ := by
  rw [drain]
  split <;> simp only [*]

/-- The statements that are left or the error, and what is left after them. -/
def collect (it : Statements) : Except SplitError (List Text) × Statements :=
  let answer := it.drain
  (answer.value, answer.after)

end Statements

/-- The statements of a script under any four texts, of which empty ones are never found. -/
def splitTokens (k : Tokens) (script : Text) : Except SplitError (List Text) :=
  (Statements.ofTokens k script).collect.1

/-- The statements of a script. -/
def split (d : Delimiters) (script : Text) : Except SplitError (List Text) :=
  (Statements.ofScript d script).collect.1

/-- The statements of a script, and the events on the way. -/
def trace (d : Delimiters) (script : Text) : Except SplitError (List Text) × List Event :=
  let answer := (Statements.ofScript d script).drain
  (answer.value, answer.events)

end SqlScript
