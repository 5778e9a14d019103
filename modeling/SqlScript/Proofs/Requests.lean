import SqlScript.Statements
import SqlScript.Proofs.Rendering

/-!
# Requests and lexemes

A request for a statement reads lexemes up to a separator that ends one, and collecting reads all
lexemes. `Statements.pull_of_lexes`, `pull_of_ended`, `pull_of_unclosed` and `pull_of_rest_eq_nil`
say what a request makes of the lexeme that comes next. `Statements.Pulls k s answer` lists the
three ways in which a request can end, each with all that it answers, tells and leaves, and `pulls`
says that there is no other. `Statements.drain_of_reads` says what collecting makes of lexemes, and
`drain_of_reads_nil` and `drain_of_reads_unclosed` what it makes of a whole reading.
-/

namespace SqlScript

namespace Lexeme

/-- The events at a lexeme that starts at `position` when `out` was read before. -/
def log (position : Nat) (out : Text) (l : Lexeme) : List Event :=
  match l with
  | separator token =>
    (given out).map fun t => .closed (position + Text.byteLen token) (Text.byteLen t)
  | comment kind u => [.skipped kind (position + Text.byteLen u)]
  | copied _ | blank _ => []

/-- The events at lexemes that start at `position` when `out` was read before. -/
def logAll (position : Nat) (out : Text) : List Lexeme → List Event
  | [] => []
  | l :: ls => l.log position out ++ logAll (position + Text.byteLen l.text) (l.onto out) ls

variable {position : Nat} {out : Text} {ls ms : List Lexeme}

@[simp] theorem logAll_append :
    logAll position out (ls ++ ms) =
      logAll position out ls ++
        logAll (position + Text.byteLen (textOf ls)) (ontoAll out ls) ms := by
  induction ls generalizing position out with
  | nil => simp [logAll]
  | cons l ls ih => simp [logAll, ih, Nat.add_assoc]

/-- Lexemes that end no statement are told without the end of one. -/
theorem closed_notMem_logAll (h : closed out ls = []) (stop length : Nat) :
    Event.closed stop length ∉ logAll position out ls := by
  induction ls generalizing position out with
  | nil => exact List.not_mem_nil
  | cons l ls ih =>
    rw [closed_cons, List.append_eq_nil_iff] at h
    rw [logAll, List.mem_append, not_or]
    refine ⟨?_, ih h.2⟩
    cases l with
    | separator token =>
      have hout : out = [] := by simpa using h.1
      simp [log, hout]
    | comment kind u => simp [log]
    | copied c => simp [log]
    | blank c => simp [log]

end Lexeme

namespace Scan

variable {k : Tokens} {s : Scan} {l : Lexeme} {r : Text}

/-- A run goes on after a lexeme that ends no statement. -/
theorem run_of_lexes (h : Lexes k s.context s.rest l r) (he : l.ended s.statement = []) :
    s.run k =
      (l.log s.position s.statement ++ ((s.after l r).run k).1, ((s.after l r).run k).2) := by
  rw [run_eq, step_of_lexes h]
  cases l with
  | separator token =>
    have hs : s.statement = [] := by simpa using he
    simp [take, hs, Lexeme.log]
  | comment kind u => rfl
  | copied c => rfl
  | blank c => rfl

/-- A run stops after a separator that ends a statement. -/
theorem run_of_ended (h : Lexes k s.context s.rest l r) (he : l.ended s.statement ≠ []) :
    s.run k = (l.log s.position s.statement, .closed s.statement (s.after l r)) := by
  rw [run_eq, step_of_lexes h]
  cases l with
  | separator token =>
    have hs : s.statement ≠ [] := by simpa using he
    simp [take, hs, Lexeme.log, Lexeme.given_of_ne_nil hs, Lexeme.text]
  | comment kind u => exact absurd rfl he
  | copied c => exact absurd rfl he
  | blank c => exact absurd rfl he

end Scan

namespace Statements

/-- The statements that are still to come where a scan stands. -/
def ofScan (k : Tokens) (s : Scan) : Statements := ⟨k, s, false⟩

/-- What is left of the statements after the end of the script. -/
def atEnd (k : Tokens) (s : Scan) : Statements := ⟨k, { s with pending := [] }, true⟩

variable {k : Tokens} {s : Scan} {l : Lexeme} {ls : List Lexeme} {r : Text}

/-! ### One request -/

/-- A request reads on after a lexeme that ends no statement. -/
theorem pull_of_lexes (h : Lexes k s.context s.rest l r) (he : l.ended s.statement = []) :
    (ofScan k s).pull =
      ⟨(ofScan k (s.after l r)).pull.value,
        l.log s.position s.statement ++ (ofScan k (s.after l r)).pull.events,
        (ofScan k (s.after l r)).pull.after⟩ := by
  simp only [pull, ofScan, Bool.false_eq_true, ↓reduceIte, Scan.run_of_lexes h he]
  obtain ⟨events, halt⟩ := (s.after l r).run k
  cases halt with
  | closed t s' => rfl
  | unterminated s' => rfl
  | finished s' => by_cases hp : s'.pending = [] <;> simp [hp]

/-- A request gives the statement that a separator ends. -/
theorem pull_of_ended (h : Lexes k s.context s.rest l r) (he : l.ended s.statement ≠ []) :
    (ofScan k s).pull =
      ⟨some (.ok s.statement), l.log s.position s.statement, ofScan k (s.after l r)⟩ := by
  simp only [pull, ofScan, Bool.false_eq_true, ↓reduceIte, Scan.run_of_ended h he]

/-- A request gives the error where a block comment is never closed. -/
theorem pull_of_unclosed (h : Unclosed k s.context s.rest) :
    (ofScan k s).pull =
      ⟨some (.error (.unterminated k.blockClose s.position)),
        [.unterminated s.position k.blockClose], ⟨k, s, true⟩⟩ := by
  simp only [pull, ofScan, Bool.false_eq_true, ↓reduceIte, Scan.run_eq, Scan.step_of_unclosed h]

/-- A request at the end of the script gives the statement that was read, if there is one. -/
theorem pull_of_rest_eq_nil (h : s.rest = []) :
    (ofScan k s).pull =
      ⟨(Lexeme.given s.statement).head?.map .ok,
        (Lexeme.given s.statement).map fun t => .ended (Text.byteLen t), atEnd k s⟩ := by
  simp only [pull, ofScan, Bool.false_eq_true, ↓reduceIte, Scan.run_eq,
    Scan.step_of_rest_eq_nil h]
  by_cases hp : s.pending = []
  · simp [hp, Scan.statement, atEnd]
  · have hs : s.statement ≠ [] := fun hs => hp (Scan.statement_eq_nil_iff.1 hs)
    simp [hp, Lexeme.given_of_ne_nil hs, atEnd]

/-- A request after the end gives nothing. -/
theorem pull_of_finished {it : Statements} (h : it.finished = true) : it.pull = ⟨none, [], it⟩ := by
  simp only [pull, h, ↓reduceIte]

theorem next_of_finished {it : Statements} (h : it.finished = true) : it.next = (none, it) := by
  rw [next, pull_of_finished h]

/-! ### How a request ends -/

/-- The ways in which a request ends that is made where the scan `s` stands. -/
inductive Pulls (k : Tokens) (s : Scan) : Answer (Option (Except SplitError Text)) → Prop
  /-- The first separator behind something that belongs to a statement ends it. -/
  | closed {ls : List Lexeme} {r : Text}
      (hr : Reads k s.context s.rest (ls ++ [.separator k.separator]) r)
      (hc : Lexeme.closed s.statement ls = []) (hne : Lexeme.ontoAll s.statement ls ≠ []) :
      Pulls k s ⟨some (.ok (Lexeme.ontoAll s.statement ls)),
        Lexeme.logAll s.position s.statement (ls ++ [.separator k.separator]),
        ofScan k (s.afterAll (ls ++ [.separator k.separator]) r)⟩
  /-- A block comment is never closed. -/
  | unterminated {ls : List Lexeme} {r : Text} (hr : Reads k s.context s.rest ls r)
      (hc : Lexeme.closed s.statement ls = []) (hu : Unclosed k (s.context.passAll ls) r) :
      Pulls k s ⟨some (.error (.unterminated k.blockClose (s.afterAll ls r).position)),
        Lexeme.logAll s.position s.statement ls ++
          [.unterminated (s.afterAll ls r).position k.blockClose],
        ⟨k, s.afterAll ls r, true⟩⟩
  /-- The script is read to its end, where a statement may be left over. -/
  | atEnd {ls : List Lexeme} (hr : Reads k s.context s.rest ls [])
      (hc : Lexeme.closed s.statement ls = []) :
      Pulls k s ⟨(Lexeme.given (Lexeme.ontoAll s.statement ls)).head?.map .ok,
        Lexeme.logAll s.position s.statement ls ++
          (Lexeme.given (Lexeme.ontoAll s.statement ls)).map fun t => .ended (Text.byteLen t),
        Statements.atEnd k (s.afterAll ls [])⟩

section Pulls

variable {answer : Answer (Option (Except SplitError Text))}

/-- A request that reads a lexeme which ends no statement goes on as a request behind it. -/
theorem Pulls.cons (h : Lexes k s.context s.rest l r) (he : l.ended s.statement = [])
    (hp : Pulls k (s.after l r) answer) :
    Pulls k s ⟨answer.value, l.log s.position s.statement ++ answer.events, answer.after⟩ := by
  have hclosed {ls : List Lexeme} (hc : Lexeme.closed (l.onto s.statement) ls = []) :
      Lexeme.closed s.statement (l :: ls) = [] := by
    rw [Lexeme.closed_cons, he, hc, List.append_nil]
  cases hp with
  | @closed ls r' hr hc hne =>
    rw [Scan.statement_after] at hc hne
    have hr' : Reads k s.context s.rest ((l :: ls) ++ [.separator k.separator]) r' := .cons h hr
    have hp : Pulls k s _ := .closed hr' (hclosed hc) hne
    simpa [Lexeme.logAll] using hp
  | @unterminated ls r' hr hc hu =>
    rw [Scan.statement_after] at hc
    have hr' : Reads k s.context s.rest (l :: ls) r' := .cons h hr
    have hp : Pulls k s _ := .unterminated hr' (hclosed hc) hu
    simpa [Lexeme.logAll] using hp
  | @atEnd ls hr hc =>
    rw [Scan.statement_after] at hc
    have hr' : Reads k s.context s.rest (l :: ls) [] := .cons h hr
    have hp : Pulls k s _ := .atEnd hr' (hclosed hc)
    simpa [Lexeme.logAll] using hp

/-- A request ends in one of the three ways. -/
theorem pulls (k : Tokens) (s : Scan) : Pulls k s (ofScan k s).pull := by
  obtain ⟨ls, r, hls⟩ := exists_lexed k s.context s.rest
  induction ls generalizing s with
  | nil =>
    obtain ⟨hreads, hstops⟩ := hls
    have hrest : s.rest = r := by simpa using hreads.text_append
    rcases hstops with rfl | hunclosed
    · have hp : Pulls k s _ := .atEnd hreads rfl
      rw [← hrest, Scan.afterAll_nil] at hp
      rw [pull_of_rest_eq_nil hrest]
      simpa [Lexeme.logAll] using hp
    · have hp : Pulls k s _ := .unterminated hreads rfl hunclosed
      rw [← hrest, Scan.afterAll_nil] at hp
      rw [Context.passAll_nil, ← hrest] at hunclosed
      rw [pull_of_unclosed hunclosed]
      simpa [Lexeme.logAll] using hp
  | cons l ls ih =>
    obtain ⟨hreads, hstops⟩ := hls
    cases hreads with
    | @cons _ _ t' _ _ _ hl hls =>
      by_cases he : l.ended s.statement = []
      · rw [pull_of_lexes hl he]
        exact (ih (s.after l t') ⟨hls, hstops⟩).cons hl he
      · -- the separator is read as the last lexeme
        rw [pull_of_ended hl he]
        rw [Lexeme.ended_eq_nil_iff, not_or, Bool.not_eq_false] at he
        obtain rfl := hl.eq_separator he.1
        have hr : Reads k s.context s.rest ([] ++ [.separator k.separator]) t' := .one hl
        have hp : Pulls k s _ := .closed hr rfl he.2
        simpa [Lexeme.logAll] using hp

end Pulls

/-- A request gives the statement that the separator behind these lexemes ends, if none of them ends
one. -/
theorem pull_of_reads (h : Reads k s.context s.rest (ls ++ [.separator k.separator]) r)
    (hc : Lexeme.closed s.statement ls = []) (hne : Lexeme.ontoAll s.statement ls ≠ []) :
    (ofScan k s).pull =
      ⟨some (.ok (Lexeme.ontoAll s.statement ls)),
        Lexeme.logAll s.position s.statement (ls ++ [.separator k.separator]),
        ofScan k (s.afterAll (ls ++ [.separator k.separator]) r)⟩ := by
  induction ls generalizing s with
  | nil =>
    cases h with
    | cons hl hls =>
      cases hls
      have he : (Lexeme.separator k.separator).ended s.statement ≠ [] := by simpa using hne
      rw [pull_of_ended hl he]
      simp [Lexeme.logAll]
  | cons l ls ih =>
    rw [Lexeme.closed_cons, List.append_eq_nil_iff] at hc
    cases h with
    | @cons _ _ t' _ _ _ hl hls =>
      rw [pull_of_lexes hl hc.1,
        ih (s := s.after l t') hls (by simpa using hc.2) (by simpa using hne)]
      simp [Lexeme.logAll]

/-! ### Collecting -/

/-- Collecting goes on after a lexeme, with the statement that it ends. -/
theorem drain_of_lexes (h : Lexes k s.context s.rest l r) :
    (ofScan k s).drain =
      ⟨(ofScan k (s.after l r)).drain.value.map (l.ended s.statement ++ ·),
        l.log s.position s.statement ++ (ofScan k (s.after l r)).drain.events,
        (ofScan k (s.after l r)).drain.after⟩ := by
  by_cases he : l.ended s.statement = []
  · -- the request that reads the lexeme goes on as the one behind it
    rw [drain_eq, pull_of_lexes h he, drain_eq (ofScan k (s.after l r)), he]
    obtain ⟨value, events, rest⟩ := (ofScan k (s.after l r)).pull
    cases value with
    | none => rfl
    | some value =>
      cases value with
      | error e => rfl
      | ok t => cases rest.drain.value <;> simp [Except.map]
  · -- the request ends with the lexeme, and the next one starts behind it
    rw [drain_eq, pull_of_ended h he, Lexeme.ended_of_ne_nil he]
    rfl

/-- Collecting goes on after lexemes, with the statements that they end. -/
theorem drain_of_reads (h : Reads k s.context s.rest ls r) :
    (ofScan k s).drain =
      ⟨(ofScan k (s.afterAll ls r)).drain.value.map (Lexeme.closed s.statement ls ++ ·),
        Lexeme.logAll s.position s.statement ls ++ (ofScan k (s.afterAll ls r)).drain.events,
        (ofScan k (s.afterAll ls r)).drain.after⟩ := by
  induction ls generalizing s with
  | nil =>
    cases h
    rw [Scan.afterAll_nil]
    cases hv : (ofScan k s).drain.value <;> simp [Lexeme.logAll, Except.map, ← hv]
  | cons l ls ih =>
    cases h with
    | @cons _ _ t' _ _ _ hl hls =>
      rw [drain_of_lexes hl, ih (s := s.after l t') hls, Scan.afterAll_after]
      cases hv : (ofScan k (s.afterAll (l :: ls) r)).drain.value <;>
        simp [Lexeme.logAll, Except.map]

theorem drain_of_finished {it : Statements} (h : it.finished = true) :
    it.drain = ⟨.ok [], [], it⟩ := by
  rw [drain_eq, pull_of_finished h]

/-- Collecting at the end of the script gives the statement that was read, if there is one. -/
theorem drain_of_rest_eq_nil (h : s.rest = []) :
    (ofScan k s).drain =
      ⟨.ok (Lexeme.given s.statement),
        (Lexeme.given s.statement).map fun t => .ended (Text.byteLen t), atEnd k s⟩ := by
  rw [drain_eq, pull_of_rest_eq_nil h]
  -- one more request gives what is left over, and the request after it nothing
  by_cases hs : s.statement = []
  · simp [hs]
  · have hdrain : (atEnd k s).drain = ⟨.ok [], [], atEnd k s⟩ := drain_of_finished rfl
    simp [Lexeme.given_of_ne_nil hs, hdrain, Except.map]

/-- Collecting gives the error where a block comment is never closed. -/
theorem drain_of_unclosed (h : Unclosed k s.context s.rest) :
    (ofScan k s).drain =
      ⟨.error (.unterminated k.blockClose s.position),
        [.unterminated s.position k.blockClose], ⟨k, s, true⟩⟩ := by
  rw [drain_eq, pull_of_unclosed h]

/-- Collecting a script that is read to its end. -/
theorem drain_of_reads_nil (h : Reads k s.context s.rest ls []) :
    (ofScan k s).drain =
      ⟨.ok (Lexeme.closed s.statement ls ++ Lexeme.given (Lexeme.ontoAll s.statement ls)),
        Lexeme.logAll s.position s.statement ls ++
          (Lexeme.given (Lexeme.ontoAll s.statement ls)).map fun t => .ended (Text.byteLen t),
        atEnd k (s.afterAll ls [])⟩ := by
  rw [drain_of_reads h, drain_of_rest_eq_nil rfl, Scan.statement_afterAll]
  rfl

/-- Collecting a script that is read up to a block comment that is never closed. -/
theorem drain_of_reads_unclosed (h : Reads k s.context s.rest ls r)
    (hu : Unclosed k (s.context.passAll ls) r) :
    (ofScan k s).drain =
      ⟨.error (.unterminated k.blockClose (s.afterAll ls r).position),
        Lexeme.logAll s.position s.statement ls ++
          [.unterminated (s.afterAll ls r).position k.blockClose],
        ⟨k, s.afterAll ls r, true⟩⟩ := by
  have hstop : Unclosed k (s.afterAll ls r).context (s.afterAll ls r).rest := hu
  rw [drain_of_reads h, drain_of_unclosed hstop]
  rfl

end Statements

end SqlScript
