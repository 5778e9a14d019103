import SqlScript.Proofs.Course

/-!
# The items of a run

Requests give statement after statement, until the script is read to its end or an error is met.
`Statements.items` lists what they give in one full run. A request takes the first item
(`head?_items`, `items_next`), and collecting takes all of them (`collect_fst`, `items_collect`): it
gives all statements, or the error if there is one (`gather`). Either way the run comes to the same
end (`collect_next`, `position_collect`).
-/

namespace SqlScript

namespace Statements

/-- What requests give one after the other, up to the end or an error. -/
def items (it : Statements) : List (Except SplitError Text) :=
  match _h : it.pull.value with
  | none => []
  | some (.error e) => [.error e]
  | some (.ok t) => .ok t :: it.pull.after.items
termination_by it.remaining
decreasing_by exact remaining_lt_of_pull _h

/-- All statements among the items, or the first error. -/
def gather (xs : List (Except SplitError Text)) : Except SplitError (List Text) := xs.mapM id

/-- The items are what a request gives and, if that is a statement, the items behind it. -/
theorem items_eq (it : Statements) :
    it.items =
      match it.pull.value with
      | none => []
      | some (.error e) => [.error e]
      | some (.ok t) => .ok t :: it.pull.after.items := by
  rw [items]
  split <;> simp only [*]

theorem gather_cons_ok (t : Text) (xs : List (Except SplitError Text)) :
    gather (.ok t :: xs) = (gather xs).map (t :: ·) := by
  unfold gather
  rw [List.mapM_cons]
  cases xs.mapM id <;> rfl

theorem gather_ok (ts : List Text) : gather (ts.map .ok) = .ok ts := by
  induction ts with
  | nil => rfl
  | cons t ts ih =>
    rw [List.map_cons, gather_cons_ok, ih]
    rfl

/-- Statements before an error are not gathered. -/
theorem gather_error (ts : List Text) (e : SplitError) :
    gather (ts.map .ok ++ [.error e]) = .error e := by
  induction ts with
  | nil => rfl
  | cons t ts ih =>
    rw [List.map_cons, List.cons_append, gather_cons_ok, ih]
    rfl

variable {it : Statements}

/-! ### One request -/

theorem items_of_finished (h : it.finished = true) : it.items = [] := by
  rw [items_eq, pull_of_finished h]

/-- A request that gives no statement is the last one that gives anything. -/
theorem finished_pull (h : ∀ t, it.pull.value ≠ some (.ok t)) : it.pull.after.finished = true := by
  obtain ⟨k, s, finished⟩ := it
  cases finished with
  | true => rw [pull_of_finished rfl]
  | false =>
    -- of the three ways in which a request ends only one leaves more to come, and it gives a
    -- statement
    have hp : Pulls k s (⟨k, s, false⟩ : Statements).pull := pulls k s
    generalize (⟨k, s, false⟩ : Statements).pull = answer at h hp
    cases hp with
    | closed => exact absurd rfl (h _)
    | unterminated => rfl
    | atEnd => rfl

theorem finished_pull_of_none (h : it.pull.value = none) : it.pull.after.finished = true := by
  apply finished_pull
  simp [h]

theorem finished_pull_of_error {e : SplitError} (h : it.pull.value = some (.error e)) :
    it.pull.after.finished = true := by
  apply finished_pull
  simp [h]

/-- A request gives the first item. -/
theorem head?_items (it : Statements) : it.items.head? = it.next.1 := by
  rw [items_eq]
  show _ = it.pull.value
  rcases it.pull.value with _ | (e | t) <;> rfl

/-- A request leaves the other items. -/
theorem items_next (it : Statements) : it.next.2.items = it.items.tail := by
  show it.pull.after.items = _
  rw [items_eq it]
  cases h : it.pull.value with
  | none => exact items_of_finished (finished_pull_of_none h)
  | some a =>
    cases a with
    | error e => exact items_of_finished (finished_pull_of_error h)
    | ok t => rfl

/-- Only the last item may be an error. -/
theorem items_eq_map (it : Statements) :
    ∃ ts : List Text, it.items = ts.map .ok ∨ ∃ e, it.items = ts.map .ok ++ [.error e] := by
  fun_induction items it with
  | case1 => exact ⟨[], Or.inl rfl⟩
  | case2 it e => exact ⟨[], Or.inr ⟨e, rfl⟩⟩
  | case3 it t ht ih =>
    obtain ⟨ts, hts | ⟨e, hts⟩⟩ := ih
    · exact ⟨t :: ts, Or.inl (by rw [hts]; rfl)⟩
    · exact ⟨t :: ts, Or.inr ⟨e, by rw [hts]; rfl⟩⟩

/-! ### The items of a reading -/

section Reading

variable {k : Tokens} {s : Scan} {l : Lexeme} {ls : List Lexeme} {r : Text}

/-- A lexeme ends an item, or none. -/
theorem items_of_lexes (h : Lexes k s.context s.rest l r) :
    (ofScan k s).items = (l.ended s.statement).map .ok ++ (ofScan k (s.after l r)).items := by
  by_cases he : l.ended s.statement = []
  · rw [items_eq, pull_of_lexes h he, items_eq (ofScan k (s.after l r)), he, List.map_nil,
      List.nil_append]
  · rw [items_eq, pull_of_ended h he, Lexeme.ended_of_ne_nil he]
    rfl

/-- The items are the statements that lexemes end, and the items behind these lexemes. -/
theorem items_of_reads (h : Reads k s.context s.rest ls r) :
    (ofScan k s).items =
      (Lexeme.closed s.statement ls).map .ok ++ (ofScan k (s.afterAll ls r)).items := by
  induction ls generalizing s with
  | nil =>
    cases h
    rw [Scan.afterAll_nil]
    rfl
  | cons l ls ih =>
    cases h with
    | @cons _ _ t' _ _ _ hl hls =>
      rw [items_of_lexes hl, ih (s := s.after l t') hls, Scan.afterAll_after, Lexeme.closed_cons,
        Scan.statement_after, List.map_append, List.append_assoc]

/-- Where a block comment is never closed the error is the only item. -/
theorem items_of_unclosed (h : Unclosed k s.context s.rest) :
    (ofScan k s).items = [.error (.unterminated k.blockClose s.position)] := by
  rw [items_eq, pull_of_unclosed h]

end Reading

/-! ### Collecting -/

theorem collect_of_finished (h : it.finished = true) : it.collect = (.ok [], it) := by
  rw [collect, drain_of_finished h]

/-- Collecting gives all statements that are left, or the error. -/
theorem collect_fst (it : Statements) : it.collect.1 = gather it.items := by
  show it.drain.value = gather it.items
  fun_induction items it with
  | case1 it h => rw [drain_eq, h]; rfl
  | case2 it e h => rw [drain_eq, h]; rfl
  | case3 it t h ih => rw [drain_eq, h, gather_cons_ok, ← ih]

/-- Collecting comes to the same end as collecting after one more request. -/
theorem collect_next (it : Statements) : it.next.2.collect.2 = it.collect.2 := by
  show it.pull.after.drain.after = it.drain.after
  rw [drain_eq it]
  cases h : it.pull.value with
  | none => rw [drain_of_finished (finished_pull_of_none h)]
  | some a =>
    cases a with
    | error e => rw [drain_of_finished (finished_pull_of_error h)]
    | ok t => rfl

theorem finished_collect (it : Statements) : it.collect.2.finished = true := by
  show it.drain.after.finished = true
  fun_induction items it with
  | case1 it h => rw [drain_eq, h]; exact finished_pull_of_none h
  | case2 it e h => rw [drain_eq, h]; exact finished_pull_of_error h
  | case3 it t h ih => rw [drain_eq, h]; exact ih

theorem items_collect (it : Statements) : it.collect.2.items = [] :=
  items_of_finished (finished_collect it)

/-- A run ends at the end of the script, or where the block comment starts that is never closed. -/
theorem position_collect (k : Tokens) (script : Text) :
    (∀ ts, splitTokens k script = .ok ts →
      (ofTokens k script).collect.2.position = Text.byteLen script) ∧
    ∀ expected p, splitTokens k script = .error (.unterminated expected p) →
      (ofTokens k script).collect.2.position = p := by
  obtain ⟨ls, r, hls⟩ := exists_lexed k .clear script
  show (∀ ts, (ofScan k (.start script)).drain.value = .ok ts →
      (ofScan k (.start script)).drain.after.position = _) ∧
    ∀ expected p, (ofScan k (.start script)).drain.value = .error (.unterminated expected p) →
      (ofScan k (.start script)).drain.after.position = _
  rcases hls.stops with rfl | hu
  · -- everything was read, and there is no error
    rw [drain_of_reads_nil (s := .start script) hls.reads]
    constructor
    · intro ts _
      rw [hls.reads.text_append, List.append_nil]
      exact Nat.zero_add _
    · intro expected p h
      cases h
  · -- the run stops where the comment starts
    rw [drain_of_reads_unclosed (s := .start script) hls.reads hu]
    constructor
    · intro ts h
      cases h
    · intro expected p h
      exact (SplitError.unterminated.inj (Except.error.inj h)).2

end Statements

end SqlScript
