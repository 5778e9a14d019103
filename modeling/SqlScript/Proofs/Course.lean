import SqlScript.Proofs.Delivery

/-!
# The course of requests

Requests one after the other lead from the start of a script to three kinds of places, listed by
`Visits k script answers it` together with the answers on the way: between two statements, at a
block comment that is never closed, and at the end. `Visits.next` says that a request leads from one
such place to another, and `visits_requests` that all requests do.
-/

namespace SqlScript

namespace Statements

/-- The places to which requests lead from the start of a script, with the answers on the way. -/
inductive Visits (k : Tokens) (script : Text) :
    List (Option (Except SplitError Text)) → Statements → Prop
  /-- No statement is begun, and something was answered each time. -/
  | between {answers : List (Option (Except SplitError Text))} {s : Scan}
      (hs : Scan.Reaches k (.start script) s) (hx : s.context = .clear) (ht : s.statement = [])
      (ha : none ∉ answers) : Visits k script answers (ofScan k s)
  /-- A block comment is never closed, and the error was answered. -/
  | failed {answers : List (Option (Except SplitError Text))} {s : Scan}
      (hs : Scan.Reaches k (.start script) s) (hu : Unclosed k s.context s.rest)
      (ha : some (.error (.unterminated k.blockClose s.position)) ∈ answers) :
      Visits k script answers ⟨k, s, true⟩
  /-- The script is read to its end. -/
  | atEnd {answers : List (Option (Except SplitError Text))} {s : Scan}
      (hs : Scan.Reaches k (.start script) s) (hr : s.rest = []) :
      Visits k script answers (Statements.atEnd k s)

section Visits

variable {k : Tokens} {script : Text} {answers : List (Option (Except SplitError Text))}
  {it : Statements}

/-- A request leads from one such place to another. -/
theorem Visits.next (h : Visits k script answers it) :
    Visits k script (answers ++ [it.next.1]) it.next.2 := by
  cases h with
  | @between s hs hx ht ha =>
    have hp := pulls k s
    have hnext : (ofScan k s).next = ((ofScan k s).pull.value, (ofScan k s).pull.after) := rfl
    rw [hnext]
    -- a request between two statements ends in one of three ways, each at such a place
    generalize (ofScan k s).pull = answer at hp
    cases hp with
    | @closed ls r hr hc hne =>
      refine .between (hs.trans (Scan.reaches_of_reads hr)) ?_ ?_ (by simpa using ha)
      · simp [Scan.afterAll, Context.pass]
      · simp [Lexeme.onto]
    | @unterminated ls r hr hc hu =>
      exact .failed (hs.trans (Scan.reaches_of_reads hr)) hu (by simp)
    | @atEnd ls hr hc => exact .atEnd (hs.trans (Scan.reaches_of_reads hr)) rfl
  | @failed s hs hu ha =>
    -- nothing is answered any more
    rw [next_of_finished rfl]
    exact .failed hs hu (List.mem_append_left _ ha)
  | @atEnd s hs hr =>
    rw [next_of_finished rfl]
    exact .atEnd hs hr

/-- Something is answered only where no statement is begun. -/
theorem Visits.exists_between (h : Visits k script answers it) {a : Except SplitError Text}
    (ha : it.next.1 = some a) :
    ∃ s, Scan.Reaches k (.start script) s ∧ s.context = .clear ∧ s.statement = [] ∧
      it = ofScan k s := by
  have hended (hfin : it.finished = true) : False := by
    rw [next_of_finished hfin] at ha
    cases ha
  cases h with
  | @between s hs hx ht => exact ⟨s, hs, hx, ht, rfl⟩
  | failed => exact (hended rfl).elim
  | atEnd => exact (hended rfl).elim

theorem requests_succ (it : Statements) (n : Nat) :
    it.requests (n + 1) =
      ((it.requests n).1 ++ [(it.requests n).2.next.1], (it.requests n).2.next.2) := by
  induction n generalizing it with
  | zero => rfl
  | succ n ih => rw [requests, ih, requests]; rfl

/-- All requests lead to such places. -/
theorem visits_requests (k : Tokens) (script : Text) (n : Nat) :
    Visits k script ((ofTokens k script).requests n).1 ((ofTokens k script).requests n).2 := by
  induction n with
  | zero => exact .between .refl rfl rfl (by simp [requests])
  | succ n ih =>
    rw [requests_succ]
    exact ih.next

end Visits

end Statements

end SqlScript
