import Mathlib.Control.Monad.Basic
import SqlScript.Proofs.TwoPhases

/-!
# What requests hand out

`Statements.requests n` asks `n` times for a statement. When each of these requests gives one, the
lexemes that were read come to these statements (`Delivers`), and what is left starts afresh: either
right behind a separator, outside of quotations and with no statement begun, or after the end of the
script (`delivers_of_requests`).
-/

namespace SqlScript

namespace Statements

/-- The answers to `n` requests, and what is left after them. -/
def requests (it : Statements) : Nat → List (Option (Except SplitError Text)) × Statements
  | 0 => ([], it)
  | n + 1 => (it.next.1 :: (it.next.2.requests n).1, (it.next.2.requests n).2)

/-- The answers of requests that each give one of these statements. -/
def answers (ts : List Text) : List (Option (Except SplitError Text)) :=
  ts.map fun t => some (.ok t)

/-- Where the scan `s` stands the statements `ts` are handed out first, and these are left. -/
inductive Delivers (k : Tokens) (s : Scan) (ts : List Text) : Statements → Prop
  /-- The reading goes on afresh behind a separator, or where it started. -/
  | between {ls : List Lexeme} {r : Text} (hr : Reads k s.context s.rest ls r)
      (hc : Lexeme.closed s.statement ls = ts) (ho : Lexeme.ontoAll s.statement ls = [])
      (hx : s.context.passAll ls = .clear) (hl : ∀ l ∈ ls.getLast?, l = .separator k.separator) :
      Delivers k s ts (ofScan k (s.afterAll ls r))
  /-- The script is read to its end. -/
  | atEnd {ls : List Lexeme} (hr : Reads k s.context s.rest ls [])
      (hc : Lexeme.closed s.statement ls ++ Lexeme.given (Lexeme.ontoAll s.statement ls) = ts) :
      Delivers k s ts (atEnd k (s.afterAll ls []))

variable {k : Tokens} {s : Scan} {l : Lexeme} {t : Text} {ts us : List Text} {it : Statements}

/-! ### After the end -/

theorem requests_of_finished (h : it.finished = true) (n : Nat) :
    it.requests n = (List.replicate n none, it) := by
  induction n with
  | zero => rfl
  | succ n ih => rw [requests, next_of_finished h, ih, List.replicate_succ]

/-! ### Statement after statement -/

/-- What a request gives is handed out. -/
theorem Pulls.delivers {answer : Answer (Option (Except SplitError Text))} (h : Pulls k s answer)
    (ht : answer.value = some (.ok t)) : Delivers k s [t] answer.after := by
  cases h with
  | @closed ls r hr hc hne =>
    obtain rfl : Lexeme.ontoAll s.statement ls = t := by simpa using ht
    refine .between hr ?_ ?_ ?_ (by simp)
    · simp [hc, Lexeme.given_of_ne_nil hne]
    · simp [Lexeme.onto]
    · simp [Context.pass]
  | unterminated => cases ht
  | @atEnd ls hr hc =>
    refine .atEnd hr ?_
    rw [hc, List.nil_append]
    exact (Lexeme.given_eq_of_head? (by simpa using ht)).1

/-- What is handed out later comes after what is handed out first. -/
theorem Delivers.append {s' : Scan} (h : Delivers k s ts (ofScan k s'))
    (h' : Delivers k s' us it) : Delivers k s (ts ++ us) it := by
  generalize hit : ofScan k s' = it' at h
  cases h with
  | @between ls r hr hc ho hx hl =>
    -- the later requests start behind the last separator
    obtain rfl : s' = s.afterAll ls r := by
      simpa [ofScan] using hit
    cases h' with
    | @between ms r' hr' hc' ho' hx' hl' =>
      rw [Scan.statement_afterAll] at hc' ho'
      rw [Scan.afterAll_afterAll]
      refine .between (hr.append hr') ?_ ?_ ?_ ?_
      · rw [Lexeme.closed_append, hc, hc']
      · rw [Lexeme.ontoAll_append, ho']
      · rw [Context.passAll_append]
        exact hx'
      · intro l hlast
        rw [List.getLast?_append] at hlast
        cases hms : ms.getLast? with
        | none => exact hl l (by simpa [hms] using hlast)
        | some m => exact hl' l (by simpa [hms] using hlast)
    | @atEnd ms hr' hc' =>
      rw [Scan.statement_afterAll] at hc'
      rw [Scan.afterAll_afterAll]
      refine .atEnd (hr.append hr') ?_
      rw [Lexeme.closed_append, Lexeme.ontoAll_append, List.append_assoc, hc, hc']
  | atEnd => cases hit

/-- The statements that requests give are handed out. -/
theorem delivers_of_requests (hs : s.statement = []) (hx : s.context = .clear)
    (h : (ofScan k s).requests ts.length = (answers ts, it)) : Delivers k s ts it := by
  induction ts generalizing s with
  | nil =>
    obtain rfl : ofScan k s = it := by simpa [requests] using congrArg Prod.snd h
    have hd : Delivers k s [] (ofScan k (s.afterAll [] s.rest)) :=
      .between .nil rfl hs hx (by simp)
    rwa [Scan.afterAll_nil] at hd
  | cons t ts ih =>
    obtain ⟨⟨hvalue, hanswers⟩, hit⟩ : ((ofScan k s).next.1 = some (.ok t) ∧
        ((ofScan k s).next.2.requests ts.length).1 = answers ts) ∧
        ((ofScan k s).next.2.requests ts.length).2 = it := by
      simpa [requests, answers] using h
    have hd := (pulls k s).delivers hvalue
    have hnext : (ofScan k s).next.2 = (ofScan k s).pull.after := rfl
    rw [hnext] at hanswers hit
    generalize (ofScan k s).pull.after = it' at hd hanswers hit
    cases hd with
    | @between ls r hr hc ho hx' hl =>
      have hd' := ih (s := s.afterAll ls r) (by rw [Scan.statement_afterAll, ho]) hx'
        (Prod.ext hanswers hit)
      exact Delivers.append (.between hr hc ho hx' hl) hd'
    | @atEnd ls hr hc =>
      -- after the end nothing is given
      have hfin : (atEnd k (s.afterAll ls [])).finished = true := rfl
      rw [requests_of_finished hfin] at hanswers hit
      cases ts with
      | nil =>
        subst hit
        exact .atEnd hr hc
      | cons u us => cases hanswers

end Statements

end SqlScript
