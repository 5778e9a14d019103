import SqlScript.Proofs.Items

/-!
# The log of a run

The events of a run tell where statements end and comments are passed over. They come in the order
of the script: an event that names a place names the end of its lexeme, and lexemes are not empty
(`Lexeme.pairwise_stops`, `Lexeme.mem_stops`). Requests tell of the statements that they give, one
event for each (`Statements.lengths_drain`, `Statements.position_requests`), and only the last event
can tell how the run ended: with a statement that no separator closed (`trace_of_reads`), or with a
block comment that is never closed (`trace_of_unclosed`).

`faithfulLog_trace` puts this together.
-/

namespace SqlScript

namespace Event

/-- The length of the statement that the event tells of. -/
def length? : Event → Option Nat
  | closed _ length | ended length => some length
  | skipped _ _ | unterminated _ _ => none

/-- The place up to which the script was read, if the event tells it. -/
def stop? : Event → Option Nat
  | closed stop _ | skipped _ stop => some stop
  | unterminated _ _ | ended _ => none

/-- The place behind the separator that closed a statement. -/
def closedAt? : Event → Option Nat
  | closed stop _ => some stop
  | skipped _ _ | unterminated _ _ | ended _ => none

end Event

/-! ### The events at lexemes -/

namespace Lexeme

variable {k : Tokens} {x : Context} {t r : Text} {position : Nat} {out : Text} {l : Lexeme}
  {ls : List Lexeme} {e : Event}

/-- At lexemes statements are closed and comments passed over. -/
theorem mem_logAll (h : e ∈ logAll position out ls) :
    (∃ stop length, e = .closed stop length) ∨ ∃ kind stop, e = .skipped kind stop := by
  induction ls generalizing position out with
  | nil => cases h
  | cons l ls ih =>
    rcases List.mem_append.1 h with h | h
    · cases l with
      | separator token =>
        obtain ⟨t, -, rfl⟩ := List.mem_map.1 h
        exact Or.inl ⟨_, _, rfl⟩
      | comment kind u =>
        obtain rfl := List.mem_singleton.1 h
        exact Or.inr ⟨_, _, rfl⟩
      | copied c => cases h
      | blank c => cases h
    · exact ih h

theorem ended_notMem_logAll {length : Nat} : .ended length ∉ logAll position out ls := by
  intro h
  rcases mem_logAll h with ⟨_, _, he⟩ | ⟨_, _, he⟩ <;> cases he

theorem unterminated_notMem_logAll {p : Nat} {expected : Text} :
    .unterminated p expected ∉ logAll position out ls := by
  intro h
  rcases mem_logAll h with ⟨_, _, he⟩ | ⟨_, _, he⟩ <;> cases he

/-- The statements that lexemes close are told with their lengths. -/
theorem lengths_logAll (position : Nat) (out : Text) (ls : List Lexeme) :
    (logAll position out ls).filterMap Event.length? = (closed out ls).map Text.byteLen := by
  induction ls generalizing position out with
  | nil => rfl
  | cons l ls ih =>
    have hl : (l.log position out).filterMap Event.length? = (ended out l).map Text.byteLen := by
      cases l with
      | separator token =>
        show ((given out).map _).filterMap Event.length? = (given out).map Text.byteLen
        by_cases h : out = []
        · rw [h]
          rfl
        · rw [given_of_ne_nil h]
          rfl
      | comment kind u => rfl
      | copied c => rfl
      | blank c => rfl
    rw [logAll, closed_cons, List.filterMap_append, List.map_append, hl, ih]

theorem closedAt_logAll (h : closed out ls = []) :
    (logAll position out ls).filterMap Event.closedAt? = [] := by
  rw [List.filterMap_eq_nil_iff]
  intro e he
  rcases mem_logAll he with ⟨stop, length, rfl⟩ | ⟨kind, stop, rfl⟩
  · exact absurd he (closed_notMem_logAll h stop length)
  · rfl

/-- An event that tells a place tells where its lexeme ends. -/
theorem stops_log (position : Nat) (out : Text) (l : Lexeme) :
    (l.log position out).filterMap Event.stop? = [] ∨
      (l.log position out).filterMap Event.stop? = [position + Text.byteLen l.text] := by
  cases l with
  | separator token =>
    by_cases h : out = []
    · left
      rw [log, h]
      rfl
    · right
      rw [log, given_of_ne_nil h]
      rfl
  | comment kind u => exact Or.inr rfl
  | copied c => exact Or.inl rfl
  | blank c => exact Or.inl rfl

/-- The places that are told lie behind the start of the lexemes, and not behind their end. -/
theorem mem_stops (h : Reads k x t ls r) {p : Nat}
    (hp : p ∈ (logAll position out ls).filterMap Event.stop?) :
    position < p ∧ p ≤ position + Text.byteLen (textOf ls) := by
  induction h generalizing position out with
  | nil => cases hp
  | @cons x t t' r l ls hl hls ih =>
    have hpos := Text.byteLen_pos hl.text_ne_nil
    have hlen : Text.byteLen (textOf (l :: ls)) =
        Text.byteLen l.text + Text.byteLen (textOf ls) := by
      rw [textOf_cons, Text.byteLen_append]
    rw [logAll, List.filterMap_append, List.mem_append] at hp
    rcases hp with hp | hp
    · -- the place is the end of the first lexeme
      rcases stops_log position out l with hstop | hstop
      · rw [hstop] at hp
        cases hp
      · rw [hstop, List.mem_singleton] at hp
        omega
    · have hbounds := ih hp
      omega

/-- The places that are told follow each other. -/
theorem pairwise_stops (h : Reads k x t ls r) (position : Nat) (out : Text) :
    ((logAll position out ls).filterMap Event.stop?).Pairwise (· < ·) := by
  induction h generalizing position out with
  | nil => exact List.Pairwise.nil
  | @cons x t t' r l ls hl hls ih =>
    rw [logAll, List.filterMap_append, List.pairwise_append]
    refine ⟨?_, ih _ _, ?_⟩
    · rcases stops_log position out l with hstop | hstop
      · rw [hstop]
        exact List.Pairwise.nil
      · rw [hstop]
        exact List.pairwise_singleton _ _
    · -- what is told at the first lexeme is its end, and all others lie behind it
      intro p hp q hq
      have hlt := (mem_stops hls hq).1
      rcases stops_log position out l with hstop | hstop
      · rw [hstop] at hp
        cases hp
      · rw [hstop, List.mem_singleton] at hp
        omega

end Lexeme

/-! ### The events of requests -/

namespace Statements

variable {k : Tokens} {s : Scan} {it : Statements}
  {answer : Answer (Option (Except SplitError Text))}

/-- A request tells the length of the statement that it gives. -/
theorem Pulls.lengths (h : Pulls k s answer) :
    answer.events.filterMap Event.length? =
      (answer.value.toList.filterMap Except.toOption).map Text.byteLen := by
  cases h with
  | closed hr hc hne =>
    rw [Lexeme.lengths_logAll, Lexeme.closed_append, hc]
    simp [Lexeme.given_of_ne_nil hne, Except.toOption]
  | unterminated hr hc =>
    rw [List.filterMap_append, Lexeme.lengths_logAll, hc]
    rfl
  | @atEnd ls hr hc =>
    rw [List.filterMap_append, Lexeme.lengths_logAll, hc]
    by_cases hs : Lexeme.ontoAll s.statement ls = []
    · rw [hs]
      rfl
    · rw [Lexeme.given_of_ne_nil hs]
      rfl

/-- A request that leaves more to come tells where it ended. -/
theorem Pulls.closedAt (h : Pulls k s answer) :
    answer.events.filterMap Event.closedAt? =
      if answer.after.finished then [] else [answer.after.position] := by
  cases h with
  | @closed ls r hr hc hne =>
    rw [Lexeme.logAll_append, List.filterMap_append, Lexeme.closedAt_logAll hc]
    simp [Lexeme.logAll, Lexeme.log, Lexeme.given_of_ne_nil hne, Event.closedAt?, ofScan, position,
      Scan.afterAll, Lexeme.text, Nat.add_assoc]
  | unterminated hr hc =>
    rw [List.filterMap_append, Lexeme.closedAt_logAll hc]
    rfl
  | @atEnd ls hr hc =>
    rw [List.filterMap_append, Lexeme.closedAt_logAll hc, List.nil_append,
      List.filterMap_eq_nil_iff.2]
    · rfl
    · intro e he
      obtain ⟨t, -, rfl⟩ := List.mem_map.1 he
      rfl

theorem lengths_pull (it : Statements) :
    it.pull.events.filterMap Event.length? =
      (it.pull.value.toList.filterMap Except.toOption).map Text.byteLen := by
  obtain ⟨k, s, finished⟩ := it
  cases finished with
  | true => rw [pull_of_finished rfl]; rfl
  | false => exact (pulls k s).lengths

theorem closedAt_pull (it : Statements) :
    it.pull.events.filterMap Event.closedAt? =
      if it.pull.after.finished then [] else [it.pull.after.position] := by
  obtain ⟨k, s, finished⟩ := it
  cases finished with
  | true => rw [pull_of_finished rfl]; rfl
  | false => exact (pulls k s).closedAt

/-- The events of a run are those of a request and of the run behind it. -/
theorem events_drain (it : Statements) :
    it.drain.events = it.pull.events ++ it.pull.after.drain.events := by
  rw [drain_eq it]
  cases h : it.pull.value with
  | none => rw [drain_of_finished (finished_pull_of_none h), List.append_nil]
  | some a =>
    cases a with
    | error e => rw [drain_of_finished (finished_pull_of_error h), List.append_nil]
    | ok t => rfl

/-- A run tells the lengths of the statements that it gives. -/
theorem lengths_drain (it : Statements) :
    it.drain.events.filterMap Event.length? =
      (it.items.filterMap Except.toOption).map Text.byteLen := by
  fun_induction items it with
  | case1 it h =>
    rw [events_drain, drain_of_finished (finished_pull_of_none h), List.append_nil, lengths_pull, h]
    rfl
  | case2 it e h =>
    rw [events_drain, drain_of_finished (finished_pull_of_error h), List.append_nil, lengths_pull,
      h]
    rfl
  | case3 it t h ih =>
    rw [events_drain, List.filterMap_append, lengths_pull, h, ih]
    rfl

/-- A run tells where the requests end that leave more to come. -/
theorem position_requests {n p : Nat}
    (h : (it.drain.events.filterMap Event.closedAt?)[n]? = some p) :
    (it.requests (n + 1)).2.position = p := by
  -- a request tells one such place, unless it is the last one
  induction n generalizing it with
  | zero =>
    rw [events_drain, List.filterMap_append, closedAt_pull] at h
    by_cases hfin : it.pull.after.finished = true
    · rw [if_pos hfin, drain_of_finished hfin] at h
      cases h
    · rw [if_neg hfin] at h
      exact Option.some.inj h
  | succ n ih =>
    rw [events_drain, List.filterMap_append, closedAt_pull] at h
    by_cases hfin : it.pull.after.finished = true
    · rw [if_pos hfin, drain_of_finished hfin] at h
      cases h
    · rw [if_neg hfin] at h
      exact ih h

end Statements

/-! ### The log of a script -/

/-- The events tell faithfully of the run on a script that comes to `outcome`. -/
structure FaithfulLog (d : Delimiters) (script : Text) (outcome : Except SplitError (List Text))
    (events : List Event) : Prop where
  /-- The run comes to the split of the script. -/
  outcome : outcome = split d script
  /-- The lengths are those of the statements that requests give, also before an error. -/
  lengths : events.filterMap Event.length? =
    ((Statements.ofScript d script).items.filterMap Except.toOption).map Text.byteLen
  /-- The event of the `n`-th separator that closes a statement tells the position behind it. -/
  closedAt : ∀ n p, (events.filterMap Event.closedAt?)[n]? = some p →
    ((Statements.ofScript d script).requests (n + 1)).2.position = p
  /-- The places that are told follow each other. -/
  increasing : (events.filterMap Event.stop?).Pairwise (· < ·)
  /-- They lie behind the first character, and in the script. -/
  inside : ∀ p ∈ events.filterMap Event.stop?, 1 ≤ p ∧ p ≤ Text.byteLen script
  /-- That the end of the script closed a statement is told once, as the last event of a run
  without an error. -/
  ended_last : ∀ length, .ended length ∈ events →
    ∃ es ts, events = es ++ [.ended length] ∧ (∀ n, .ended n ∉ es) ∧ split d script = .ok ts
  /-- It is told if the script is read to its end, and a statement is left over behind the last
  separator. -/
  ended_iff : ∀ length, .ended length ∈ events ↔
    ∃ ls, Reads d.tokens .clear script ls [] ∧ Lexeme.ontoAll [] ls ≠ [] ∧
      length = Text.byteLen (Lexeme.ontoAll [] ls)
  /-- An error is told once, as the last event. -/
  unterminated_last : ∀ p expected, .unterminated p expected ∈ events →
    ∃ es, events = es ++ [.unterminated p expected] ∧ ∀ q u, .unterminated q u ∉ es
  /-- It is told with its place and the token that is missing. -/
  unterminated_iff : ∀ p expected, .unterminated p expected ∈ events ↔
    split d script = .error (.unterminated expected p)

section Trace

variable {d : Delimiters} {script r : Text} {ls : List Lexeme}

/-- The events of a run that reads the script to its end. -/
theorem trace_of_reads (h : Reads d.tokens .clear script ls []) :
    trace d script = (.ok (Lexeme.closed [] ls ++ Lexeme.given (Lexeme.ontoAll [] ls)),
      Lexeme.logAll 0 [] ls ++
        (Lexeme.given (Lexeme.ontoAll [] ls)).map fun t => .ended (Text.byteLen t)) := by
  have hdrain := Statements.drain_of_reads_nil (s := .start script) h
  exact congrArg (fun answer => (answer.value, answer.events)) hdrain

/-- The events of a run up to a block comment that is never closed. -/
theorem trace_of_unclosed (h : Reads d.tokens .clear script ls r)
    (hu : Unclosed d.tokens (Context.clear.passAll ls) r) :
    trace d script =
      (.error (.unterminated d.blockClose (Text.byteLen (Lexeme.textOf ls))),
        Lexeme.logAll 0 [] ls ++
          [.unterminated (Text.byteLen (Lexeme.textOf ls)) d.blockClose]) := by
  have hdrain := Statements.drain_of_reads_unclosed (s := .start script) h hu
  rw [Scan.position_start_afterAll] at hdrain
  exact congrArg (fun answer => (answer.value, answer.events)) hdrain

/-- Only lexemes tell places. -/
theorem exists_stops_trace (d : Delimiters) (script : Text) :
    ∃ ls r, Reads d.tokens .clear script ls r ∧
      (trace d script).2.filterMap Event.stop? =
        (Lexeme.logAll 0 [] ls).filterMap Event.stop? := by
  obtain ⟨ls, r, hls⟩ := exists_lexed d.tokens .clear script
  refine ⟨ls, r, hls.reads, ?_⟩
  rcases hls.stops with rfl | hu
  · rw [trace_of_reads hls.reads, List.filterMap_append]
    by_cases hout : Lexeme.ontoAll [] ls = []
    · rw [hout]
      exact List.append_nil _
    · rw [Lexeme.given_of_ne_nil hout]
      exact List.append_nil _
  · rw [trace_of_unclosed hls.reads hu, List.filterMap_append]
    exact List.append_nil _

/-- The events of a run that leaves a statement over at the end of the script. -/
theorem events_of_left_over (h : Reads d.tokens .clear script ls [])
    (hne : Lexeme.ontoAll [] ls ≠ []) :
    (trace d script).2 =
      Lexeme.logAll 0 [] ls ++ [.ended (Text.byteLen (Lexeme.ontoAll [] ls))] := by
  rw [trace_of_reads h, Lexeme.given_of_ne_nil hne]
  rfl

/-- An event for a left-over statement tells of a script that was read to its end. -/
theorem left_over_of_ended {length : Nat} (h : .ended length ∈ (trace d script).2) :
    ∃ ls, Reads d.tokens .clear script ls [] ∧ Lexeme.ontoAll [] ls ≠ [] ∧
      length = Text.byteLen (Lexeme.ontoAll [] ls) := by
  obtain ⟨ls, r, hls⟩ := exists_lexed d.tokens .clear script
  rcases hls.stops with rfl | hu
  · rw [trace_of_reads hls.reads, List.mem_append] at h
    rcases h with h | h
    · exact absurd h Lexeme.ended_notMem_logAll
    · by_cases hout : Lexeme.ontoAll [] ls = []
      · rw [hout] at h
        cases h
      · rw [Lexeme.given_of_ne_nil hout, List.map_singleton, List.mem_singleton] at h
        exact ⟨ls, hls.reads, hout, Event.ended.inj h⟩
  · rw [trace_of_unclosed hls.reads hu, List.mem_append] at h
    rcases h with h | h
    · exact absurd h Lexeme.ended_notMem_logAll
    · cases List.mem_singleton.1 h

/-- An event for an error tells of a block comment that is never closed. -/
theorem unclosed_of_unterminated {p : Nat} {expected : Text}
    (h : .unterminated p expected ∈ (trace d script).2) :
    ∃ ls r, Reads d.tokens .clear script ls r ∧
      Unclosed d.tokens (Context.clear.passAll ls) r ∧
      p = Text.byteLen (Lexeme.textOf ls) ∧ expected = d.blockClose := by
  obtain ⟨ls, r, hls⟩ := exists_lexed d.tokens .clear script
  rcases hls.stops with rfl | hu
  · rw [trace_of_reads hls.reads, List.mem_append] at h
    rcases h with h | h
    · exact absurd h Lexeme.unterminated_notMem_logAll
    · obtain ⟨t, -, ht⟩ := List.mem_map.1 h
      cases ht
  · rw [trace_of_unclosed hls.reads hu, List.mem_append] at h
    rcases h with h | h
    · exact absurd h Lexeme.unterminated_notMem_logAll
    · obtain ⟨rfl, rfl⟩ := Event.unterminated.inj (List.mem_singleton.1 h)
      exact ⟨ls, r, hls.reads, hu, rfl, rfl⟩

theorem unterminated_of_split {p : Nat} {expected : Text}
    (h : split d script = .error (.unterminated expected p)) :
    .unterminated p expected ∈ (trace d script).2 := by
  have hvalue : (trace d script).1 = .error (.unterminated expected p) := h
  obtain ⟨ls, r, hls⟩ := exists_lexed d.tokens .clear script
  rcases hls.stops with rfl | hu
  · rw [trace_of_reads hls.reads] at hvalue
    cases hvalue
  · rw [trace_of_unclosed hls.reads hu] at hvalue ⊢
    obtain ⟨rfl, rfl⟩ := SplitError.unterminated.inj (Except.error.inj hvalue)
    exact List.mem_append_right _ List.mem_cons_self

/-- **The log is faithful**: for every script it tells the statements, the comments and the error in
their order and at their places. -/
theorem faithfulLog_trace (d : Delimiters) (script : Text) :
    FaithfulLog d script (trace d script).1 (trace d script).2 where
  outcome := rfl
  lengths := Statements.lengths_drain (Statements.ofScript d script)
  closedAt n p h := Statements.position_requests h
  increasing := by
    obtain ⟨ls, r, hreads, hstops⟩ := exists_stops_trace d script
    rw [hstops]
    exact Lexeme.pairwise_stops hreads 0 []
  inside := by
    obtain ⟨ls, r, hreads, hstops⟩ := exists_stops_trace d script
    intro p hp
    rw [hstops] at hp
    have hbounds := Lexeme.mem_stops hreads hp
    have hlen := congrArg Text.byteLen hreads.text_append
    rw [Text.byteLen_append] at hlen
    omega
  ended_last length h := by
    -- only one such event follows the events at lexemes, and none is among them
    obtain ⟨ls, hreads, hne, rfl⟩ := left_over_of_ended h
    have hsplit : split d script = .ok _ := congrArg Prod.fst (trace_of_reads hreads)
    exact ⟨Lexeme.logAll 0 [] ls, _, events_of_left_over hreads hne,
      fun n => Lexeme.ended_notMem_logAll, hsplit⟩
  ended_iff length := by
    refine ⟨left_over_of_ended, ?_⟩
    rintro ⟨ls, hreads, hne, rfl⟩
    rw [events_of_left_over hreads hne]
    exact List.mem_append_right _ List.mem_cons_self
  unterminated_last p expected h := by
    obtain ⟨ls, r, hreads, hu, rfl, rfl⟩ := unclosed_of_unterminated h
    refine ⟨Lexeme.logAll 0 [] ls, ?_, fun q u => Lexeme.unterminated_notMem_logAll⟩
    exact congrArg Prod.snd (trace_of_unclosed hreads hu)
  unterminated_iff p expected := by
    refine ⟨?_, unterminated_of_split⟩
    intro h
    obtain ⟨ls, r, hreads, hu, rfl, rfl⟩ := unclosed_of_unterminated h
    exact congrArg Prod.fst (trace_of_unclosed hreads hu)

/-- The second separator closes nothing and is not told. -/
example :
    (trace .standard ['a', ';', ';', '-', '-', '\n', 'b', '/', '*']).2 =
      [.closed 2 1, .skipped .line 5, .unterminated 7 ['*', '/']] := by
  decide +kernel

end Trace

end SqlScript
