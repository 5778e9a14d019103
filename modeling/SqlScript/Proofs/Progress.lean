import Mathlib.Data.List.Chain
import SqlScript.Proofs.Course

/-!
# Progress

A scan reads forward and comes to an end, whatever the tokens are, empty ones included.

* `Scan.Inside`: wherever the scan of a script stands, its position is the offset of a character or
  the end, and a step leads to a later one;
* `Scan.length_le_of_isChain`: there are no more steps than characters;
* `Statements.Inside`: a request that gives a statement moves the position forward, an error leaves
  it at its comment, and otherwise requests lead to the end of the script;
* `Statements.inside_of_requests`: all this holds wherever steps and requests lead, and more
  requests than there are characters lead to the end.
-/

namespace SqlScript

namespace Scan

/-- The scan `s` stands in `script`, and a step from there stays in it. -/
structure Inside (k : Tokens) (script : Text) (s : Scan) : Prop where
  /-- What is left is the script from the position on. -/
  fromByte? : Text.fromByte? s.position script = some s.rest
  /-- The position is not past the end. -/
  le : s.position ≤ Text.byteLen script
  /-- The script can be entered behind the next character as well. -/
  behind : ∀ c t, s.rest = c :: t → Text.fromByte? (s.position + c.utf8Size) script = some t
  /-- A step that goes on leads forward, and not past the end. -/
  step : ∀ s', (s.step k).scan? = some s' →
    s.position < s'.position ∧ s'.position ≤ Text.byteLen script
  /-- A step gives up where a block comment starts. -/
  failed : s.step k = .unterminated → k.blockOpen.Starts s.rest
  /-- A step ends the scan at the end of the script. -/
  finished : s.step k = .finished → s.position = Text.byteLen script

variable {k : Tokens} {s s' : Scan} {script : Text}

/-- What was read and what is left make up the script. -/
theorem exists_append_of_reaches (h : Reaches k (.start script) s) :
    ∃ before, script = before ++ s.rest ∧ s.position = Text.byteLen before := by
  obtain ⟨ls, hls, hs⟩ := reads_of_reaches h
  refine ⟨Lexeme.textOf ls, hls.text_append, ?_⟩
  calc s.position = ((start script).afterAll ls s.rest).position := congrArg position hs
    _ = Text.byteLen (Lexeme.textOf ls) := position_start_afterAll

/-- Wherever steps lead, the scan stands in the script. -/
theorem inside_of_reaches (h : Reaches k (.start script) s) : s.Inside k script := by
  obtain ⟨before, hscript, hpos⟩ := exists_append_of_reaches h
  have hlen : Text.byteLen script = s.position + Text.byteLen s.rest := by
    rw [hpos, ← Text.byteLen_append, ← hscript]
  refine ⟨?_, by omega, ?_, ?_, ?_, ?_⟩
  · rw [hpos, hscript]
    exact Text.fromByte?_byteLen_append before s.rest
  · intro c t hrest
    have hscript' : script = (before ++ [c]) ++ t := by rw [hscript, hrest]; simp
    have hpos' : s.position + c.utf8Size = Text.byteLen (before ++ [c]) := by
      rw [Text.byteLen_append, hpos]
      simp
    rw [hpos', hscript']
    exact Text.fromByte?_byteLen_append (before ++ [c]) t
  · -- a step that goes on takes a lexeme, and lexemes are not empty
    intro s' hs'
    obtain ⟨l, hl, hafter⟩ := exists_lexes_of_scan?_step hs'
    have hrest := congrArg Text.byteLen hl.text_append
    have hlexeme := Text.byteLen_pos hl.text_ne_nil
    have hpos' : s'.position = s.position + Text.byteLen l.text := congrArg position hafter
    rw [Text.byteLen_append] at hrest
    omega
  · intro hstep
    exact (unclosed_of_step hstep).blockOpen_starts
  · intro hstep
    rw [hlen, rest_eq_nil_of_step hstep]
    rfl

/-- There are no more steps than characters, since each step takes some. -/
theorem length_le_of_isChain {scans : List Scan}
    (h : List.IsChain (fun s s' => (s.step k).scan? = some s') (s :: scans)) :
    scans.length ≤ s.rest.length := by
  induction scans generalizing s with
  | nil => exact Nat.zero_le _
  | cons s' scans ih =>
    obtain ⟨hstep, hchain⟩ := List.isChain_cons_cons.1 h
    have hlt := length_rest_lt_of_step hstep
    have hle := ih hchain
    rw [List.length_cons]
    omega

end Scan

namespace Statements

/-- After these answers the statements that are left stand in `script`, and a request leads on. -/
structure Inside (k : Tokens) (script : Text) (answers : List (Option (Except SplitError Text)))
    (it : Statements) : Prop where
  /-- What is left is the script from the position on. -/
  fromByte? : Text.fromByte? it.position script = some it.scan.rest
  /-- The position is not past the end. -/
  le : it.position ≤ Text.byteLen script
  /-- A request that gives a statement leads forward. -/
  given : ∀ t, it.next.1 = some (.ok t) → it.position < it.next.2.position
  /-- A request that gives an error leads to the place where the block comment starts. -/
  failed : ∀ e, it.next.1 = some (.error e) →
    ∃ r, e = .unterminated k.blockClose it.next.2.position ∧
      Text.fromByte? it.next.2.position script = some r ∧ k.blockOpen.Starts r
  /-- The end is reached if there was no error. -/
  ended : it.finished = true ∨ none ∈ answers → (∀ e, some (.error e) ∉ answers) →
    it.position = Text.byteLen script

variable {k : Tokens} {s : Scan} {script : Text} {answers : List (Option (Except SplitError Text))}
  {answer : Answer (Option (Except SplitError Text))} {it : Statements}

/-- A request that gives a statement has read something, if no statement was begun before it. -/
theorem Pulls.position_lt (h : Pulls k s answer) (hs : s.statement = []) {t : Text}
    (ht : answer.value = some (.ok t)) : s.position < answer.after.position := by
  have hread {ls : List Lexeme} {r : Text} (hr : Reads k s.context s.rest ls r) (hne : ls ≠ []) :
      s.position < (s.afterAll ls r).position :=
    Nat.lt_add_of_pos_right (Text.byteLen_pos (hr.textOf_ne_nil hne))
  cases h with
  | closed hr => exact hread hr (by simp)
  | unterminated => cases ht
  | atEnd hr =>
    -- without lexemes no statement would be left over
    refine hread hr ?_
    rintro rfl
    rw [Lexeme.ontoAll_nil, hs] at ht
    cases ht

/-- A request that gives an error stops where a block comment starts. -/
theorem Pulls.exists_failed (h : Pulls k s answer) {e : SplitError}
    (he : answer.value = some (.error e)) :
    ∃ s', Scan.Reaches k s s' ∧ answer.after = ⟨k, s', true⟩ ∧
      e = .unterminated k.blockClose s'.position ∧ Unclosed k s'.context s'.rest := by
  cases h with
  | closed => cases he
  | @unterminated ls r hr _ hu =>
    refine ⟨s.afterAll ls r, Scan.reaches_of_reads hr, rfl, ?_, hu⟩
    simpa [eq_comm] using he
  | @atEnd ls =>
    cases hg : Lexeme.given (Lexeme.ontoAll s.statement ls) <;> simp [hg] at he

theorem Visits.exists_reaches (h : Visits k script answers it) :
    ∃ s, Scan.Reaches k (.start script) s ∧ it.position = s.position ∧ it.scan.rest = s.rest := by
  cases h with
  | @between s hs => exact ⟨s, hs, rfl, rfl⟩
  | @failed s hs => exact ⟨s, hs, rfl, rfl⟩
  | @atEnd s hs => exact ⟨s, hs, rfl, rfl⟩

/-- Wherever requests lead, what is left stands in the script. -/
theorem Visits.inside (h : Visits k script answers it) : Inside k script answers it := by
  obtain ⟨s, hs, hpos, hrest⟩ := h.exists_reaches
  have hinside := Scan.inside_of_reaches hs
  refine ⟨by rw [hpos, hrest]; exact hinside.fromByte?, by rw [hpos]; exact hinside.le, ?_, ?_, ?_⟩
  · intro t ht
    obtain ⟨s, -, -, hst, rfl⟩ := h.exists_between ht
    exact (pulls k s).position_lt hst ht
  · intro e he
    obtain ⟨s, hs, -, -, rfl⟩ := h.exists_between he
    obtain ⟨s', hs', hafter, rfl, hu⟩ := (pulls k s).exists_failed he
    have hnext : (ofScan k s).next.2 = ⟨k, s', true⟩ := hafter
    rw [hnext]
    exact ⟨s'.rest, rfl, (Scan.inside_of_reaches (hs.trans hs')).fromByte?, hu.blockOpen_starts⟩
  · -- the end was reached, since nothing was answered and there was no error
    intro hend hok
    cases h with
    | between _ _ _ ha =>
      rcases hend with hfin | hnone
      · cases hfin
      · exact absurd hnone ha
    | failed _ _ ha => exact absurd ha (hok _)
    | @atEnd s₀ hs₀ hr =>
      exact (Scan.inside_of_reaches hs₀).finished (Scan.step_of_rest_eq_nil hr)

/-- A request ends the iteration, or leaves less to come. -/
theorem Visits.finished_or_remaining_lt (h : Visits k script answers it) :
    it.next.2.finished = true ∨ it.next.2.remaining < it.remaining := by
  by_cases hfin : it.finished = true
  · rw [next_of_finished hfin]
    exact Or.inl hfin
  · cases h with
    | @between s =>
      have hp := pulls k s
      have hlt := @remaining_lt_of_pull (ofScan k s)
      rw [show (ofScan k s).next.2 = (ofScan k s).pull.after from rfl]
      generalize (ofScan k s).pull = answer at hp hlt
      cases hp with
      | closed => exact Or.inr (hlt rfl)
      | unterminated => exact Or.inl rfl
      | atEnd => exact Or.inl rfl
    | failed => exact absurd rfl hfin
    | atEnd => exact absurd rfl hfin

/-- Requests come to an end. -/
theorem finished_or_remaining_le (k : Tokens) (script : Text) (n : Nat) :
    ((ofTokens k script).requests n).2.finished = true ∨
      n + ((ofTokens k script).requests n).2.remaining ≤ script.length + 1 := by
  induction n with
  | zero => exact Or.inr (Nat.le_of_eq (Nat.zero_add _))
  | succ n ih =>
    rw [requests_succ]
    dsimp only
    rcases ih with hfin | hle
    · rw [next_of_finished hfin]
      exact Or.inl hfin
    · rcases (visits_requests k script n).finished_or_remaining_lt with hfin | hlt
      · exact Or.inl hfin
      · exact Or.inr (by omega)

/-- **Progress**: for any four tokens and any script, steps and requests lead forward and never past
the end of the script. There are no more steps than characters, and more requests than characters
lead to the end or to an error. -/
theorem inside_of_requests (k : Tokens) (script : Text) :
    (∀ s, Scan.Reaches k (.start script) s → s.Inside k script) ∧
      (∀ scans : List Scan,
        List.IsChain (fun s s' => (s.step k).scan? = some s') (.start script :: scans) →
          scans.length ≤ script.length) ∧
      (∀ n, Inside k script ((ofTokens k script).requests n).1
        ((ofTokens k script).requests n).2) ∧
      ∀ n, script.length < n → ((ofTokens k script).requests n).2.finished = true := by
  refine ⟨fun s hs => Scan.inside_of_reaches hs, fun scans h => Scan.length_le_of_isChain h,
    fun n => (visits_requests k script n).inside, ?_⟩
  intro n hn
  rcases finished_or_remaining_le k script n with hfin | hle
  · exact hfin
  · by_contra hfin
    rw [remaining, if_neg hfin] at hle
    omega

/-- The first request leads behind the separator, the next one to the comment that has no end. -/
theorem inside_of_requests_of_unterminated :
    0 < (ofTokens Delimiters.standard.tokens ['é', ';', '/', '*', 'é']).next.2.position ∧
      (∃ r, Text.fromByte? 3 ['é', ';', '/', '*', 'é'] = some r ∧
        Delimiters.standard.tokens.blockOpen.Starts r) ∧
      ((ofTokens Delimiters.standard.tokens ['é', ';', '/', '*', 'é']).requests 6).2.finished =
        true := by
  obtain ⟨-, -, hinside, hend⟩ :=
    inside_of_requests Delimiters.standard.tokens ['é', ';', '/', '*', 'é']
  refine ⟨(hinside 0).given ['é'] (by decide +kernel), ?_, hend 6 (by decide)⟩
  obtain ⟨r, he, hr, hopen⟩ :=
    (hinside 1).failed (.unterminated ['*', '/'] 3) (by decide +kernel)
  rw [← (SplitError.unterminated.inj he).2] at hr
  exact ⟨r, hr, hopen⟩

end Statements

end SqlScript
