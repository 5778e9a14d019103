import SqlScript.Proofs.Delivery

/-!
# Splitting at a position

After requests that each gave a statement the script can be split at the position that was reached.
What is left goes on as if the script started there, with all positions counted from there
(`Statements.requests_shift`), and the text before the position is split into the statements that
were given, unless the token that starts a comment reaches past it (`split_at_position`).

Such a token can only be one that holds the separator and that reaches out of its own comment. A
line comment ends before a newline in the token that starts it, and a separator may follow in the
same token (`not_forall_split_before_position`).
-/

namespace SqlScript

/-! ### Counting from another place -/

/-- The error for a script that `p` bytes go before. -/
def SplitError.shift (p : Nat) : SplitError → SplitError
  | unterminated expected position => unterminated expected (p + position)

/-- The scan for a script that `p` bytes go before. -/
def Scan.shift (p : Nat) (s : Scan) : Scan := { s with position := p + s.position }

namespace Statements

/-- The statements of a script that `p` bytes go before. -/
def shift (p : Nat) (it : Statements) : Statements := { it with scan := it.scan.shift p }

/-- The answer for a script that `p` bytes go before. -/
def shiftAnswer (p : Nat) :
    Option (Except SplitError Text) → Option (Except SplitError Text) :=
  Option.map (Except.mapError (SplitError.shift p))

variable {k : Tokens} {s : Scan} {l : Lexeme} {p : Nat} {it : Statements}

theorem after_shift {r : Text} : (s.shift p).after l r = (s.after l r).shift p := by
  simp [Scan.after, Scan.shift, Scan.statement, Nat.add_assoc]

/-- A request is answered alike wherever the script starts. -/
theorem pull_shift :
    (ofScan k (s.shift p)).pull.value = shiftAnswer p (ofScan k s).pull.value ∧
      (ofScan k (s.shift p)).pull.after = (ofScan k s).pull.after.shift p := by
  have hst (s : Scan) : (s.shift p).statement = s.statement := rfl
  obtain ⟨ls, r, hls⟩ := exists_lexed k s.context s.rest
  -- both requests read the same lexemes, up to where they stop
  induction ls generalizing s with
  | nil =>
    have hr : s.rest = r := by simpa using hls.reads.text_append
    rcases hls.stops with hnil | hunclosed
    · rw [hnil] at hr
      rw [pull_of_rest_eq_nil hr, pull_of_rest_eq_nil (show (s.shift p).rest = [] from hr), hst]
      refine ⟨?_, rfl⟩
      by_cases hs : s.statement = []
      · rw [hs]
        rfl
      · rw [Lexeme.given_of_ne_nil hs]
        rfl
    · rw [Context.passAll_nil, ← hr] at hunclosed
      have hunclosed' : Unclosed k (s.shift p).context (s.shift p).rest := hunclosed
      rw [pull_of_unclosed hunclosed, pull_of_unclosed hunclosed']
      exact ⟨rfl, rfl⟩
  | cons l ls ih =>
    obtain ⟨hreads, hstops⟩ := hls
    cases hreads with
    | @cons _ _ t' _ _ _ hl hls =>
      have hl' : Lexes k (s.shift p).context (s.shift p).rest l t' := hl
      by_cases he : l.ended s.statement = []
      · rw [pull_of_lexes hl he, pull_of_lexes hl' he, after_shift]
        exact ih ⟨hls, hstops⟩
      · rw [pull_of_ended hl he, pull_of_ended hl' he, after_shift]
        exact ⟨rfl, rfl⟩

theorem next_shift : (it.shift p).next = (shiftAnswer p it.next.1, it.next.2.shift p) := by
  obtain ⟨k, s, finished⟩ := it
  cases finished with
  | true =>
    have hfin : (⟨k, s, true⟩ : Statements).finished = true := rfl
    have hfin' : ((⟨k, s, true⟩ : Statements).shift p).finished = true := rfl
    rw [next, next, pull_of_finished hfin, pull_of_finished hfin']
    rfl
  | false =>
    obtain ⟨hvalue, hafter⟩ := pull_shift (k := k) (s := s) (p := p)
    exact Prod.ext hvalue hafter

/-- Requests are answered alike wherever the script starts. -/
theorem requests_shift (n : Nat) :
    (it.shift p).requests n =
      ((it.requests n).1.map (shiftAnswer p), (it.requests n).2.shift p) := by
  induction n generalizing it with
  | zero => rfl
  | succ n ih => rw [requests, next_shift, ih, requests, List.map_cons]

/-- A script is split alike wherever it starts. -/
theorem value_drain_shift (script : Text) :
    ((ofTokens k script).shift p).drain.value =
      (splitTokens k script).mapError (SplitError.shift p) := by
  show (ofScan k ((Scan.start script).shift p)).drain.value = _
  obtain ⟨ls, r, h⟩ := exists_lexed k .clear script
  have h' : Lexed k ((Scan.start script).shift p).context ((Scan.start script).shift p).rest ls r :=
    h
  have hst : ((Scan.start script).shift p).statement = [] := rfl
  rw [splitTokens_of_lexed h, value_drain_of_lexed h', hst, Lexeme.closed_append_given_ontoAll,
    Lexeme.outcome]
  by_cases hr : r = []
  · rw [if_pos hr, if_pos hr]
    rfl
  · rw [if_neg hr, if_neg hr]
    rfl

end Statements

/-! ### Tokens that start comments -/

/-- The token that starts each comment that is passed over before byte `p` ends there at the
latest. -/
def OpenersBefore (k : Tokens) (script : Text) (p : Nat) : Prop :=
  ∀ s kind s', Scan.Reaches k (.start script) s → s.step k = .skipped kind s' →
    s'.position ≤ p → s.position + Text.byteLen (k.opener kind) ≤ p

section Openers

variable {k : Tokens} {x : Context} {t r : Text} {ls : List Lexeme}

/-- A text at the start of two others stands in the first one, or it goes on in the second one. -/
theorem Text.prefix_append_cases {u v w : Text} (h : u <+: v ++ w) :
    u <+: v ∨ ∃ m, m ≠ [] ∧ u = v ++ m ∧ m <+: w := by
  rcases List.prefix_or_prefix_of_prefix h (List.prefix_append v w) with huv | ⟨m, rfl⟩
  · exact Or.inl huv
  · cases m with
    | nil => exact Or.inl (by simp)
    | cons c m =>
      exact Or.inr ⟨c :: m, List.cons_ne_nil c m, rfl, (List.prefix_append_right_inj v).1 h⟩

/-- A text that starts like another one and is no longer starts the other one. -/
theorem Text.prefix_of_byteLen_le {u v w : Text} (h : u <+: v ++ w) (hle : byteLen u ≤ byteLen v) :
    u <+: v := by
  rcases prefix_append_cases h with huv | ⟨m, hm, rfl, -⟩
  · exact huv
  · have hpos := byteLen_pos hm
    rw [byteLen_append] at hle
    omega

theorem openersWithin_of_before {script : Text} {s : Scan}
    (hs : Scan.Reaches k (.start script) s) (h : Reads k s.context s.rest ls r)
    (ho : OpenersBefore k script (s.position + Text.byteLen (Lexeme.textOf ls))) :
    OpenersWithin k ls := by
  induction ls generalizing s with
  | nil => trivial
  | cons l ls ih =>
    have hrest := h.text_append
    cases h with
    | @cons _ _ t' _ _ _ hl hls =>
      have hlen : Text.byteLen (Lexeme.textOf (l :: ls)) =
          Text.byteLen l.text + Text.byteLen (Lexeme.textOf ls) := by simp
      constructor
      · rintro kind u rfl
        have hstep := Scan.step_of_lexes hl
        have hle := ho s kind _ hs hstep (by rw [Scan.position_after, hlen]; omega)
        have hpre := hl.opener_starts.2
        rw [hrest] at hpre
        exact Text.prefix_of_byteLen_le hpre (by omega)
      · refine ih (s := s.after l t') (hs.tail (Scan.scan?_step_of_lexes hl)) hls ?_
        rwa [Scan.position_after, Nat.add_assoc, ← hlen]

theorem suffix_textOf_of_last (hne : ls ≠ [])
    (hlast : ∀ l ∈ ls.getLast?, l = .separator k.separator) :
    k.separator <:+ Lexeme.textOf ls := by
  have hmem : ls.getLast hne ∈ ls.getLast? := List.getLast?_eq_some_getLast hne
  have hsplit := List.dropLast_concat_getLast hne
  rw [hlast _ hmem] at hsplit
  rw [← hsplit, Lexeme.textOf_append, Lexeme.textOf_cons, Lexeme.textOf_nil, List.append_nil]
  exact List.suffix_append _ k.separator

/-- Before a separator all tokens that start comments are read with their comments, if the separator
stands in none of them. -/
theorem openersWithin_of_last (h : Reads k x t ls r)
    (hlast : ∀ l ∈ ls.getLast?, l = .separator k.separator)
    (hl : ¬ k.separator <:+: k.lineComment) (ho : ¬ k.separator <:+: k.blockOpen) :
    OpenersWithin k ls := by
  have hk (kind : Comment) : ¬ k.separator <:+: k.opener kind := by
    cases kind with
    | line => exact hl
    | block => exact ho
  induction h with
  | nil => trivial
  | @cons x t t' r l ls hl hls ih =>
    have hlast' : ∀ l' ∈ ls.getLast?, l' = .separator k.separator := by
      intro l' hl'
      refine hlast l' ?_
      cases ls with
      | nil => cases hl'
      | cons m ls => rwa [List.getLast?_cons_cons]
    refine ⟨?_, ih hlast'⟩
    rintro kind u rfl
    have hpre := hl.opener_starts.2
    rw [(Reads.cons hl hls).text_append] at hpre
    rcases List.prefix_or_prefix_of_prefix hpre (List.prefix_append _ r) with hle | hge
    · exact hle
    · -- the token would hold the separator that ends the lexemes
      exfalso
      have hsuffix := suffix_textOf_of_last (List.cons_ne_nil _ ls) hlast
      exact hk kind (hsuffix.isInfix.trans hge.isInfix)

end Openers

/-! ### The split point -/

namespace Statements

variable {d : Delimiters} {script : Text} {ts : List Text} {it : Statements}

/-- The text before a separator is split into the statements that its lexemes close. -/
theorem split_textOf {ls : List Lexeme} {r : Text} (hr : Reads d.tokens .clear script ls r)
    (hc : Lexeme.closed [] ls ++ Lexeme.given (Lexeme.ontoAll [] ls) = ts)
    (ho : OpenersWithin d.tokens ls) : split d (Lexeme.textOf ls) = .ok ts := by
  have hcut := Reads.cut (r := []) (v := r) hr ho
  rw [List.append_nil] at hcut
  rw [← hc]
  exact splitTokens_of_reads hcut

/-- Behind a separator the script starts afresh. -/
theorem ofScan_afterAll_eq_shift (k : Tokens) (script r : Text) {ls : List Lexeme}
    (ho : Lexeme.ontoAll [] ls = []) (hx : Context.clear.passAll ls = .clear) :
    ofScan k ((Scan.start script).afterAll ls r) =
      (ofTokens k r).shift (Text.byteLen (Lexeme.textOf ls)) := by
  have hscan : (Scan.start script).afterAll ls r =
      (Scan.start r).shift (Text.byteLen (Lexeme.textOf ls)) := by
    simp [Scan.afterAll, Scan.shift, Scan.start, ho, hx, Scan.statement]
  rw [hscan]
  rfl

/-- A script without characters has no statements. -/
theorem requests_of_nil (k : Tokens) (n : Nat) :
    ((ofTokens k []).requests n).1 = List.replicate n none ∧
      ((ofTokens k []).requests n).2.position = 0 := by
  cases n with
  | zero => exact ⟨rfl, rfl⟩
  | succ n =>
    have hpull : (ofTokens k []).pull = ⟨none, [], atEnd k (.start [])⟩ :=
      pull_of_rest_eq_nil (s := .start []) rfl
    have hnext : (ofTokens k []).next = (none, atEnd k (.start [])) := by rw [next, hpull]
    have hfin : (atEnd k (.start [])).finished = true := rfl
    rw [requests, hnext, requests_of_finished hfin, List.replicate_succ]
    exact ⟨rfl, rfl⟩

/-- **The position is a split point**: after requests that each gave one of the statements `ts`, the
script is split at the position into what was given and what is still to come. -/
theorem split_at_position
    (h : (ofScript d script).requests ts.length = (answers ts, it)) :
    ∃ before rest, script = before ++ rest ∧ it.position = Text.byteLen before ∧
      (OpenersBefore d.tokens script it.position → split d before = .ok ts) ∧
      (¬ d.separator.val <:+: d.lineComment.val → ¬ d.separator.val <:+: d.blockOpen.val →
        split d before = .ok ts) ∧
      (∀ n,
        (it.requests n).1 = ((ofScript d rest).requests n).1.map (shiftAnswer it.position) ∧
        (it.requests n).2.position = it.position + ((ofScript d rest).requests n).2.position) ∧
      split d script =
        ((split d rest).mapError (SplitError.shift it.position)).map (ts ++ ·) := by
  have hd : Delivers d.tokens (.start script) ts it := delivers_of_requests rfl rfl h
  cases hd with
  | @between ls r hr hc ho hx hl =>
    -- the requests stopped behind a separator, and the scan is as at the start of what is left
    have hscript : script = Lexeme.textOf ls ++ r := hr.text_append
    have hts : Lexeme.closed [] ls ++ Lexeme.given (Lexeme.ontoAll [] ls) = ts := by
      have hc' : Lexeme.closed [] ls = ts := hc
      have ho' : Lexeme.ontoAll [] ls = [] := ho
      rw [hc', ho', Lexeme.given_nil, List.append_nil]
    have hleft := ofScan_afterAll_eq_shift d.tokens script r ho hx
    have hpos : ((ofTokens d.tokens r).shift (Text.byteLen (Lexeme.textOf ls))).position =
        Text.byteLen (Lexeme.textOf ls) := Nat.add_zero _
    refine ⟨Lexeme.textOf ls, r, hscript, ?_, ?_, ?_, ?_, ?_⟩
    · rw [hleft, hpos]
    · rw [hleft, hpos]
      intro hbefore
      refine split_textOf hr hts (openersWithin_of_before .refl hr ?_)
      rwa [show (Scan.start script).position = 0 from rfl, Nat.zero_add]
    · intro hline hopen
      exact split_textOf hr hts (openersWithin_of_last hr hl hline hopen)
    · intro n
      rw [hleft, hpos, requests_shift]
      exact ⟨rfl, rfl⟩
    · have hdrain : split d script =
          (ofScan d.tokens ((Scan.start script).afterAll ls r)).drain.value.map (ts ++ ·) := by
        have hall := congrArg Answer.value (drain_of_reads (s := .start script) hr)
        rwa [hc] at hall
      rw [hdrain, hleft, value_drain_shift, hpos]
      rfl
  | @atEnd ls hr hc =>
    -- the requests read the script to its end, and nothing is left
    have hscript : script = Lexeme.textOf ls := by
      have hall : script = Lexeme.textOf ls ++ [] := hr.text_append
      rwa [List.append_nil] at hall
    have hsplit : split d script = .ok ts := by
      rw [← hc]
      exact splitTokens_of_reads hr
    have hpos : (atEnd d.tokens ((Scan.start script).afterAll ls [])).position =
        Text.byteLen script := by
      rw [hscript]
      exact Nat.zero_add _
    have hfin : (atEnd d.tokens ((Scan.start script).afterAll ls [])).finished = true := rfl
    refine ⟨script, [], by simp, hpos, fun _ => hsplit, fun _ _ => hsplit, ?_, ?_⟩
    · intro n
      obtain ⟨hanswers, hzero⟩ := requests_of_nil d.tokens n
      rw [requests_of_finished hfin, show ofScript d [] = ofTokens d.tokens [] from rfl, hanswers,
        hzero, List.map_replicate]
      exact ⟨rfl, rfl⟩
    · have hnil : split d [] = .ok [] := splitTokens_of_reads .nil
      rw [hsplit, hnil]
      exact congrArg Except.ok (List.append_nil ts).symm

/-- Behind a comment and a first statement an error is still to come. -/
theorem split_at_position_of_unterminated :
    ∃ before rest, ['a', '/', '*', '*', '/', ';', 'b', '/', '*'] = before ++ rest ∧
      Text.byteLen before = 6 ∧ split .standard before = .ok [['a']] ∧
      split .standard ['a', '/', '*', '*', '/', ';', 'b', '/', '*'] =
        ((split .standard rest).mapError (SplitError.shift 6)).map ([['a']] ++ ·) := by
  obtain ⟨before, rest, hscript, hpos, -, hbefore, -, hsplit⟩ :=
    @split_at_position .standard ['a', '/', '*', '*', '/', ';', 'b', '/', '*'] [['a']] _
      (Prod.ext (by decide +kernel) rfl)
  have hsix : ((ofScript .standard ['a', '/', '*', '*', '/', ';', 'b', '/', '*']).requests
      [['a']].length).2.position = 6 := by decide +kernel
  rw [hsix] at hpos hsplit
  exact ⟨before, rest, hscript, hpos.symm, hbefore (by decide) (by decide), hsplit⟩

/-- The separator of these tokens stands in the token that starts line comments, behind a newline. A
comment ends at the newline, and the separator behind it ends a statement. -/
def newlineInComment : Delimiters where
  separator := Token.cons ';' []
  lineComment := Token.cons '-' ['\n', ';', 'x']
  blockOpen := Token.cons '/' ['*']
  blockClose := Token.cons '*' ['/']

/-- The text before a position is not always split into the statements that were given. -/
theorem not_forall_split_before_position :
    ¬ ∀ (d : Delimiters) (script before rest : Text) (ts : List Text) (it : Statements),
      (ofScript d script).requests ts.length = (answers ts, it) → script = before ++ rest →
        it.position = Text.byteLen before → split d before = .ok ts := by
  intro h
  have hgiven := h newlineInComment ['a', '-', '\n', ';', 'x', 'y', 'z'] ['a', '-', '\n', ';']
    ['x', 'y', 'z'] [['a', ' ']] _ (Prod.ext (by decide +kernel) rfl) rfl (by decide +kernel)
  exact absurd hgiven (by decide +kernel)

end Statements

end SqlScript
