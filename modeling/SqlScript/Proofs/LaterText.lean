import SqlScript.Proofs.Append
import SqlScript.Proofs.Course

/-!
# Text that follows

A statement that a separator ended stays as it is, whatever text follows that separator. A token
could reach past the separator only from a place before it, and then it would hold the separator;
if the tokens that start comments do not hold it, the lexemes up to the separator are read before
any other text as well (`Reads.replace`).

* `Statements.next_replace`: a request that gave such a statement is answered alike before any other
  text, and leaves nothing open (`Scan.fresh`);
* `Statements.requests_append`: so are all requests up to the last separator.
-/

namespace SqlScript

/-! ### Lexemes before another text -/

section Replace

variable {k : Tokens} {x : Context} {t r : Text} {ls : List Lexeme}

/-- No token reaches past a separator at the end of `t`, unless a token that starts comments holds
the separator. -/
theorem Tokens.startWithin_of_suffix (hline : ¬ k.separator <:+: k.lineComment)
    (hopen : ¬ k.separator <:+: k.blockOpen) (ht : k.separator <:+ t) (w : Text) :
    k.StartWithin t w := by
  intro u hu hpre
  rcases List.prefix_or_prefix_of_prefix hpre (List.prefix_append t w) with hut | htu
  · exact hut
  · have hinfix : k.separator <:+: u := ht.isInfix.trans htu.isInfix
    simp only [searched, List.mem_cons, List.not_mem_nil, or_false] at hu
    rcases hu with rfl | rfl | rfl
    · -- the separator is no longer than `t`, which starts with it
      have heq : t = k.separator := htu.eq_of_length (Nat.le_antisymm htu.length_le ht.length_le)
      exact ⟨[], by rw [List.append_nil, heq]⟩
    · exact absurd hinfix hline
    · exact absurd hinfix hopen

theorem Reads.extend_of_last (h : Reads k x t ls [])
    (hlast : ∀ l ∈ ls.getLast?, l = .separator k.separator)
    (hline : ¬ k.separator <:+: k.lineComment) (hopen : ¬ k.separator <:+: k.blockOpen)
    (w : Text) : Reads k x (t ++ w) ls w := by
  generalize hr : ([] : Text) = r at h
  induction h with
  | nil =>
    subst hr
    exact .nil
  | @cons x t t' r l ls hl hls ih =>
    subst hr
    have hsuffix : k.separator <:+ t := by
      rw [(Reads.cons hl hls).text_append, List.append_nil]
      exact suffix_textOf_of_last (List.cons_ne_nil l ls) hlast
    have hlast' : ∀ l' ∈ ls.getLast?, l' = .separator k.separator := by
      intro l' hl'
      apply hlast l'
      cases ls with
      | nil => cases hl'
      | cons m ls => rwa [List.getLast?_cons_cons]
    refine .cons (hl.extend (Tokens.startWithin_of_suffix hline hopen hsuffix w) ?_) (ih hlast' rfl)
    -- a line comment is not the last lexeme, so that its newline is there
    rintro u rfl rfl
    cases hls with
    | nil => cases hlast _ rfl
    | cons hl' => cases hl'

/-- Lexemes up to a separator are read before any other text as well. -/
theorem Reads.replace (h : Reads k x t ls r)
    (hlast : ∀ l ∈ ls.getLast?, l = .separator k.separator)
    (hline : ¬ k.separator <:+: k.lineComment) (hopen : ¬ k.separator <:+: k.blockOpen)
    (w : Text) : Reads k x (Lexeme.textOf ls ++ w) ls w := by
  have hcut : Reads k x (Lexeme.textOf ls ++ []) ls [] :=
    Reads.cut (v := r) h (openersWithin_of_last h hlast hline hopen)
  rw [List.append_nil] at hcut
  exact hcut.extend_of_last hlast hline hopen w

end Replace

/-! ### Requests before another text -/

/-- The scan of `t` behind `p` bytes of a script, when nothing is open and no statement is begun. -/
def Scan.fresh (t : Text) (p : Nat) : Scan := ⟨t, p, .clear, []⟩

namespace Statements

variable {k : Tokens} {s : Scan} {d : Delimiters} {t script : Text} {p : Nat} {ts : List Text}
  {ls : List Lexeme} {it : Statements} {answer : Answer (Option (Except SplitError Text))}

theorem afterAll_separator (r : Text) :
    s.afterAll (ls ++ [.separator k.separator]) r =
      .fresh r (s.position + Text.byteLen (Lexeme.textOf (ls ++ [.separator k.separator]))) := by
  simp [Scan.afterAll, Scan.fresh, Lexeme.onto, Context.pass]

/-- A request that tells of a separator which ended a statement leaves more to come. -/
theorem Pulls.finished_eq_false (h : Pulls k s answer) {stop length : Nat}
    (hc : Event.closed stop length ∈ answer.events) : answer.after.finished = false := by
  cases h with
  | closed => rfl
  | unterminated hr hn =>
    rcases List.mem_append.1 hc with hc | hc
    · exact absurd hc (Lexeme.closed_notMem_logAll hn stop length)
    · simp at hc
  | atEnd hr hn =>
    rcases List.mem_append.1 hc with hc | hc
    · exact absurd hc (Lexeme.closed_notMem_logAll hn stop length)
    · simp at hc

theorem finished_after_pull {stop length : Nat}
    (hc : Event.closed stop length ∈ it.pull.events) : it.pull.after.finished = false := by
  obtain ⟨k, s, finished⟩ := it
  cases finished with
  | true =>
    rw [pull_of_finished rfl] at hc
    cases hc
  | false => exact (pulls k s).finished_eq_false hc

/-- A request that gave a statement and left more to come is answered alike before any other
text. -/
theorem next_replace (hline : ¬ k.separator <:+: k.lineComment)
    (hopen : ¬ k.separator <:+: k.blockOpen) {u : Text}
    (h : (ofScan k (.fresh t p)).next = (some (.ok u), it)) (hfin : it.finished = false) :
    ∃ before r, t = before ++ r ∧ it = ofScan k (.fresh r (p + Text.byteLen before)) ∧
      ∀ w, (ofScan k (.fresh (before ++ w) p)).next =
        (some (.ok u), ofScan k (.fresh w (p + Text.byteLen before))) := by
  obtain ⟨hvalue, hafter⟩ := Prod.mk.inj h
  have hp := pulls k (.fresh t p)
  generalize (ofScan k (.fresh t p)).pull = answer at hp hvalue hafter
  cases hp with
  | @closed ls r hr hc hne =>
    have hu : Lexeme.ontoAll [] ls = u := Except.ok.inj (Option.some.inj hvalue)
    have ht : t = Lexeme.textOf (ls ++ [.separator k.separator]) ++ r := hr.text_append
    refine ⟨Lexeme.textOf (ls ++ [.separator k.separator]), r, ht, ?_, ?_⟩
    · rw [← hafter, afterAll_separator]
      rfl
    · intro w
      have hpull := pull_of_reads
        (s := .fresh (Lexeme.textOf (ls ++ [.separator k.separator]) ++ w) p)
        (hr.replace (by simp) hline hopen w) hc hne
      rw [afterAll_separator] at hpull
      rw [next, hpull, ← hu]
      rfl
  | unterminated => cases hvalue
  | atEnd =>
    rw [← hafter] at hfin
    cases hfin

/-- Requests that gave statements and left more to come are answered alike before any other text. -/
theorem requests_replace (hline : ¬ k.separator <:+: k.lineComment)
    (hopen : ¬ k.separator <:+: k.blockOpen)
    (h : (ofScan k (.fresh t p)).requests ts.length = (answers ts, it))
    (hfin : it.finished = false) :
    ∃ before r, t = before ++ r ∧ it = ofScan k (.fresh r (p + Text.byteLen before)) ∧
      ∀ w, (ofScan k (.fresh (before ++ w) p)).requests ts.length =
        (answers ts, ofScan k (.fresh w (p + Text.byteLen before))) := by
  induction ts generalizing t p with
  | nil =>
    obtain rfl : ofScan k (.fresh t p) = it := congrArg Prod.snd h
    exact ⟨[], t, rfl, rfl, fun w => rfl⟩
  | cons u us ih =>
    generalize hnext : (ofScan k (.fresh t p)).next = a at h
    obtain ⟨a, it'⟩ := a
    rw [List.length_cons, requests, hnext] at h
    obtain ⟨hanswers, hit⟩ := Prod.mk.inj h
    obtain ⟨rfl, hus⟩ := List.cons.inj hanswers
    have hfin' : it'.finished = false := by
      by_contra hended
      rw [requests_of_finished (by simpa using hended)] at hit
      rw [← hit] at hfin
      exact hended hfin
    obtain ⟨before, r, rfl, rfl, hfirst⟩ := next_replace hline hopen hnext hfin'
    obtain ⟨before', r', rfl, rfl, hothers⟩ := ih (Prod.ext hus hit)
    have hlen : p + Text.byteLen (before ++ before') =
        p + Text.byteLen before + Text.byteLen before' := by
      rw [Text.byteLen_append, Nat.add_assoc]
    refine ⟨before ++ before', r', (List.append_assoc _ _ _).symm, by rw [hlen], ?_⟩
    intro w
    rw [List.append_assoc, List.length_cons, requests, hfirst, hothers, hlen]
    rfl

/-- **Later text never changes earlier statements**: if no token that starts comments holds the
separator, and requests gave statements each of which a separator ended, then the script up to the
position that was reached gives the same statements before any other text, and that text is then
read with nothing open and no statement begun. -/
theorem requests_append (hline : ¬ d.separator.val <:+: d.lineComment.val)
    (hopen : ¬ d.separator.val <:+: d.blockOpen.val)
    (h : (ofScript d script).requests ts.length = (answers ts, it))
    (hclosed : ∀ n < ts.length, ∃ stop length,
      Event.closed stop length ∈ ((ofScript d script).requests n).2.pull.events) :
    ∃ before rest, script = before ++ rest ∧ it.position = Text.byteLen before ∧
      ∀ w, (ofScript d (before ++ w)).requests ts.length =
        (answers ts, ofScan d.tokens (.fresh w it.position)) := by
  have hfin : it.finished = false := by
    cases hlen : ts.length with
    | zero =>
      rw [hlen] at h
      obtain rfl : ofScript d script = it := congrArg Prod.snd h
      rfl
    | succ n =>
      -- the last request told of a separator
      obtain ⟨stop, length, hevent⟩ := hclosed n (by omega)
      rw [hlen, requests_succ] at h
      obtain rfl : ((ofScript d script).requests n).2.pull.after = it := congrArg Prod.snd h
      exact finished_after_pull hevent
  obtain ⟨before, r, hscript, rfl, hreplace⟩ := requests_replace (p := 0) hline hopen h hfin
  refine ⟨before, r, hscript, ?_, ?_⟩
  · exact Nat.zero_add _
  · exact hreplace

/-- A separator whose end is the start of line comments. -/
def overlapping : Delimiters where
  separator := Token.cons 'a' ['b']
  lineComment := Token.cons 'b' ['c']
  blockOpen := Token.cons '/' ['*']
  blockClose := Token.cons '*' ['/']

/-- A line comment that holds a separator stands between two statements, and the text that follows
would complete the start of another one. -/
theorem requests_append_of_overlapping :
    ∃ before rest, ['x', 'a', 'b', 'b', 'c', 'a', 'b', '\n', 'y', 'a', 'b', '/', '*'] =
        before ++ rest ∧ Text.byteLen before = 11 ∧
      (ofScript overlapping (before ++ ['c', ';'])).requests 2 =
        (answers [['x'], ['y']], ofScan overlapping.tokens (.fresh ['c', ';'] 11)) := by
  have hclosed : ∀ n < 2, ∃ stop length, Event.closed stop length ∈
      ((ofScript overlapping ['x', 'a', 'b', 'b', 'c', 'a', 'b', '\n', 'y', 'a', 'b', '/',
        '*']).requests n).2.pull.events := by
    intro n hn
    match n with
    | 0 => exact ⟨3, 1, by decide +kernel⟩
    | 1 => exact ⟨11, 1, by decide +kernel⟩
  obtain ⟨before, rest, hscript, hpos, happend⟩ :=
    @requests_append overlapping _ [['x'], ['y']] _ (by decide) (by decide)
      (Prod.ext (by decide +kernel) rfl) hclosed
  have heleven : ((ofScript overlapping ['x', 'a', 'b', 'b', 'c', 'a', 'b', '\n', 'y', 'a', 'b',
      '/', '*']).requests [['x'], ['y']].length).2.position = 11 := by decide +kernel
  rw [heleven] at hpos happend
  exact ⟨before, rest, hscript, hpos.symm, happend ['c', ';']⟩

end Statements

end SqlScript
