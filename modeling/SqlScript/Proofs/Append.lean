import SqlScript.Proofs.Position

/-!
# Texts one after the other

What is read of a text stays as it is when another text follows, if no token reaches from the one
into the other (`Tokens.Within`, `Reads.extend`). Only a line comment at its end would go on in the
text that follows.

A script that is read to its end, outside of quotations, escapes and line comments, is `Settled`. If
no token goes on with the first character of the separator, then a settled script, a separator and
any other script are split into the statements of the first one and those of the other one
(`Statements.split_append_separator`).
-/

namespace SqlScript

/-! ### Tokens across a seam -/

/-- No token that stands at the start of `t` reaches into `w`, which follows. -/
def Tokens.StartWithin (k : Tokens) (t w : Text) : Prop :=
  ∀ u ∈ k.searched, u <+: t ++ w → u <+: t

/-- No token that stands at a character of `t` reaches from there into `w`, which follows. -/
def Tokens.Within (k : Tokens) (t w : Text) : Prop :=
  ∀ u ∈ k.searched, ∀ v, v <:+ t → v ≠ [] → u <+: v ++ w → u <+: v

namespace Tokens

variable {k : Tokens} {c : Char} {t v w : Text}

/-- A token reaches past `t` only if it goes on with the first character of what follows. -/
theorem within_of_notMem_tail (h : ∀ u ∈ k.searched, c ∉ u.tail) : k.Within t (c :: w) := by
  intro u hu v _ hne hpre
  rcases Text.prefix_append_cases hpre with huv | ⟨m, hm, rfl, hmw⟩
  · exact huv
  · -- the first character of the token stands in `v`, and `c` comes later
    obtain ⟨a, m, rfl⟩ := List.exists_cons_of_ne_nil hm
    obtain rfl : a = c := (List.cons_prefix_cons.1 hmw).1
    obtain ⟨b, v, rfl⟩ := List.exists_cons_of_ne_nil hne
    exact absurd (by simp) (h _ hu)

theorem Within.of_suffix (h : k.Within t w) (hv : v <:+ t) : k.Within v w :=
  fun u hu v' hv' => h u hu v' (hv'.trans hv)

theorem Within.startWithin (h : k.Within t w) (ht : t ≠ []) : k.StartWithin t w :=
  fun u hu => h u hu t List.suffix_rfl ht

/-- No other token stands where a text starts when more text follows. -/
theorem StartWithin.not_starts {u : Text} (h : k.StartWithin t w) (hu : u ∈ k.searched)
    (hs : ¬ u.Starts t) : ¬ u.Starts (t ++ w) :=
  fun hs' => hs ⟨hs'.1, h u hu hs'.2⟩

theorem StartWithin.noneStarts (h : k.StartWithin t w) (hk : k.NoneStarts t) :
    k.NoneStarts (t ++ w) where
  separator := h.not_starts separator_mem_searched hk.separator
  lineComment := h.not_starts (opener_mem_searched .line) hk.lineComment
  blockOpen := h.not_starts (opener_mem_searched .block) hk.blockOpen

end Tokens

/-! ### Reading on -/

section Extend

variable {k : Tokens} {x : Context} {t r w : Text} {l : Lexeme} {ls : List Lexeme}

/-- What stands in a longer text, and ends within the shorter one, stands in the shorter one. -/
theorem Text.exists_of_append_eq {before u after : Text} (h : t ++ w = before ++ (u ++ after))
    (hle : before.length + u.length ≤ t.length) : ∃ after', t = before ++ (u ++ after') := by
  have hpre : before ++ u <+: t ++ w := ⟨after, by rw [h, List.append_assoc]⟩
  have hlen : (before ++ u).length ≤ t.length := by rwa [List.length_append]
  obtain ⟨after', rfl⟩ := List.prefix_of_prefix_length_le hpre (List.prefix_append t w) hlen
  exact ⟨after', List.append_assoc _ _ _⟩

/-- A lexeme is read also if more text follows, unless it is a line comment at the end. -/
theorem Lexes.extend (h : Lexes k x t l r) (hw : k.StartWithin t w)
    (hline : ∀ u, l = .comment .line u → r ≠ []) : Lexes k x (t ++ w) l (r ++ w) := by
  cases h with
  | literal hc => exact .literal hc
  | @separator c t r hc hs ht =>
    have ht' : (c :: t) ++ w = k.separator ++ (r ++ w) := by rw [ht, List.append_assoc]
    exact .separator hc hs ht'
  | @lineComment c t body r hc hs hl ht hb hr =>
    have hs' := hw.not_starts Tokens.separator_mem_searched hs
    have ht' : t ++ w = body ++ (r ++ w) := by rw [ht, List.append_assoc]
    refine .lineComment hc hs' (hl.append w) ht' hb (Or.inr ?_)
    -- the newline that ends the comment is there
    have hnewline : r.head? = some '\n' := hr.resolve_left (hline _ rfl)
    rw [List.head?_append, hnewline]
    rfl
  | @blockComment c t body r hc hs hl ho ht hb =>
    have hs' := hw.not_starts Tokens.separator_mem_searched hs
    have hl' := hw.not_starts (Tokens.opener_mem_searched .line) hl
    have ht' : t ++ w = body ++ (k.blockClose ++ (r ++ w)) := by
      rw [ht, List.append_assoc, List.append_assoc]
    refine .blockComment hc hs' hl' (ho.append w) ht' ?_
    -- a closing token that stands earlier ends within the text that was read before
    intro body' r' h'
    by_contra hlt
    have hlen := congrArg List.length ht
    simp only [List.length_append] at hlen
    obtain ⟨r'', hr''⟩ := Text.exists_of_append_eq h' (by omega)
    exact hlt (hb body' r'' hr'')
  | blank hc hk hb => exact .blank hc (hw.noneStarts hk) hb
  | plain hc hk hb => exact .plain hc (hw.noneStarts hk) hb

/-- Lexemes are read also if more text follows, unless the last one is a line comment at the end. -/
theorem Reads.extend (h : Reads k x t ls r) (hw : k.Within t w)
    (hline : ∀ u, ls.getLast? = some (.comment .line u) → r ≠ []) :
    Reads k x (t ++ w) ls (r ++ w) := by
  -- the seam is the same for all lexemes, since what is left after one is an end of the text
  induction h with
  | nil => exact .nil
  | @cons x t t' r l ls hl hls ih =>
    refine .cons (hl.extend (hw.startWithin hl.ne_nil) ?_) (ih (hw.of_suffix hl.suffix) ?_)
    · -- a lexeme behind which nothing is left is the last one
      rintro u rfl rfl
      cases hls with
      | nil => exact hline u rfl rfl
      | cons hl' => cases hl'
    · intro u hu
      refine hline u ?_
      cases ls with
      | nil => cases hu
      | cons m ls => rwa [List.getLast?_cons_cons]

end Extend

/-! ### Scripts that can be gone on with -/

/-- The script `a` is read to its end, and nothing is left open there: no quotation, no escape and
no comment. -/
structure Settled (d : Delimiters) (a : Text) : Prop where
  /-- The script is split, and is no error. -/
  split : ∃ ts, split d a = .ok ts
  /-- All quotations and escapes are closed at its end. -/
  context : (Statements.ofScript d a).collect.2.scan.context = .clear
  /-- No line comment is passed over that reaches up to its end. -/
  newline : Event.skipped .line (Text.byteLen a) ∉ (trace d a).2

section Settled

variable {d : Delimiters} {k : Tokens} {a script r : Text} {ls : List Lexeme}

/-- A settled script is read to its end, and in the same way if a text follows into which no token
reaches. -/
theorem Settled.exists_reads (h : Settled d a) :
    ∃ ls, Reads d.tokens .clear a ls [] ∧ Context.clear.passAll ls = .clear ∧
      ∀ w, d.tokens.Within a w → Reads d.tokens .clear (a ++ w) ls w := by
  obtain ⟨ts, hts⟩ := h.split
  obtain ⟨ls, hreads, -⟩ := reads_of_splitTokens (k := d.tokens) hts
  have hdrain := Statements.drain_of_reads_nil (s := .start a) hreads
  refine ⟨ls, hreads, ?_, fun w hw => hreads.extend hw ?_⟩
  · have hafter : (Statements.ofScript d a).collect.2 =
        Statements.atEnd d.tokens ((Scan.start a).afterAll ls []) :=
      congrArg Answer.after hdrain
    have hcontext := h.context
    rw [hafter] at hcontext
    exact hcontext
  · -- a line comment at the end is told with the length of the script
    intro u hlast
    obtain ⟨ms, rfl⟩ := List.getLast?_eq_some_iff.1 hlast
    refine absurd ?_ h.newline
    have hevents : (trace d a).2 = Lexeme.logAll 0 [] (ms ++ [.comment .line u]) ++ _ :=
      congrArg Answer.events hdrain
    have hlen : Text.byteLen a = Text.byteLen (Lexeme.textOf ms) + Text.byteLen u := by
      rw [hreads.text_append]
      simp [Lexeme.text]
    rw [hevents, hlen, Lexeme.logAll_append]
    simp [Lexeme.logAll, Lexeme.log]

/-- Where the reading starts afresh, the statements before are those that were ended, and what is
left is split as a script of its own. -/
theorem splitTokens_of_reads_clear (h : Reads k .clear script ls r)
    (ho : Lexeme.ontoAll [] ls = []) (hx : Context.clear.passAll ls = .clear) :
    splitTokens k script =
      ((splitTokens k r).mapError (SplitError.shift (Text.byteLen (Lexeme.textOf ls)))).map
        (Lexeme.closed [] ls ++ ·) := by
  have hdrain := congrArg Answer.value (Statements.drain_of_reads (s := .start script) h)
  rw [Statements.ofScan_afterAll_eq_shift k script r ho hx, Statements.value_drain_shift] at hdrain
  exact hdrain

/-- A script is split behind a separator, where what stands before it is read as on its own. -/
theorem splitTokens_append_separator {b : Text} (hreads : Reads k .clear a ls [])
    (hx : Context.clear.passAll ls = .clear)
    (hall : Reads k .clear (a ++ (k.separator ++ b)) ls (k.separator ++ b))
    (hsep : Lexes k .clear (k.separator ++ b) (.separator k.separator) b) :
    splitTokens k (a ++ (k.separator ++ b)) =
      ((splitTokens k b).mapError
          (SplitError.shift (Text.byteLen a + Text.byteLen k.separator))).map
        (Lexeme.closed [] ls ++ Lexeme.given (Lexeme.ontoAll [] ls) ++ ·) := by
  have hboth : Reads k .clear (a ++ (k.separator ++ b)) (ls ++ [.separator k.separator]) b := by
    refine hall.append (.one ?_)
    rwa [hx]
  have hlen : Text.byteLen (Lexeme.textOf (ls ++ [.separator k.separator])) =
      Text.byteLen a + Text.byteLen k.separator := by
    rw [hreads.text_append]
    simp [Lexeme.text]
  have hclosed : Lexeme.closed [] (ls ++ [.separator k.separator]) =
      Lexeme.closed [] ls ++ Lexeme.given (Lexeme.ontoAll [] ls) := by simp
  have hfresh := splitTokens_of_reads_clear hboth (by simp [Lexeme.onto])
    (by rw [Context.passAll_append]; rfl)
  rwa [hlen, hclosed] at hfresh

end Settled

/-! ### Separators between scripts -/

namespace Statements

variable {d : Delimiters} {c : Char} {u a : Text}

/-- **Splitting distributes over a separator**: if the first character `c` of the separator is no
mark, and no token goes on with it, then a settled script, a separator and any other script are
split into the statements of both, and an error in the other script stays an error. -/
theorem split_append_separator (hsep : d.separator.val = c :: u) (hesc : c ≠ escapeMark)
    (hmark : ∀ q : Quote, c ≠ q.mark) (hu : c ∉ u) (hline : c ∉ d.lineComment.val)
    (hopen : c ∉ d.blockOpen.val) (ha : Settled d a) :
    ∃ ts, split d a = .ok ts ∧
      (∀ b us, split d b = .ok us → split d (a ++ (d.separator.val ++ b)) = .ok (ts ++ us)) ∧
      (∀ b expected p, split d b = .error (.unterminated expected p) →
        split d (a ++ (d.separator.val ++ b)) =
          .error (.unterminated expected
            (Text.byteLen a + Text.byteLen d.separator.val + p))) ∧
      split d (a ++ d.separator.val) = .ok ts := by
  obtain ⟨ls, hreads, hclear, hextend⟩ := ha.exists_reads
  -- tokens are not empty, so that `c` can be their first character but stands nowhere behind it
  have hsearched : ∀ v ∈ d.tokens.searched, c ∉ v.tail := by
    intro v hv hmem
    simp only [Tokens.searched, Delimiters.tokens, List.mem_cons, List.not_mem_nil, or_false] at hv
    rcases hv with rfl | rfl | rfl
    · rw [hsep] at hmem
      exact hu hmem
    · exact hline (List.mem_of_mem_tail hmem)
    · exact hopen (List.mem_of_mem_tail hmem)
  have hcons : d.tokens.separator = c :: u := hsep
  have hsplit (b : Text) : split d (a ++ (d.separator.val ++ b)) =
      ((split d b).mapError (SplitError.shift (Text.byteLen a + Text.byteLen d.separator.val))).map
        (Lexeme.closed [] ls ++ Lexeme.given (Lexeme.ontoAll [] ls) ++ ·) := by
    refine splitTokens_append_separator hreads hclear (hextend _ ?_) ?_
    · rw [hcons, List.cons_append]
      exact Tokens.within_of_notMem_tail hsearched
    · have hlexes : Lexes d.tokens .clear (c :: (u ++ b)) (.separator d.tokens.separator) b :=
        .separator (Context.isLiteral_clear hesc hmark) d.separator.property
          (by rw [hcons, List.cons_append])
      rwa [hcons] at hlexes ⊢
  have hok : split d a = .ok (Lexeme.closed [] ls ++ Lexeme.given (Lexeme.ontoAll [] ls)) :=
    splitTokens_of_reads hreads
  refine ⟨_, hok, ?_, ?_, ?_⟩
  · intro b us hb
    rw [hsplit, hb]
    rfl
  · intro b expected p hb
    rw [hsplit, hb]
    rfl
  · have hnil : split d [] = .ok [] := splitTokens_of_reads .nil
    have hempty := hsplit []
    rw [List.append_nil, hnil] at hempty
    rw [hempty]
    exact congrArg Except.ok (List.append_nil _)

/-- Quoted, escaped and commented separators before the seam end no statement, and an error behind
it is found at its place. -/
theorem split_append_separator_of_quotation :
    split .standard (['\x27', ';', '\x27', '-', '-', ';', '\n', '\\', ';'] ++ ([';'] ++ ['b'])) =
        .ok [['\x27', ';', '\x27', ' ', '\\', ';'], ['b']] ∧
      split .standard
          (['\x27', ';', '\x27', '-', '-', ';', '\n', '\\', ';'] ++ ([';'] ++ ['b', '/', '*'])) =
        .error (.unterminated ['*', '/'] 11) := by
  have ha : Settled .standard ['\x27', ';', '\x27', '-', '-', ';', '\n', '\\', ';'] :=
    ⟨⟨[['\x27', ';', '\x27', ' ', '\\', ';']], by decide +kernel⟩, by decide +kernel,
      by decide +kernel⟩
  obtain ⟨ts, hts, hok, herror, -⟩ := @split_append_separator .standard ';' []
    ['\x27', ';', '\x27', '-', '-', ';', '\n', '\\', ';'] rfl (by decide)
    (fun q => by cases q <;> decide) (by decide) (by decide) (by decide) ha
  have hvalue : split .standard ['\x27', ';', '\x27', '-', '-', ';', '\n', '\\', ';'] =
      .ok [['\x27', ';', '\x27', ' ', '\\', ';']] := by decide +kernel
  rw [hvalue] at hts
  obtain rfl := Except.ok.inj hts
  exact ⟨hok ['b'] [['b']] (by decide +kernel),
    herror ['b', '/', '*'] ['*', '/'] 1 (by decide +kernel)⟩

end Statements

end SqlScript
