import SqlScript.Proofs.TwoPhases

/-!
# Tokens that are never found

Where tokens are looked for, the first one in their order that stands there is found. A token is
`Tokens.Idle` in a script if this is never so: it is empty, it stands nowhere in the script, it
starts with a backslash, which is copied before any token is looked for, or a token that goes before
it stands wherever it stands (`Tokens.Idle.exists_earlier`). It may then be switched off
(`splitTokens_without`), and a script is read with the same lexemes (`Reads.without`).
-/

namespace SqlScript

/-- The roles whose tokens are looked for before the one in this role. -/
def Role.earlier : Role → List Role
  | separator | blockClose => []
  | lineComment => [separator]
  | blockOpen => [separator, lineComment]

namespace Tokens

/-- The tokens with the one in the role `r` switched off. -/
def without (k : Tokens) (r : Role) : Tokens := .ofFn fun r' => if r' = r then [] else k.get r'

/-- The token in the role `r` cannot be found in the script. -/
inductive Idle (k : Tokens) (script : Text) (r : Role) : Prop
  /-- It is switched off. -/
  | empty (h : k.get r = [])
  /-- It stands nowhere. -/
  | absent (h : ¬ k.get r <:+: script)
  /-- It starts with a backslash. -/
  | escaped (h : (k.get r).head? = some escapeMark)
  /-- It starts with a token that goes before it. -/
  | shadowed (r' : Role) (hr : r' ∈ r.earlier) (hne : k.get r' ≠ []) (h : k.get r' <+: k.get r)

variable {k : Tokens} {r r' : Role} {x : Context} {c : Char} {t script : Text}

theorem get_without_of_ne (h : r' ≠ r) : (k.without r).get r' = k.get r' := by
  rw [without, get_ofFn, if_neg h]

/-- With one token switched off no other tokens stand somewhere than before. -/
theorem starts_of_without (h : ((k.without r).get r').Starts t) : (k.get r').Starts t := by
  by_cases hr : r' = r
  · rw [without, get_ofFn, if_pos hr] at h
    exact absurd rfl h.1
  · rwa [get_without_of_ne hr] at h

theorem not_starts_without (r' : Role) (h : ¬ (k.get r').Starts t) :
    ¬ ((k.without r).get r').Starts t :=
  fun h' => h (starts_of_without h')

theorem NoneStarts.without (h : k.NoneStarts t) (r : Role) : (k.without r).NoneStarts t where
  separator := not_starts_without .separator h.separator
  lineComment := not_starts_without .lineComment h.lineComment
  blockOpen := not_starts_without .blockOpen h.blockOpen

/-- Where an idle token stands and tokens are looked for, one that goes before it stands as well. -/
theorem Idle.exists_earlier (h : k.Idle script r) (hc : x.isLiteral c = false)
    (ht : c :: t <:+ script) (hs : (k.get r).Starts (c :: t)) :
    ∃ r' ∈ r.earlier, (k.get r').Starts (c :: t) := by
  cases h with
  | empty h => exact absurd h hs.1
  | absent h => exact absurd (hs.2.isInfix.trans ht.isInfix) h
  | escaped h =>
    -- a backslash is literal
    obtain ⟨u, hu⟩ := List.head?_eq_some_iff.1 h
    have hpre := hs.2
    rw [hu] at hpre
    obtain rfl : escapeMark = c := (List.cons_prefix_cons.1 hpre).1
    simp [Context.isLiteral] at hc
  | shadowed r' hr hne h => exact ⟨r', hr, hne, h.trans hs.2⟩

end Tokens

/-! ### Readings without an idle token -/

section Without

variable {k : Tokens} {x : Context} {t u script : Text} {l : Lexeme} {ls : List Lexeme} {r : Role}

/-- An idle separator is not found: no token goes before it. -/
theorem Tokens.Idle.not_separator (h : k.Idle script .separator) {token : Text}
    (ht : t <:+ script) : ¬ Lexes k x t (.separator token) u := by
  intro hl
  cases hl with
  | separator hc hs ht' =>
    obtain ⟨r', hr', -⟩ := h.exists_earlier hc ht ⟨hs, u, ht'.symm⟩
    cases hr'

/-- An idle start of line comments is not found: only the separator goes before it. -/
theorem Tokens.Idle.not_lineComment (h : k.Idle script .lineComment) {v : Text}
    (ht : t <:+ script) : ¬ Lexes k x t (.comment .line v) u := by
  intro hl
  cases hl with
  | lineComment hc hs hl' =>
    obtain ⟨r', hr', hs'⟩ := h.exists_earlier hc ht hl'
    obtain rfl := List.mem_singleton.1 hr'
    exact hs hs'

/-- An idle token starts no block comment, whether it is closed or not. -/
theorem Tokens.Idle.blockOpen_not_starts (h : k.Idle script .blockOpen) {c : Char}
    (hc : x.isLiteral c = false) (ht : c :: t <:+ script) (hs : ¬ k.separator.Starts (c :: t))
    (hl : ¬ k.lineComment.Starts (c :: t)) : ¬ k.blockOpen.Starts (c :: t) := by
  intro ho
  obtain ⟨r', hr', hs'⟩ := h.exists_earlier hc ht ho
  rcases List.mem_cons.1 hr' with rfl | hr'
  · exact hs hs'
  · obtain rfl := List.mem_singleton.1 hr'
    exact hl hs'

theorem Tokens.Idle.not_unclosed (h : k.Idle script .blockOpen) (ht : t <:+ script) :
    ¬ Unclosed k x t := by
  rintro ⟨hc, hs, hl, ho, -⟩
  exact h.blockOpen_not_starts hc ht hs hl ho

/-- The same lexeme is read without an idle token. -/
theorem Lexes.without (h : Lexes k x t l u) (hr : r ≠ .blockClose) (hk : k.Idle script r)
    (ht : t <:+ script) : Lexes (k.without r) x t l u := by
  have hget {r' : Role} (hr' : r' ≠ r) : (k.without r).get r' = k.get r' :=
    Tokens.get_without_of_ne hr'
  have hnot (r' : Role) {v : Text} : ¬ (k.get r').Starts v → ¬ ((k.without r).get r').Starts v :=
    Tokens.not_starts_without r'
  have hlexes := h
  -- the token that was found is not the idle one, and the others stand nowhere else than before
  cases h with
  | literal hc => exact .literal hc
  | separator hc hs ht' =>
    have hne : Role.separator ≠ r := by
      rintro rfl
      exact hk.not_separator ht hlexes
    have hsep : (k.without r).separator = k.separator := hget hne
    rw [← hsep] at hs ht' ⊢
    exact .separator hc hs ht'
  | lineComment hc hs hl ht' hb hend =>
    have hne : Role.lineComment ≠ r := by
      rintro rfl
      exact hk.not_lineComment ht hlexes
    have hline : (k.without r).lineComment = k.lineComment := hget hne
    rw [← hline] at hl
    exact .lineComment hc (hnot .separator hs) hl ht' hb hend
  | blockComment hc hs hl ho ht' hb =>
    have hne : Role.blockOpen ≠ r := by
      rintro rfl
      exact hk.blockOpen_not_starts hc ht hs hl ho
    have hopen : (k.without r).blockOpen = k.blockOpen := hget hne
    have hclose : (k.without r).blockClose = k.blockClose := hget hr.symm
    rw [← hopen] at ho
    rw [← hclose] at ht' hb ⊢
    exact .blockComment hc (hnot .separator hs) (hnot .lineComment hl) ho ht' hb
  | blank hc hn hb => exact .blank hc (hn.without r) hb
  | plain hc hn hb => exact .plain hc (hn.without r) hb

theorem Unclosed.without (h : Unclosed k x t) (hr : r ≠ .blockClose) (hk : k.Idle script r)
    (ht : t <:+ script) : Unclosed (k.without r) x t := by
  have hne : Role.blockOpen ≠ r := by
    rintro rfl
    exact hk.not_unclosed ht h
  obtain ⟨hc, hs, hl, ho, hb⟩ := h
  have hopen : (k.without r).blockOpen = k.blockOpen := Tokens.get_without_of_ne hne
  have hclose : (k.without r).blockClose = k.blockClose := Tokens.get_without_of_ne hr.symm
  rw [← hopen] at ho
  rw [← hclose] at hb
  exact ⟨hc, Tokens.not_starts_without .separator hs,
    Tokens.not_starts_without .lineComment hl, ho, hb⟩

/-- The same lexemes are read without an idle token. -/
theorem Reads.without (h : Reads k x t ls u) (hr : r ≠ .blockClose) (hk : k.Idle script r)
    (ht : t <:+ script) : Reads (k.without r) x t ls u := by
  induction h with
  | nil => exact .nil
  | @cons x t t' u l ls hl _ ih =>
    exact .cons (hl.without hr hk ht) (ih (hl.suffix.trans ht))

/-- A script is read as far without an idle token. -/
theorem Lexed.without (h : Lexed k x script ls u) (hr : r ≠ .blockClose) (hk : k.Idle script r) :
    Lexed (k.without r) x script ls u := by
  refine ⟨h.reads.without hr hk List.suffix_rfl, ?_⟩
  rcases h.stops with hnil | hu
  · exact Or.inl hnil
  · exact Or.inr (hu.without hr hk h.reads.suffix)

/-- An idle separator is not among the lexemes. -/
theorem Reads.isSeparator_eq_false (h : Reads k x t ls u) (hk : k.Idle script .separator)
    (ht : t <:+ script) : ∀ l ∈ ls, l.isSeparator = false := by
  induction h with
  | nil => exact fun l hl => by cases hl
  | @cons x t t' u l ls hl _ ih =>
    refine List.forall_mem_cons.2 ⟨?_, ih (hl.suffix.trans ht)⟩
    cases hsep : l.isSeparator with
    | false => rfl
    | true =>
      rw [hl.eq_separator hsep] at hl
      exact absurd hl (hk.not_separator ht)

end Without

/-! ### Splitting without an idle token -/

/-- **Idle tokens are as good as none**: a token that starts something and cannot be found in a
script may be switched off there. If it is the separator there is at most one statement, and if it
is the start of block comments there is no error. -/
theorem splitTokens_without {k : Tokens} {script : Text} {r : Role} (hr : r ≠ .blockClose)
    (h : k.Idle script r) :
    splitTokens (k.without r) script = splitTokens k script ∧
      (r = .separator → ∀ ts, splitTokens k script = .ok ts → ts.length ≤ 1) ∧
      (r = .blockOpen → ∃ ts, splitTokens k script = .ok ts) := by
  obtain ⟨ls, u, hls⟩ := exists_lexed k .clear script
  refine ⟨?_, ?_, ?_⟩
  · have hclose : (k.without r).blockClose = k.blockClose := Tokens.get_without_of_ne hr.symm
    rw [splitTokens_of_lexed hls, splitTokens_of_lexed (hls.without hr h), Lexeme.outcome,
      Lexeme.outcome, hclose]
  · rintro rfl ts hts
    obtain ⟨ls, hreads, rfl⟩ := reads_of_splitTokens hts
    rw [Lexeme.closed_of_not_isSeparator (hreads.isSeparator_eq_false h List.suffix_rfl),
      List.nil_append]
    exact Lexeme.length_given_le
  · rintro rfl
    have hu : u = [] := by
      rcases hls.stops with hnil | hu
      · exact hnil
      · exact absurd hu (h.not_unclosed hls.reads.suffix)
    subst hu
    exact ⟨_, splitTokens_of_reads hls.reads⟩

/-- The start of line comments starts with the separator, the start of block comments with that of
line comments, and a separator starts with a backslash. -/
theorem splitTokens_without_of_overlapping :
    splitTokens ⟨[';'], [], ['/', '*'], ['*', '/']⟩ ['a', ';', '-', 'b'] =
        splitTokens ⟨[';'], [';', '-'], ['/', '*'], ['*', '/']⟩ ['a', ';', '-', 'b'] ∧
      (∃ ts, splitTokens ⟨[';'], ['-'], ['-', '*'], ['*', '/']⟩ ['a', ';', '-', '*'] = .ok ts) ∧
      ∀ ts,
        splitTokens ⟨['\\', ';'], ['-'], ['/', '*'], ['*', '/']⟩ ['a', '\\', ';', 'b'] = .ok ts →
          ts.length ≤ 1 := by
  have hline := @splitTokens_without ⟨[';'], [';', '-'], ['/', '*'], ['*', '/']⟩
    ['a', ';', '-', 'b'] .lineComment (by decide)
    (.shadowed .separator (by decide) (by decide) (by decide))
  have hopen := @splitTokens_without ⟨[';'], ['-'], ['-', '*'], ['*', '/']⟩ ['a', ';', '-', '*']
    .blockOpen (by decide) (.shadowed .lineComment (by decide) (by decide) (by decide))
  have hsep := @splitTokens_without ⟨['\\', ';'], ['-'], ['/', '*'], ['*', '/']⟩
    ['a', '\\', ';', 'b'] .separator (by decide) (.escaped rfl)
  exact ⟨hline.1, hopen.2.2 rfl, hsep.2.1 rfl⟩

end SqlScript
