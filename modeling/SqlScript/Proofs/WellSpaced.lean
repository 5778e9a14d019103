import SqlScript.Proofs.Course

/-!
# Statements read on their own

A statement is made of what is copied from a script, and of spaces that stand for blanks. Read on
its own from the clear context on, it leads through the contexts of the scan that made it
(`Faithful`), unless tokens start with quotation marks: such a token would be found at the closing
mark of a quotation, and the mark would be missing in the statement.

It follows that a statement has newlines and tabs only where they are quoted or escaped, and else no
spaces but single ones between other characters (`Text.WellSpaced`), and that it is closed unless
the script ended in it (`Statements.regular_of_requests`).
-/

namespace SqlScript

/-! ### Spaces outside of quotations and escapes -/

/-- Outside of quotations and escapes the text has no newlines and no tabs, no space at its start
and no space behind another one. -/
structure Text.WellSpaced (t : Text) : Prop where
  /-- A newline or a tab is quoted or escaped. -/
  breaks : ∀ u c v, t = u ++ c :: v → c = '\n' ∨ c = '\t' →
    (Context.clear.readAll u).quote.isSome = true ∨ (Context.clear.readAll u).escaped = true
  /-- Any other space stands behind a character that is no space. -/
  spaces : ∀ u v, t = u ++ ' ' :: v → Context.clear.readAll u = .clear →
    u ≠ [] ∧ u.getLast? ≠ some ' '

namespace Text

variable {t u v : Text} {a c : Char}

/-- A character of a text with one more character is the last one, or it was there before. -/
theorem concat_eq_append_cons (h : t ++ [c] = u ++ a :: v) :
    (u = t ∧ a = c) ∨ ∃ v', t = u ++ a :: v' := by
  -- what follows the character is empty, or it ends with the last character
  rcases List.eq_nil_or_concat v with rfl | ⟨v', b, rfl⟩
  · obtain ⟨rfl, hac⟩ := List.append_inj' h rfl
    exact Or.inl ⟨rfl, (List.cons.inj hac).1.symm⟩
  · have hsplit : t ++ [c] = (u ++ a :: v') ++ [b] := by
      rw [h, List.concat_eq_append, List.append_assoc, List.cons_append]
    exact Or.inr ⟨v', (List.append_inj' hsplit rfl).1⟩

theorem wellSpaced_nil : WellSpaced [] where
  breaks u c v h := by simp at h
  spaces u v h := by simp at h

/-- One more character keeps a text well spaced if it is so itself. -/
theorem WellSpaced.concat (h : t.WellSpaced)
    (hbreak : c = '\n' ∨ c = '\t' →
      (Context.clear.readAll t).quote.isSome = true ∨ (Context.clear.readAll t).escaped = true)
    (hspace : c = ' ' → Context.clear.readAll t = .clear → t ≠ [] ∧ t.getLast? ≠ some ' ') :
    WellSpaced (t ++ [c]) where
  breaks u a v heq ha := by
    rcases concat_eq_append_cons heq with ⟨rfl, rfl⟩ | ⟨v', ht⟩
    · exact hbreak ha
    · exact h.breaks u a v' ht ha
  spaces u v heq hu := by
    rcases concat_eq_append_cons heq with ⟨rfl, hc⟩ | ⟨v', ht⟩
    · exact hspace hc.symm hu
    · exact h.spaces u v' ht hu

end Text

/-! ### The contexts of a statement -/

/-- No token that is looked for starts with a quotation mark. -/
def Tokens.Unquoted (k : Tokens) : Prop := ∀ u ∈ k.searched, ∀ c ∈ u.head?, ∀ q : Quote, c ≠ q.mark

/-- The statement `out` that was read up to the context `x` leads to that context on its own, and is
well spaced. -/
structure Faithful (x : Context) (out : Text) : Prop where
  /-- The statement leads to the context of the scan. -/
  readAll : Context.clear.readAll out = x
  /-- Its spaces are in order. -/
  wellSpaced : out.WellSpaced

section Faithful

variable {k : Tokens} {x : Context} {out t r : Text} {c : Char} {l : Lexeme} {ls : List Lexeme}

/-- Outside of the clear context a quotation is open, or the next character is escaped. -/
theorem Context.isSome_quote_or_escaped_of_ne_clear (h : x ≠ .clear) :
    x.quote.isSome = true ∨ x.escaped = true := by
  obtain ⟨quote, escaped⟩ := x
  cases quote with
  | some q => exact Or.inl rfl
  | none =>
    cases escaped with
    | true => exact Or.inr rfl
    | false => exact absurd rfl h

/-- A token that starts with no quotation mark is found in the clear context only. -/
theorem Tokens.Unquoted.eq_clear (hk : k.Unquoted) {u : Text} (hu : u ∈ k.searched)
    (hs : u.Starts (c :: t)) (hc : x.isLiteral c = false) : x = .clear := by
  obtain ⟨hne, hpre⟩ := hs
  obtain ⟨a, u, rfl⟩ := List.exists_cons_of_ne_nil hne
  obtain rfl : a = c := (List.cons_prefix_cons.1 hpre).1
  exact Context.eq_clear_of_isLiteral_eq_false (hk _ hu a rfl) hc

/-- A separator is found in the clear context only. -/
theorem Lexes.eq_clear_of_separator (hk : k.Unquoted)
    (h : Lexes k x t (.separator k.separator) r) : x = .clear := by
  cases h with
  | separator hc hs ht =>
    exact hk.eq_clear Tokens.separator_mem_searched ⟨hs, r, ht.symm⟩ hc

namespace Faithful

theorem start : Faithful .clear [] := ⟨rfl, Text.wellSpaced_nil⟩

/-- A character that is copied is read in the same way in the statement. A blank is copied only
outside of the clear context. -/
theorem copied (h : Faithful x out) (hc : x.isLiteral c = true ∨ isBlank c = false) :
    Faithful (x.read c) (out ++ [c]) := by
  -- in the clear context a blank is neither literal nor any other character
  have hclear : isBlank c = true → x ≠ .clear := by
    rintro hb rfl
    rw [Context.isLiteral_clear_of_isBlank hb, hb] at hc
    rcases hc with hc | hc <;> cases hc
  refine ⟨?_, h.wellSpaced.concat ?_ ?_⟩
  · rw [Context.readAll_append, h.readAll]
    rfl
  · intro hbreak
    rw [h.readAll]
    exact Context.isSome_quote_or_escaped_of_ne_clear
      (hclear (isBlank_iff.2 (Or.inr hbreak)))
  · intro hspace hout
    rw [h.readAll] at hout
    exact absurd hout (hclear (isBlank_iff.2 (Or.inl hspace)))

/-- A blank adds a space where one may stand, and nothing elsewhere. -/
theorem blank (h : Faithful .clear out) : Faithful .clear ((Lexeme.blank c).onto out) := by
  rw [Lexeme.onto]
  split
  · exact h
  · next hout =>
    refine ⟨?_, h.wellSpaced.concat ?_ ?_⟩
    · rw [Context.readAll_append, h.readAll]
      rfl
    · intro hbreak
      rcases hbreak with hbreak | hbreak <;> cases hbreak
    · intro _ _
      exact not_or.1 hout

/-- Every lexeme leaves a statement that leads to the context behind it. -/
theorem pass (hk : k.Unquoted) (h : Faithful x out) (hl : Lexes k x t l r) :
    Faithful (x.pass l) (l.onto out) := by
  cases hl with
  | literal hc => exact h.copied (Or.inl hc)
  | separator => exact start
  | lineComment hc _ hline =>
    obtain rfl := hk.eq_clear (Tokens.opener_mem_searched .line) hline hc
    exact h
  | blockComment hc _ _ hopen =>
    obtain rfl := hk.eq_clear (Tokens.opener_mem_searched .block) hopen hc
    exact h
  | blank hc _ hb =>
    obtain rfl := Context.eq_clear_of_isBlank hb hc
    exact h.blank
  | plain _ _ hb => exact h.copied (Or.inr hb)

theorem passAll (hk : k.Unquoted) (h : Faithful x out) (hr : Reads k x t ls r) :
    Faithful (x.passAll ls) (Lexeme.ontoAll out ls) := by
  induction hr generalizing out with
  | nil => exact h
  | cons hl _ ih => exact ih (h.pass hk hl)

end Faithful

end Faithful

/-! ### Statements that are handed out -/

namespace Statements

variable {k : Tokens} {s : Scan} {t script : Text}
  {answer : Answer (Option (Except SplitError Text))}
  {answers : List (Option (Except SplitError Text))} {it : Statements}

/-- The statement `t` of an answer is well spaced. It is closed if a separator ended it; otherwise
the script is read to its end. -/
structure Regular (answer : Answer (Option (Except SplitError Text))) (t : Text) : Prop where
  /-- Its spaces are in order. -/
  wellSpaced : t.WellSpaced
  /-- A separator ends a statement outside of quotations and escapes. -/
  closed : (∃ stop, Event.closed stop (Text.byteLen t) ∈ answer.events) →
    Context.clear.readAll t = .clear
  /-- In a quotation or behind an escape only the script can end. -/
  atEnd : Context.clear.readAll t ≠ .clear →
    answer.after.finished = true ∧ answer.after.scan.rest = []

/-- What a request gives where no statement was begun is regular. -/
theorem Pulls.regular (h : Pulls k s answer) (hk : k.Unquoted) (hx : s.context = .clear)
    (hs : s.statement = []) (ht : answer.value = some (.ok t)) : Regular answer t := by
  have hread {ls : List Lexeme} {r : Text} (hr : Reads k s.context s.rest ls r) :
      Faithful (s.context.passAll ls) (Lexeme.ontoAll s.statement ls) := by
    rw [hx] at hr ⊢
    rw [hs]
    exact Faithful.start.passAll hk hr
  cases h with
  | @closed ls r hr hc hne =>
    -- the separator was found in the clear context, to which the statement leads on its own
    obtain ⟨m, hls, hsep⟩ := hr.of_append
    obtain rfl : Lexeme.ontoAll s.statement ls = t := by simpa using ht
    have hclear : Context.clear.readAll (Lexeme.ontoAll s.statement ls) = .clear := by
      rw [(hread hls).readAll]
      cases hsep with
      | cons hl => exact hl.eq_clear_of_separator hk
    exact ⟨(hread hls).wellSpaced, fun _ => hclear, fun hopen => absurd hclear hopen⟩
  | unterminated => cases ht
  | @atEnd ls hr hc =>
    have hout := (Lexeme.given_eq_of_head? (t := t) (by simpa using ht)).2
    refine ⟨hout ▸ (hread hr).wellSpaced, ?_, fun _ => ⟨rfl, rfl⟩⟩
    -- no separator ended this statement
    rintro ⟨stop, hstop⟩
    rcases List.mem_append.1 hstop with hstop | hstop
    · exact absurd hstop (Lexeme.closed_notMem_logAll hc stop _)
    · simp at hstop

theorem Visits.regular (h : Visits k script answers it) (hk : k.Unquoted)
    (ht : it.next.1 = some (.ok t)) : Regular it.pull t := by
  obtain ⟨s, -, hx, hs, rfl⟩ := h.exists_between ht
  exact (pulls k s).regular hk hx hs ht

/-- **Statements are closed and well spaced**: if no token that is looked for starts with a
quotation mark, every statement that a request gives is well spaced when it is read on its own, also
before an error. Its quotations and escapes are closed if a separator ended it, so that they can be
open only where the script ends. -/
theorem regular_of_requests {d : Delimiters} (hd : d.tokens.Unquoted) (script : Text) (n : Nat)
    (ht : ((ofScript d script).requests n).2.next.1 = some (.ok t)) :
    Regular ((ofScript d script).requests n).2.pull t :=
  (visits_requests d.tokens script n).regular hd ht

/-- A quoted newline and an escaped tab stand in a statement that a separator ends, and an open
quotation in one that it does not end. -/
theorem regular_of_requests_of_quotation :
    Context.clear.readAll ['\x27', ';', '\n', '\x27', '\\', '\t', ' '] = .clear ∧
      Text.WellSpaced ['\x27', ';', '\n', '\x27', '\\', '\t', ' '] ∧
      Text.WellSpaced ['\x22', ';', ' ', ' '] ∧
      ((ofScript .standard ['\x27', ';', '\n', '\x27', '\\', '\t', '\t', ';', '\n', '\x22', ';',
        ' ', ' ']).requests 1).2.next.2.finished = true := by
  have hd : Delimiters.standard.tokens.Unquoted := by
    simp only [Tokens.Unquoted, Tokens.searched, Delimiters.standard, Delimiters.tokens, Token.cons,
      List.forall_mem_cons, List.head?_cons, Option.mem_some_iff, forall_eq']
    refine ⟨fun q => ?_, fun q => ?_, fun q => ?_, by simp⟩ <;> cases q <;> decide
  have hfirst := regular_of_requests (t := ['\x27', ';', '\n', '\x27', '\\', '\t', ' ']) hd
    ['\x27', ';', '\n', '\x27', '\\', '\t', '\t', ';', '\n', '\x22', ';', ' ', ' '] 0
    (by decide +kernel)
  have hsecond := regular_of_requests (t := ['\x22', ';', ' ', ' ']) hd
    ['\x27', ';', '\n', '\x27', '\\', '\t', '\t', ';', '\n', '\x22', ';', ' ', ' '] 1
    (by decide +kernel)
  exact ⟨hfirst.closed ⟨8, by decide +kernel⟩, hfirst.wellSpaced, hsecond.wellSpaced,
    (hsecond.atEnd (by decide)).1⟩

end Statements

end SqlScript
