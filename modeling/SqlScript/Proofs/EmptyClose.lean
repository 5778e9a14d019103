import Mathlib.Control.Monad.Basic
import SqlScript.Proofs.Disabled

/-!
# Block comments without a closing token

An empty token is never found at a place, but it is found at once where it is searched for. If the
closing token of block comments is empty, a comment therefore ends behind its first character, and
that character is all that is passed over. The script is read in the same way as with block comments
switched off, except that there this character is a blank or is copied
(`Reads.uncomment`). The two come to the same only if no such comment is found, or if its first
character is a blank (`splitTokens_of_blockClose_nil`).
-/

namespace SqlScript

/-! ### Comments of one character -/

/-- The lexeme, with a block comment of one character read as that character. -/
def Lexeme.uncomment : Lexeme → Lexeme
  | comment .block [c] => if isBlank c then blank c else copied c
  | l => l

section Uncomment

variable {k : Tokens} {x : Context} {c : Char} {t r u : Text} {l : Lexeme} {ls : List Lexeme}

/-- A block comment without a closing token is the first character of the token that starts it. -/
theorem Lexes.exists_eq_singleton (h : Lexes k x t (.comment .block u) r)
    (hk : k.blockClose = []) :
    ∃ c, u = [c] ∧ t = c :: r ∧ k.blockOpen.head? = some c ∧ x.isLiteral c = false ∧
      (k.without .blockOpen).NoneStarts t := by
  cases h with
  | @blockComment c t body _ hc hs hl ho ht hb =>
    rw [hk, List.nil_append] at ht
    -- the empty text is found at the start
    have hbody : body = [] :=
      List.eq_nil_of_length_eq_zero (Nat.le_zero.1 (hb [] t (by rw [hk]; rfl)))
    subst hbody
    obtain ⟨hne, v, hv⟩ := ho
    obtain ⟨a, o, ho⟩ := List.exists_cons_of_ne_nil hne
    rw [ho] at hv
    obtain rfl : a = c := (List.cons.inj hv).1
    exact ⟨a, by rw [hk, List.append_nil], by rw [ht]; rfl, by rw [ho]; rfl, hc,
      Tokens.not_starts_without .separator hs,
      Tokens.not_starts_without .lineComment hl, fun h => h.1 rfl⟩

/-- Where a lexeme is read, the same one is read without block comments, or the single character of
one of them. -/
theorem Lexes.uncomment (h : Lexes k x t l r) (hk : k.blockClose = []) :
    Lexes (k.without .blockOpen) x t l.uncomment r ∧ x.pass l.uncomment = x.pass l := by
  have hlexes := h
  cases h with
  | literal hc => exact ⟨.literal hc, rfl⟩
  | separator hc hs ht => exact ⟨.separator hc hs ht, rfl⟩
  | lineComment hc hs hl ht hb hr => exact ⟨.lineComment hc hs hl ht hb hr, rfl⟩
  | blockComment =>
    obtain ⟨c, hu, ht, -, hc, hn⟩ := hlexes.exists_eq_singleton hk
    rw [hu]
    rw [ht] at hn ⊢
    cases hb : isBlank c with
    | true =>
      rw [Lexeme.uncomment, if_pos hb]
      exact ⟨.blank hc hn hb, rfl⟩
    | false =>
      rw [Lexeme.uncomment, if_neg (by simp [hb])]
      exact ⟨.plain hc hn hb, Context.read_eq_clear hc⟩
  | blank hc hn hb => exact ⟨.blank hc (hn.without _) hb, rfl⟩
  | plain hc hn hb => exact ⟨.plain hc (hn.without _) hb, rfl⟩

/-- A script is read in the same way without block comments, but for their characters. -/
theorem Reads.uncomment (h : Reads k x t ls r) (hk : k.blockClose = []) :
    Reads (k.without .blockOpen) x t (ls.map Lexeme.uncomment) r := by
  induction h with
  | nil => exact .nil
  | @cons x t t' r l ls hl _ ih =>
    obtain ⟨hl', hx⟩ := hl.uncomment hk
    rw [← hx] at ih
    exact .cons hl' ih

/-- Block comments among the lexemes are first characters of the token that starts them. -/
theorem Reads.exists_eq_singleton (h : Reads k x t ls r) (hk : k.blockClose = [])
    (hu : .comment .block u ∈ ls) : ∃ c, u = [c] ∧ k.blockOpen.head? = some c := by
  induction h with
  | nil => cases hu
  | @cons x t t' r l ls hl _ ih =>
    rcases List.mem_cons.1 hu with rfl | hu
    · obtain ⟨c, hu, -, ho, -⟩ := hl.exists_eq_singleton hk
      exact ⟨c, hu, ho⟩
    · exact ih hu

/-- Without a closing token a script is read to its end. -/
theorem exists_reads_of_blockClose_nil (hk : k.blockClose = []) (script : Text) :
    ∃ ls, Reads k .clear script ls [] := by
  obtain ⟨ls, r, hls⟩ := exists_lexed k .clear script
  rcases hls.stops with rfl | hu
  · exact ⟨ls, hls.reads⟩
  · -- the empty text stands everywhere
    obtain ⟨-, -, -, -, hb⟩ := hu
    exact absurd (by rw [hk]; exact List.nil_infix) hb

end Uncomment

/-! ### Characters in statements -/

namespace Lexeme

variable {c : Char} {out u : Text} {l : Lexeme} {ls : List Lexeme}

@[simp] theorem flatten_given : (given out).flatten = out := by
  by_cases h : out = [] <;> simp [given, h]

theorem count_onto (hc : c ≠ ' ') (out : Text) (l : Lexeme) :
    (ended out l).flatten.count c + (l.onto out).count c = out.count c + [l].count (.copied c) := by
  cases l with
  | copied a => by_cases h : a = c <;> simp [ended, isSeparator, onto, h]
  | separator token => simp [onto]
  | comment kind u => simp [ended, isSeparator, onto]
  | blank a =>
    by_cases h : out = [] ∨ out.getLast? = some ' '
    · simp [ended, isSeparator, onto, h]
    · simp [ended, isSeparator, onto, h, hc.symm]

/-- Of characters other than the space, statements hold those that were copied. -/
theorem count_flatten_closed (hc : c ≠ ' ') (out : Text) (ls : List Lexeme) :
    (closed out ls ++ given (ontoAll out ls)).flatten.count c =
      out.count c + ls.count (.copied c) := by
  induction ls generalizing out with
  | nil => simp
  | cons l ls ih =>
    have honto := count_onto hc out l
    have hcons : (l :: ls).count (.copied c) = [l].count (.copied c) + ls.count (.copied c) := by
      rw [← List.singleton_append, List.count_append]
    rw [closed_cons, ontoAll_cons, List.append_assoc, List.flatten_append, List.count_append, ih,
      hcons]
    omega

theorem count_flatten_statementsOf (hc : c ≠ ' ') (ls : List Lexeme) :
    (statementsOf ls).flatten.count c = ls.count (.copied c) := by
  rw [← closed_append_given_ontoAll, count_flatten_closed hc, List.count_nil, Nat.zero_add]

theorem count_le_count_uncomment (c : Char) (ls : List Lexeme) :
    ls.count (.copied c) ≤ (ls.map uncomment).count (.copied c) := by
  unfold List.count
  rw [List.countP_map]
  refine List.countP_mono_left fun l _ hl => ?_
  rw [beq_iff_eq] at hl
  rw [hl]
  simp [uncomment]

/-- A block comment of one character that is no blank is one more copied character. -/
theorem count_lt_count_uncomment (hc : isBlank c = false) (h : .comment .block [c] ∈ ls) :
    ls.count (.copied c) < (ls.map uncomment).count (.copied c) := by
  obtain ⟨ms, ns, rfl⟩ := List.append_of_mem h
  have hms := count_le_count_uncomment c ms
  have hns := count_le_count_uncomment c ns
  have hc' : (comment .block [c]).uncomment = .copied c := if_neg (by simp [hc])
  rw [List.map_append, List.map_cons, hc', List.count_append, List.count_append,
    List.count_cons_self, List.count_cons_of_ne (by simp)]
  omega

theorem uncomment_eq_self (h : ∀ u, l ≠ .comment .block u) : l.uncomment = l := by
  unfold uncomment
  split
  · exact absurd rfl (h _)
  · rfl

end Lexeme

/-! ### Splitting without a closing token -/

/-- **Without a closing token block comments are one character long**: a script is always split, and
into what it is split with block comments switched off, except that the first character of the token
that starts them is left out wherever it is found. If that character is no blank, the two are the
same exactly if the token is never found. -/
theorem splitTokens_of_blockClose_nil (separator lineComment blockOpen script : Text) :
    ∃ ls, Reads ⟨separator, lineComment, blockOpen, []⟩ .clear script ls [] ∧
      Reads ⟨separator, lineComment, [], []⟩ .clear script (ls.map Lexeme.uncomment) [] ∧
      (∀ u, .comment .block u ∈ ls → ∃ c, u = [c] ∧ blockOpen.head? = some c) ∧
      splitTokens ⟨separator, lineComment, blockOpen, []⟩ script = .ok (Lexeme.statementsOf ls) ∧
      splitTokens ⟨separator, lineComment, [], []⟩ script =
        .ok (Lexeme.statementsOf (ls.map Lexeme.uncomment)) ∧
      ((∀ u, .comment .block u ∉ ls) →
        splitTokens ⟨separator, lineComment, blockOpen, []⟩ script =
          splitTokens ⟨separator, lineComment, [], []⟩ script) ∧
      ((∀ c ∈ blockOpen.head?, isBlank c = false) →
        splitTokens ⟨separator, lineComment, blockOpen, []⟩ script =
          splitTokens ⟨separator, lineComment, [], []⟩ script →
        ∀ u, .comment .block u ∉ ls) := by
  obtain ⟨ls, hreads⟩ := exists_reads_of_blockClose_nil
    (k := ⟨separator, lineComment, blockOpen, []⟩) rfl script
  have hreads' : Reads ⟨separator, lineComment, [], []⟩ .clear script
      (ls.map Lexeme.uncomment) [] := hreads.uncomment rfl
  have hsingle (u : Text) (hu : .comment .block u ∈ ls) :
      ∃ c, u = [c] ∧ blockOpen.head? = some c := hreads.exists_eq_singleton rfl hu
  have hsplit := splitTokens_of_lexed ⟨hreads, Or.inl rfl⟩
  have hsplit' := splitTokens_of_lexed ⟨hreads', Or.inl rfl⟩
  rw [Lexeme.outcome, if_pos rfl] at hsplit hsplit'
  refine ⟨ls, hreads, hreads', hsingle, hsplit, hsplit', ?_, ?_⟩
  · intro hnone
    have hself : ls.map Lexeme.uncomment = ls := by
      refine (List.map_congr_left fun l hl => ?_).trans (List.map_id ls)
      refine Lexeme.uncomment_eq_self ?_
      rintro u rfl
      exact hnone u hl
    rw [hsplit, hsplit', hself]
  · intro hblank heq u hu
    obtain ⟨c, rfl, hhead⟩ := hsingle u hu
    have hc := hblank c hhead
    have hspace : c ≠ ' ' := by
      rintro rfl
      cases hc
    -- the character that is left out is missing in the statements
    rw [hsplit, hsplit', Except.ok.injEq] at heq
    have hcount := congrArg (fun ts => (List.flatten ts).count c) heq
    simp only [Lexeme.count_flatten_statementsOf hspace] at hcount
    have hlt := Lexeme.count_lt_count_uncomment hc hu
    omega

/-- Without a closing token block comments are not switched off: a character is left out. -/
theorem not_forall_splitTokens_of_blockClose_nil :
    ¬ ∀ separator lineComment blockOpen script : Text,
      splitTokens ⟨separator, lineComment, blockOpen, []⟩ script =
        splitTokens ⟨separator, lineComment, [], []⟩ script := by
  intro h
  exact absurd (h [';'] ['-', '-'] ['/', '*'] ['/', '*']) (by decide +kernel)

end SqlScript
