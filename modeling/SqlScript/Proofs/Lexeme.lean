import SqlScript.Scan

/-!
# Lexemes

A script is made of lexemes: characters that are copied, separators, comments and blanks.
`Lexes k x t l r` says that `t`, read in the context `x`, starts with the lexeme `l`, and that `r`
is left. Where a lexeme ends depends on the context and on the text from there on, and not on the
statement that was read before.

* `Lexes.text_append`: a lexeme and what is left are the whole text;
* `Lexes.unique` and `stops_or_lexes`: a text that is not read to its end starts with exactly one
  lexeme, unless a block comment starts there that is never closed (`Unclosed`);
* `Scan.step_of_lexes`: a step of the scan takes one lexeme, and `Scan.after` is where it leaves
  the scan.
-/

namespace SqlScript

/-- A part of a script that is read at once. -/
inductive Lexeme where
  /-- A character that belongs to a statement. -/
  | copied (c : Char)
  /-- The token that ends a statement. -/
  | separator (token : Text)
  /-- A comment, with its tokens. -/
  | comment (kind : Comment) (text : Text)
  /-- A blank outside of quotations. -/
  | blank (c : Char)
deriving DecidableEq, Repr

/-- The token that starts a comment. -/
def Tokens.opener (k : Tokens) : Comment → Text
  | .line => k.lineComment
  | .block => k.blockOpen

/-- The tokens that are looked for outside of comments. -/
def Tokens.searched (k : Tokens) : List Text := [k.separator, k.lineComment, k.blockOpen]

namespace Tokens

variable {k : Tokens}

@[simp] theorem separator_mem_searched : k.separator ∈ k.searched := List.mem_cons_self

@[simp] theorem opener_mem_searched (kind : Comment) : k.opener kind ∈ k.searched := by
  cases kind <;> simp [searched, opener]

end Tokens

namespace Lexeme

/-- What stands in the script. -/
def text : Lexeme → Text
  | copied c | blank c => [c]
  | separator t | comment _ t => t

/-- Whether the lexeme ends a statement. -/
def isSeparator : Lexeme → Bool
  | separator _ => true
  | copied _ | comment _ _ | blank _ => false

/-- Whether the lexeme is a comment. -/
def isComment : Lexeme → Bool
  | comment _ _ => true
  | copied _ | separator _ | blank _ => false

/-- The statement read so far, with one more lexeme. A blank counts as a space, and as nothing at
the start or after a space; a separator starts the next statement. -/
def onto (out : Text) : Lexeme → Text
  | copied c => out ++ [c]
  | blank _ => if out = [] ∨ out.getLast? = some ' ' then out else out ++ [' ']
  | comment _ _ => out
  | separator _ => []

end Lexeme

/-- The context after a lexeme. Only a copied character can leave another one than the clear
context. -/
def Context.pass (x : Context) : Lexeme → Context
  | .copied c => x.read c
  | .separator _ | .comment _ _ | .blank _ => clear

/-! ### Blanks and contexts -/

section Blank

variable {x : Context} {c : Char}

theorem ne_mark_of_isBlank (h : isBlank c = true) (q : Quote) : c ≠ q.mark := by
  rcases isBlank_iff.1 h with rfl | rfl | rfl <;> cases q <;> decide

theorem ne_escapeMark_of_isBlank (h : isBlank c = true) : c ≠ escapeMark := by
  rcases isBlank_iff.1 h with rfl | rfl | rfl <;> decide

/-- In the clear context a blank is not literal. -/
theorem Context.isLiteral_clear_of_isBlank (h : isBlank c = true) : clear.isLiteral c = false :=
  isLiteral_clear (ne_escapeMark_of_isBlank h) (ne_mark_of_isBlank h)

/-- A blank is read as one in the clear context only. -/
theorem Context.eq_clear_of_isBlank (hb : isBlank c = true) (hc : x.isLiteral c = false) :
    x = .clear :=
  eq_clear_of_isLiteral_eq_false (ne_mark_of_isBlank hb) hc

end Blank

/-! ### What a text starts with -/

/-- None of the tokens that are looked for stands at the start of `t`. -/
structure Tokens.NoneStarts (k : Tokens) (t : Text) : Prop where
  /-- No statement ends here. -/
  separator : ¬ k.separator.Starts t
  /-- No line comment starts here. -/
  lineComment : ¬ k.lineComment.Starts t
  /-- No block comment starts here. -/
  blockOpen : ¬ k.blockOpen.Starts t

/-- Read in the context `x`, the text `t` starts with the lexeme `l`, and `r` is left. -/
inductive Lexes (k : Tokens) (x : Context) : Text → Lexeme → Text → Prop
  /-- An escaped or escaping character, and one that is inside of a quotation or opens one. -/
  | literal {c : Char} {t : Text} (hc : x.isLiteral c = true) : Lexes k x (c :: t) (.copied c) t
  /-- The separator goes before comments. -/
  | separator {c : Char} {t r : Text} (hc : x.isLiteral c = false) (hs : k.separator ≠ [])
      (ht : c :: t = k.separator ++ r) : Lexes k x (c :: t) (.separator k.separator) r
  /-- A line comment reaches to the first newline after its first character, or to the end. -/
  | lineComment {c : Char} {t body r : Text} (hc : x.isLiteral c = false)
      (hs : ¬ k.separator.Starts (c :: t)) (hl : k.lineComment.Starts (c :: t))
      (ht : t = body ++ r) (hb : '\n' ∉ body) (hr : r = [] ∨ r.head? = some '\n') :
      Lexes k x (c :: t) (.comment .line (c :: body)) r
  /-- A block comment reaches past the first closing token after its first character. -/
  | blockComment {c : Char} {t body r : Text} (hc : x.isLiteral c = false)
      (hs : ¬ k.separator.Starts (c :: t)) (hl : ¬ k.lineComment.Starts (c :: t))
      (ho : k.blockOpen.Starts (c :: t)) (ht : t = body ++ (k.blockClose ++ r))
      (hb : ∀ body' r', t = body' ++ (k.blockClose ++ r') → body.length ≤ body'.length) :
      Lexes k x (c :: t) (.comment .block (c :: (body ++ k.blockClose))) r
  /-- A blank where no token starts. -/
  | blank {c : Char} {t : Text} (hc : x.isLiteral c = false) (hk : k.NoneStarts (c :: t))
      (hb : isBlank c = true) : Lexes k x (c :: t) (.blank c) t
  /-- Any other character. -/
  | plain {c : Char} {t : Text} (hc : x.isLiteral c = false) (hk : k.NoneStarts (c :: t))
      (hb : isBlank c = false) : Lexes k x (c :: t) (.copied c) t

/-- Read in the context `x`, the text `t` starts with a block comment that is never closed. -/
inductive Unclosed (k : Tokens) (x : Context) : Text → Prop
  /-- The closing token stands nowhere after the first character. -/
  | intro {c : Char} {t : Text} (hc : x.isLiteral c = false)
      (hs : ¬ k.separator.Starts (c :: t)) (hl : ¬ k.lineComment.Starts (c :: t))
      (ho : k.blockOpen.Starts (c :: t)) (hb : ¬ k.blockClose <:+: t) : Unclosed k x (c :: t)

theorem Unclosed.ne_nil {k : Tokens} {x : Context} {t : Text} (h : Unclosed k x t) : t ≠ [] := by
  cases h
  exact List.cons_ne_nil _ _

theorem Unclosed.blockOpen_starts {k : Tokens} {x : Context} {t : Text} (h : Unclosed k x t) :
    k.blockOpen.Starts t := by
  cases h with
  | intro _ _ _ ho => exact ho

/-- Nothing more can be read: the text is at its end, or a block comment is never closed. -/
def Stops (k : Tokens) (x : Context) (t : Text) : Prop := t = [] ∨ Unclosed k x t

section Lexes

variable {k : Tokens} {x : Context} {t r r' : Text} {l l' : Lexeme}

/-- A lexeme and what is left are the whole text. -/
theorem Lexes.text_append (h : Lexes k x t l r) : t = l.text ++ r := by
  cases h with
  | literal => rfl
  | separator _ _ ht => exact ht
  | lineComment _ _ _ ht => rw [ht]; rfl
  | blockComment _ _ _ _ ht => rw [ht, Lexeme.text, List.cons_append, List.append_assoc]
  | blank => rfl
  | plain => rfl

theorem Lexes.suffix (h : Lexes k x t l r) : r <:+ t :=
  ⟨l.text, h.text_append.symm⟩

/-- A lexeme is not empty. -/
theorem Lexes.text_ne_nil (h : Lexes k x t l r) : l.text ≠ [] := by
  cases h with
  | separator _ hs => exact hs
  | _ => exact List.cons_ne_nil _ _

theorem Lexes.ne_nil (h : Lexes k x t l r) : t ≠ [] := by
  rw [h.text_append]
  exact List.append_ne_nil_of_left_ne_nil h.text_ne_nil r

theorem Lexes.length_lt (h : Lexes k x t l r) : r.length < t.length := by
  have hlen := congrArg List.length h.text_append
  have hpos := List.length_pos_iff.2 h.text_ne_nil
  rw [List.length_append] at hlen
  omega

theorem Lexes.eq_separator (h : Lexes k x t l r) (hl : l.isSeparator = true) :
    l = .separator k.separator := by
  cases h with
  | separator => rfl
  | literal => cases hl
  | lineComment => cases hl
  | blockComment => cases hl
  | blank => cases hl
  | plain => cases hl

/-- The token that starts a comment stands at its start. -/
theorem Lexes.opener_starts {kind : Comment} {u : Text} (h : Lexes k x t (.comment kind u) r) :
    (k.opener kind).Starts t := by
  cases h with
  | lineComment _ _ hl => exact hl
  | blockComment _ _ _ ho => exact ho

/-- The body of a line comment is what stands before the newline. -/
theorem eq_takeWhile_of_line {t body r : Text} (ht : t = body ++ r) (hb : '\n' ∉ body)
    (hr : r = [] ∨ r.head? = some '\n') :
    t.takeWhile (· != '\n') = body ∧ t.dropWhile (· != '\n') = r := by
  have hall : ∀ c ∈ body, (c != '\n') = true := by
    intro c hc
    simp only [bne_iff_ne, ne_eq]
    rintro rfl
    exact hb hc
  rw [ht, List.takeWhile_append_of_pos hall, List.dropWhile_append_of_pos hall]
  rcases hr with rfl | hr
  · simp
  · obtain ⟨r, rfl⟩ := List.head?_eq_some_iff.1 hr
    simp

/-- A text starts with one lexeme only. -/
theorem Lexes.unique (h : Lexes k x t l r) (h' : Lexes k x t l' r') : l = l' ∧ r = r' := by
  have hl : l = l' := by
    -- each reading excludes the ones that are tried after it
    cases h with
    | literal hc => cases h' <;> simp_all
    | separator hc hs ht =>
      have hst : k.separator.Starts (_ :: _) := ⟨hs, _, ht.symm⟩
      cases h' with
      | literal hc' => simp_all
      | separator => rfl
      | lineComment _ hs' => exact absurd hst hs'
      | blockComment _ hs' => exact absurd hst hs'
      | blank _ hk' => exact absurd hst hk'.separator
      | plain _ hk' => exact absurd hst hk'.separator
    | lineComment hc hs hl ht hb hr =>
      cases h' with
      | literal hc' => simp_all
      | separator _ hs' ht' => exact absurd ⟨hs', _, ht'.symm⟩ hs
      | lineComment _ _ _ ht' hb' hr' =>
        rw [← (eq_takeWhile_of_line ht hb hr).1, ← (eq_takeWhile_of_line ht' hb' hr').1]
      | blockComment _ _ hl' => exact absurd hl hl'
      | blank _ hk' => exact absurd hl hk'.lineComment
      | plain _ hk' => exact absurd hl hk'.lineComment
    | blockComment hc hs hl ho ht hb =>
      cases h' with
      | literal hc' => simp_all
      | separator _ hs' ht' => exact absurd ⟨hs', _, ht'.symm⟩ hs
      | lineComment _ _ hl' => exact absurd hl' hl
      | blockComment _ _ _ _ ht' hb' =>
        have hcut := Text.cutAt?_eq_some_iff.2 ⟨ht, hb⟩
        rw [Text.cutAt?_eq_some_iff.2 ⟨ht', hb'⟩] at hcut
        simp_all
      | blank _ hk' => exact absurd ho hk'.blockOpen
      | plain _ hk' => exact absurd ho hk'.blockOpen
    | blank hc hk hb =>
      cases h' with
      | literal hc' => simp_all
      | separator _ hs' ht' => exact absurd ⟨hs', _, ht'.symm⟩ hk.separator
      | lineComment _ _ hl' => exact absurd hl' hk.lineComment
      | blockComment _ _ _ ho' => exact absurd ho' hk.blockOpen
      | blank => rfl
      | plain _ _ hb' => simp_all
    | plain hc hk hb =>
      cases h' with
      | literal => rfl
      | separator _ hs' ht' => exact absurd ⟨hs', _, ht'.symm⟩ hk.separator
      | lineComment _ _ hl' => exact absurd hl' hk.lineComment
      | blockComment _ _ _ ho' => exact absurd ho' hk.blockOpen
      | blank _ _ hb' => simp_all
      | plain => rfl
  -- what is left is the text behind the lexeme
  refine ⟨hl, ?_⟩
  have ht := h.text_append.symm.trans h'.text_append
  rw [hl] at ht
  exact List.append_cancel_left ht

end Lexes

/-! ### Lexemes and steps -/

namespace Scan

/-- Where the scan stands after the lexeme `l`, which `r` follows. -/
def after (s : Scan) (l : Lexeme) (r : Text) : Scan where
  rest := r
  position := s.position + Text.byteLen l.text
  context := s.context.pass l
  pending := (l.onto s.statement).reverse

/-- What the lexeme `l`, which `r` follows, makes of the scan. -/
def take (s : Scan) (l : Lexeme) (r : Text) : Step :=
  match l with
  | .separator _ =>
    if s.statement = [] then .advanced (s.after l r) else .closed s.statement (s.after l r)
  | .comment kind _ => .skipped kind (s.after l r)
  | .copied _ | .blank _ => .advanced (s.after l r)

variable {k : Tokens} {s : Scan} {l : Lexeme} {r : Text}

theorem scan?_take : (s.take l r).scan? = some (s.after l r) := by
  cases l with
  | separator =>
    simp only [take]
    split <;> rfl
  | copied => rfl
  | comment => rfl
  | blank => rfl

@[simp] theorem rest_after : (s.after l r).rest = r := rfl

@[simp] theorem context_after : (s.after l r).context = s.context.pass l := rfl

@[simp] theorem position_after :
    (s.after l r).position = s.position + Text.byteLen l.text := rfl

@[simp] theorem statement_start {script : Text} : (Scan.start script).statement = [] := rfl

@[simp] theorem statement_after : (s.after l r).statement = l.onto s.statement := by
  simp [after, statement]

theorem statement_eq_nil_iff : s.statement = [] ↔ s.pending = [] := by
  simp [statement]

theorem append_pass_eq_after {t : Text} {c : Char} :
    ((Scan.mk t s.position (s.context.read c) s.pending).pass [c] r).append c =
      s.after (.copied c) r := by
  simp [append, pass, after, Lexeme.onto, statement, Lexeme.text, Context.pass]

theorem appendBlank_pass_eq_after {t : Text} {c : Char} :
    ((Scan.mk t s.position .clear s.pending).pass [c] r).appendBlank = s.after (.blank c) r := by
  unfold appendBlank
  by_cases h : s.pending = [] ∨ s.pending.head? = some ' '
  · simp [pass, after, Lexeme.onto, h, Lexeme.text, Context.pass, statement]
  · simp [pass, after, Lexeme.onto, append, h, Lexeme.text, Context.pass, statement]

theorem pass_eq_after {t : Text} {kind : Comment} {u : Text} :
    (Scan.mk t s.position .clear s.pending).pass u r = s.after (.comment kind u) r := by
  simp [pass, after, Lexeme.onto, Lexeme.text, Context.pass, statement]

theorem close_pass_eq_take {t token : Text} :
    ((Scan.mk t s.position .clear s.pending).pass token r).close =
      s.take (.separator token) r := by
  unfold close take
  by_cases h : s.pending = []
  · simp [pass, after, Lexeme.onto, h, Lexeme.text, Context.pass, statement]
  · simp [pass, after, Lexeme.onto, h, Lexeme.text, Context.pass, statement]

/-- A step takes the lexeme that the rest starts with. -/
theorem step_of_lexes (h : Lexes k s.context s.rest l r) : s.step k = s.take l r := by
  generalize hrest : s.rest = t at h
  cases h with
  | literal hc =>
    simp only [step, hrest, hc, ↓reduceIte]
    rw [append_pass_eq_after, take]
  | @separator c t r hc hs ht =>
    have hk : Text.afterToken? k.separator (c :: t) = some r :=
      Text.afterToken?_eq_some_iff.2 ⟨hs, ht⟩
    simp only [step, hrest, hc, hk, Context.read_eq_clear hc, Bool.false_eq_true, ↓reduceIte]
    rw [close_pass_eq_take]
  | lineComment hc hs hl ht hb hr =>
    obtain ⟨htake, hdrop⟩ := eq_takeWhile_of_line ht hb hr
    simp only [step, hrest, hc, Text.afterToken?_eq_none_iff.2 hs,
      Text.isSome_afterToken?_iff.2 hl, Context.read_eq_clear hc, htake, hdrop,
      Bool.false_eq_true, ↓reduceIte]
    rw [pass_eq_after, take]
  | blockComment hc hs hl ho ht hb =>
    have hcut := Text.cutAt?_eq_some_iff.2 ⟨ht, hb⟩
    simp only [step, hrest, hc, Text.afterToken?_eq_none_iff.2 hs,
      Text.afterToken?_eq_none_iff.2 hl, Text.isSome_afterToken?_iff.2 ho, hcut,
      Context.read_eq_clear hc, Option.isSome_none, Bool.false_eq_true, ↓reduceIte]
    rw [pass_eq_after, take]
  | blank hc hk hb =>
    simp only [step, hrest, hc, Text.afterToken?_eq_none_iff.2 hk.separator,
      Text.afterToken?_eq_none_iff.2 hk.lineComment, Text.afterToken?_eq_none_iff.2 hk.blockOpen,
      hb, Context.read_eq_clear hc, Option.isSome_none, Bool.false_eq_true, ↓reduceIte]
    rw [appendBlank_pass_eq_after, take]
  | plain hc hk hb =>
    simp only [step, hrest, hc, Text.afterToken?_eq_none_iff.2 hk.separator,
      Text.afterToken?_eq_none_iff.2 hk.lineComment, Text.afterToken?_eq_none_iff.2 hk.blockOpen,
      hb, Option.isSome_none, Bool.false_eq_true, ↓reduceIte]
    rw [append_pass_eq_after, take]

/-- A step gives up at a block comment that is never closed. -/
theorem step_of_unclosed (h : Unclosed k s.context s.rest) : s.step k = .unterminated := by
  generalize hrest : s.rest = t at h
  obtain ⟨hc, hs, hl, ho, hb⟩ := h
  simp only [step, hrest, hc, Text.afterToken?_eq_none_iff.2 hs,
    Text.afterToken?_eq_none_iff.2 hl, Text.isSome_afterToken?_iff.2 ho,
    Text.cutAt?_eq_none_iff.2 hb, Option.isSome_none, Bool.false_eq_true, ↓reduceIte]

theorem step_of_rest_eq_nil (h : s.rest = []) : s.step k = .finished := by
  simp only [step, h]

end Scan

/-- A text at which the reading does not stop starts with a lexeme. -/
theorem stops_or_lexes (k : Tokens) (x : Context) (t : Text) :
    Stops k x t ∨ ∃ l r, Lexes k x t l r := by
  cases t with
  | nil => exact Or.inl (Or.inl rfl)
  | cons c t =>
    -- the readings are tried in their order
    by_cases hc : x.isLiteral c = true
    · exact Or.inr ⟨_, _, .literal hc⟩
    rw [Bool.not_eq_true] at hc
    by_cases hs : k.separator.Starts (c :: t)
    · obtain ⟨hs, r, hr⟩ := hs
      exact Or.inr ⟨_, _, .separator hc hs hr.symm⟩
    by_cases hl : k.lineComment.Starts (c :: t)
    · have hr : t.dropWhile (· != '\n') = [] ∨ (t.dropWhile (· != '\n')).head? = some '\n' := by
        have := List.head?_dropWhile_not (· != '\n') t
        cases h : (t.dropWhile (· != '\n')).head? with
        | none => exact Or.inl (List.head?_eq_none_iff.1 h)
        | some a => right; simpa [h] using this
      refine Or.inr ⟨_, _, .lineComment hc hs hl List.takeWhile_append_dropWhile.symm ?_ hr⟩
      -- no newline is taken
      intro hmem
      simpa using List.all_eq_true.1 List.all_takeWhile _ hmem
    by_cases ho : k.blockOpen.Starts (c :: t)
    · cases hcut : Text.cutAt? k.blockClose t with
      | none => exact Or.inl (Or.inr ⟨hc, hs, hl, ho, Text.cutAt?_eq_none_iff.1 hcut⟩)
      | some p =>
        obtain ⟨ht, hb⟩ := Text.cutAt?_eq_some_iff.1 hcut
        exact Or.inr ⟨_, _, .blockComment hc hs hl ho ht hb⟩
    by_cases hb : isBlank c = true
    · exact Or.inr ⟨_, _, .blank hc ⟨hs, hl, ho⟩ hb⟩
    · exact Or.inr ⟨_, _, .plain hc ⟨hs, hl, ho⟩ (by simpa using hb)⟩

end SqlScript
