import SqlScript.Proofs.Append

/-!
# Layout

Blanks and comments lay a script out, and do no more than separate what stands around them. A `Gap`
is a text of blanks and complete comments. Between a settled script and any other text, a gap that
starts with a blank comes to the same as one space (`Statements.split_append_gap`).

The tokens must be told apart from each other, from blanks and from marks (`Tokens.Distinct`): a
comment in a gap could else be read as something else, and a token could reach from a script into
the gap behind it.
-/

namespace SqlScript

/-- No token that is looked for holds a blank, starts with a mark, or starts another one. -/
structure Tokens.Distinct (k : Tokens) : Prop where
  /-- No token holds a blank. -/
  not_isBlank : ∀ u ∈ k.searched, ∀ c ∈ u, isBlank c = false
  /-- No token starts with a backslash or a quotation mark. -/
  head_ne : ∀ u ∈ k.searched, ∀ c ∈ u.head?, c ≠ escapeMark ∧ ∀ q : Quote, c ≠ q.mark
  /-- Of two tokens none starts the other one. -/
  not_prefix : k.searched.Pairwise fun u v => ¬ u <+: v ∧ ¬ v <+: u

/-- Blanks and complete comments, in any number and order. -/
inductive Gap (k : Tokens) : Text → Prop
  /-- No gap. -/
  | nil : Gap k []
  /-- A blank before other layout. -/
  | blank {c : Char} {g : Text} (hc : isBlank c = true) (hg : Gap k g) : Gap k (c :: g)
  /-- A line comment with its newline. What stands in it does not matter. -/
  | lineComment {body g : Text} (hb : '\n' ∉ body) (hg : Gap k g) :
      Gap k (k.lineComment ++ (body ++ '\n' :: g))
  /-- A block comment. Behind its first character the closing token stands at its end only. -/
  | blockComment {body g : Text}
      (hb : ∀ before after, (k.blockOpen ++ (body ++ k.blockClose)).tail =
        before ++ (k.blockClose ++ after) → after = [])
      (hg : Gap k g) : Gap k (k.blockOpen ++ (body ++ (k.blockClose ++ g)))

/-! ### Gaps come to one blank -/

/-- Whether the lexeme only lays the script out. -/
def Lexeme.isLayout : Lexeme → Bool
  | blank _ | comment _ _ => true
  | copied _ | separator _ => false

namespace Lexeme

variable {out : Text} {l : Lexeme} {ls : List Lexeme}

theorem isSeparator_of_isLayout (h : l.isLayout = true) : l.isSeparator = false := by
  cases l with
  | blank => rfl
  | comment => rfl
  | copied => cases h
  | separator => cases h

theorem passAll_of_isLayout (h : ∀ l ∈ ls, l.isLayout = true) :
    Context.clear.passAll ls = .clear := by
  induction ls with
  | nil => rfl
  | cons l ls ih =>
    obtain ⟨hl, hls⟩ := List.forall_mem_cons.1 h
    have hpass : Context.clear.pass l = .clear := by
      cases l with
      | blank => rfl
      | comment => rfl
      | copied => cases hl
      | separator => cases hl
    rw [Context.passAll_cons, hpass, ih hls]

/-- Behind a blank, or where nothing was read, layout adds nothing. -/
theorem ontoAll_of_isLayout (hout : out = [] ∨ out.getLast? = some ' ')
    (h : ∀ l ∈ ls, l.isLayout = true) : ontoAll out ls = out := by
  induction ls with
  | nil => rfl
  | cons l ls ih =>
    obtain ⟨hl, hls⟩ := List.forall_mem_cons.1 h
    have honto : l.onto out = out := by
      cases l with
      | blank c => rw [onto, if_pos hout]
      | comment => rfl
      | copied => cases hl
      | separator => cases hl
    rw [ontoAll_cons, honto, ih hls]

/-- Layout that starts with a blank adds what the blank adds. -/
theorem ontoAll_blank_cons {c : Char} (h : ∀ l ∈ ls, l.isLayout = true) :
    ontoAll out (blank c :: ls) = (blank ' ').onto out := by
  rw [ontoAll_cons, onto, onto]
  by_cases hout : out = [] ∨ out.getLast? = some ' '
  · rw [if_pos hout]
    exact ontoAll_of_isLayout hout h
  · rw [if_neg hout]
    exact ontoAll_of_isLayout (Or.inr List.getLast?_concat) h

end Lexeme

section Gap

variable {k : Tokens} {c : Char} {body g w : Text}

/-- Where one of two tokens stands that do not start each other, the other one does not stand. -/
theorem Text.not_starts_append {u v : Text} (h : ¬ u <+: v ∧ ¬ v <+: u) (w : Text) :
    ¬ u.Starts (v ++ w) := by
  rintro ⟨-, hpre⟩
  rcases List.prefix_or_prefix_of_prefix hpre (List.prefix_append v w) with huv | hvu
  · exact h.1 huv
  · exact h.2 hvu

namespace Tokens.Distinct

/-- A blank is read as one, since no token holds it. -/
theorem lexes_blank (hk : k.Distinct) (hc : isBlank c = true) :
    Lexes k .clear (c :: w) (.blank c) w := by
  have hnone {u : Text} (hu : u ∈ k.searched) : ¬ u.Starts (c :: w) := by
    rintro ⟨hne, hpre⟩
    obtain ⟨a, u, rfl⟩ := List.exists_cons_of_ne_nil hne
    obtain rfl : a = c := (List.cons_prefix_cons.1 hpre).1
    have hblank := hk.not_isBlank _ hu a List.mem_cons_self
    rw [hc] at hblank
    cases hblank
  exact .blank (Context.isLiteral_clear_of_isBlank hc) ⟨hnone separator_mem_searched,
    hnone (opener_mem_searched .line), hnone (opener_mem_searched .block)⟩ hc

/-- A token that starts comments starts with an ordinary character. -/
theorem exists_cons_opener (hk : k.Distinct) (kind : Comment) (hne : k.opener kind ≠ []) :
    ∃ c u, k.opener kind = c :: u ∧ Context.clear.isLiteral c = false := by
  obtain ⟨c, u, hu⟩ := List.exists_cons_of_ne_nil hne
  obtain ⟨hesc, hmark⟩ := hk.head_ne _ (opener_mem_searched kind) c (by rw [hu]; rfl)
  exact ⟨c, u, hu, Context.isLiteral_clear hesc hmark⟩

/-- Where a comment starts no separator stands. -/
theorem not_separator_starts (hk : k.Distinct) (kind : Comment) (w : Text) :
    ¬ k.separator.Starts (k.opener kind ++ w) := by
  have hsep := (List.pairwise_cons.1 hk.not_prefix).1
  cases kind with
  | line => exact Text.not_starts_append (hsep k.lineComment (by simp)) w
  | block => exact Text.not_starts_append (hsep k.blockOpen (by simp)) w

/-- Where a block comment starts no line comment does. -/
theorem not_lineComment_starts (hk : k.Distinct) (w : Text) :
    ¬ k.lineComment.Starts (k.blockOpen ++ w) := by
  have htail := (List.pairwise_cons.1 hk.not_prefix).2
  exact Text.not_starts_append ((List.pairwise_cons.1 htail).1 k.blockOpen (by simp)) w

/-- A line comment is read up to its newline. -/
theorem lexes_lineComment (hk : k.Distinct) (hne : k.lineComment ≠ []) (hb : '\n' ∉ body) :
    Lexes k .clear (k.lineComment ++ (body ++ '\n' :: w)) (.comment .line (k.lineComment ++ body))
      ('\n' :: w) := by
  obtain ⟨c, u, hu, hlit⟩ := hk.exists_cons_opener .line hne
  have hs := hk.not_separator_starts .line (body ++ '\n' :: w)
  have hl : k.lineComment.Starts (k.lineComment ++ (body ++ '\n' :: w)) :=
    ⟨hne, List.prefix_append _ _⟩
  have hnewline : '\n' ∉ k.lineComment := by
    intro hmem
    exact absurd (hk.not_isBlank _ (opener_mem_searched .line) _ hmem) (by decide)
  have hu' : k.lineComment = c :: u := hu
  have hbody : '\n' ∉ u ++ body := by
    rw [hu', List.mem_cons, not_or] at hnewline
    rw [List.mem_append, not_or]
    exact ⟨hnewline.2, hb⟩
  have htext : k.lineComment ++ (body ++ '\n' :: w) = c :: ((u ++ body) ++ '\n' :: w) := by
    rw [hu', List.cons_append, List.append_assoc]
  rw [show k.opener .line = k.lineComment from rfl] at hs
  rw [htext] at hs hl ⊢
  rw [hu', List.cons_append]
  exact .lineComment hlit hs hl rfl hbody (Or.inr rfl)

/-- A block comment is read up to its closing token, if that stands nowhere before. -/
theorem lexes_blockComment (hk : k.Distinct) (hne : k.blockOpen ≠ [])
    (hb : ∀ before after, (k.blockOpen ++ (body ++ k.blockClose)).tail =
      before ++ (k.blockClose ++ after) → after = []) :
    Lexes k .clear (k.blockOpen ++ (body ++ (k.blockClose ++ w)))
      (.comment .block (k.blockOpen ++ (body ++ k.blockClose))) w := by
  obtain ⟨c, u, hu, hlit⟩ := hk.exists_cons_opener .block hne
  have hs := hk.not_separator_starts .block (body ++ (k.blockClose ++ w))
  have hl := hk.not_lineComment_starts (body ++ (k.blockClose ++ w))
  have ho : k.blockOpen.Starts (k.blockOpen ++ (body ++ (k.blockClose ++ w))) :=
    ⟨hne, List.prefix_append _ _⟩
  have hu' : k.blockOpen = c :: u := hu
  have htext : k.blockOpen ++ (body ++ (k.blockClose ++ w)) =
      c :: ((u ++ body) ++ (k.blockClose ++ w)) := by
    rw [hu', List.cons_append, List.append_assoc]
  have htail : (k.blockOpen ++ (body ++ k.blockClose)).tail = u ++ (body ++ k.blockClose) := by
    rw [hu', List.cons_append, List.tail_cons]
  have hlexeme : k.blockOpen ++ (body ++ k.blockClose) = c :: ((u ++ body) ++ k.blockClose) := by
    rw [hu', List.cons_append, List.append_assoc]
  rw [show k.opener .block = k.blockOpen from rfl] at hs
  rw [htext] at hs hl ho ⊢
  rw [hlexeme]
  refine .blockComment hlit hs hl ho rfl ?_
  -- a closing token that stands earlier would end within the comment
  intro before after h
  by_contra hlt
  have hshort : (u ++ (body ++ k.blockClose)) ++ w = before ++ (k.blockClose ++ after) := by
    rw [← h]
    simp
  obtain ⟨after', hafter⟩ := Text.exists_of_append_eq hshort (by
    simp only [List.length_append] at hlt ⊢
    omega)
  obtain rfl := hb before after' (htail.trans hafter)
  have hlen := congrArg List.length hafter
  simp only [List.length_append, List.length_nil] at hlt hlen
  omega

end Tokens.Distinct

/-- A gap is read as layout, whatever follows it. -/
theorem Gap.exists_reads (hk : k.Distinct) (hline : k.lineComment ≠ []) (hopen : k.blockOpen ≠ [])
    (hg : Gap k g) (w : Text) :
    ∃ ls, Reads k .clear (g ++ w) ls w ∧ ∀ l ∈ ls, l.isLayout = true := by
  -- a gap is read in the clear context, to which each of its parts leads back
  induction hg with
  | nil => exact ⟨[], .nil, fun l hl => by cases hl⟩
  | @blank c g hc _ ih =>
    obtain ⟨ls, hls, hall⟩ := ih
    exact ⟨.blank c :: ls, .cons (hk.lexes_blank hc) hls, List.forall_mem_cons.2 ⟨rfl, hall⟩⟩
  | @lineComment body g hb _ ih =>
    -- the newline behind the comment is a blank
    obtain ⟨ls, hls, hall⟩ := ih
    refine ⟨.comment .line (k.lineComment ++ body) :: .blank '\n' :: ls, ?_, ?_⟩
    · rw [List.append_assoc, List.append_assoc]
      exact .cons (hk.lexes_lineComment hline hb) (.cons (hk.lexes_blank rfl) hls)
    · exact List.forall_mem_cons.2 ⟨rfl, List.forall_mem_cons.2 ⟨rfl, hall⟩⟩
  | @blockComment body g hb _ ih =>
    obtain ⟨ls, hls, hall⟩ := ih
    refine ⟨.comment .block (k.blockOpen ++ (body ++ k.blockClose)) :: ls, ?_,
      List.forall_mem_cons.2 ⟨rfl, hall⟩⟩
    rw [List.append_assoc, List.append_assoc, List.append_assoc]
    exact .cons (hk.lexes_blockComment hopen hb) hls

end Gap

/-! ### Gaps between texts -/

section Gap

variable {k : Tokens} {c : Char} {t t' g b : Text} {ls ls' : List Lexeme} {n : Nat}

/-- A gap that starts with a blank is read as that blank and other layout. -/
theorem Gap.exists_reads_cons (hk : k.Distinct) (hline : k.lineComment ≠ [])
    (hopen : k.blockOpen ≠ []) (hg : Gap k (c :: g)) (hc : isBlank c = true) (w : Text) :
    ∃ ls, Reads k .clear (c :: g ++ w) (.blank c :: ls) w ∧ ∀ l ∈ ls, l.isLayout = true := by
  obtain ⟨ls, hls, hall⟩ := hg.exists_reads hk hline hopen w
  have hblank : Lexes k .clear (c :: g ++ w) (.blank c) (g ++ w) := hk.lexes_blank hc
  cases ls with
  | nil =>
    -- a text that is not empty has lexemes
    have hlen := congrArg List.length hls.text_append
    simp at hlen
    omega
  | cons l ls =>
    cases hls with
    | cons hl hls' =>
      obtain ⟨rfl, rfl⟩ := hl.unique hblank
      exact ⟨ls, .cons hblank hls', fun l hl => hall l (List.mem_cons_of_mem _ hl)⟩

/-- Two scripts with the same rest are split alike, up to the place of an error, if what is read of
them before comes to the same. -/
theorem splitTokens_eq_mapError (h : Reads k .clear t ls b) (h' : Reads k .clear t' ls' b)
    (hx : Context.clear.passAll ls' = Context.clear.passAll ls)
    (hc : Lexeme.closed [] ls' = Lexeme.closed [] ls)
    (ho : Lexeme.ontoAll [] ls' = Lexeme.ontoAll [] ls)
    (hn : Text.byteLen (Lexeme.textOf ls') = n + Text.byteLen (Lexeme.textOf ls)) :
    splitTokens k t' = (splitTokens k t).mapError (SplitError.shift n) := by
  -- the rest is read in the same way in both scripts, because the contexts before it agree
  obtain ⟨ms, r, hms, hstops⟩ := exists_lexed k (Context.clear.passAll ls) b
  have hlexed : Lexed k .clear t (ls ++ ms) r :=
    ⟨h.append hms, by rwa [Context.passAll_append]⟩
  have hlexed' : Lexed k .clear t' (ls' ++ ms) r :=
    ⟨h'.append (by rwa [hx]), by rwa [Context.passAll_append, hx]⟩
  rw [splitTokens_of_lexed hlexed, splitTokens_of_lexed hlexed', Lexeme.outcome, Lexeme.outcome]
  by_cases hr : r = []
  · rw [if_pos hr, if_pos hr, ← Lexeme.closed_append_given_ontoAll,
      ← Lexeme.closed_append_given_ontoAll]
    simp [hc, ho, Except.mapError]
  · rw [if_neg hr, if_neg hr]
    simp [hn, Except.mapError, SplitError.shift, Nat.add_assoc]

end Gap

namespace Statements

variable {d : Delimiters} {a g b : Text}

/-- **Layout does not matter**: between a settled script `a` and any text `b`, a gap that starts
with a blank comes to the same as one space. The statements are the same, or the error is the same
and stands as much further on as the gap is longer than the space. -/
theorem split_append_gap (hd : d.tokens.Distinct) (ha : Settled d a) (hg : Gap d.tokens g)
    (hblank : ∃ c ∈ g.head?, isBlank c = true) :
    split d (a ++ (g ++ b)) =
      (split d (a ++ ' ' :: b)).mapError (SplitError.shift (Text.byteLen g - 1)) := by
  obtain ⟨c, hhead, hc⟩ := hblank
  obtain ⟨g, rfl⟩ := List.head?_eq_some_iff.1 hhead
  obtain ⟨ls, -, hclear, hextend⟩ := ha.exists_reads
  -- no token reaches a blank
  have hwithin {c : Char} (hc : isBlank c = true) (w : Text) : d.tokens.Within a (c :: w) := by
    refine Tokens.within_of_notMem_tail fun u hu hmem => ?_
    have hblank := hd.not_isBlank u hu c (List.mem_of_mem_tail hmem)
    rw [hc] at hblank
    cases hblank
  obtain ⟨gs, hgap, hlayout⟩ := hg.exists_reads_cons hd d.lineComment.property
    d.blockOpen.property hc b
  have hlayout' : ∀ l ∈ .blank c :: gs, l.isLayout = true :=
    List.forall_mem_cons.2 ⟨rfl, hlayout⟩
  have hspace : Reads d.tokens .clear (a ++ ' ' :: b) (ls ++ [.blank ' ']) b := by
    refine (hextend _ (hwithin rfl b)).append (.one ?_)
    rw [hclear]
    exact hd.lexes_blank rfl
  have hall : Reads d.tokens .clear (a ++ (c :: g ++ b)) (ls ++ .blank c :: gs) b := by
    refine (hextend _ (hwithin hc (g ++ b))).append ?_
    rwa [hclear]
  -- the gap and the space leave the same context, end no statement, add the same, and differ in
  -- their lengths only
  refine splitTokens_eq_mapError hspace hall ?_ ?_ ?_ ?_
  · rw [Context.passAll_append, Context.passAll_append, hclear,
      Lexeme.passAll_of_isLayout hlayout']
    rfl
  · have hclosed (out : Text) : Lexeme.closed out (.blank c :: gs) = [] :=
      Lexeme.closed_of_not_isSeparator fun l hl => Lexeme.isSeparator_of_isLayout (hlayout' l hl)
    rw [Lexeme.closed_append, Lexeme.closed_append, hclosed]
    rfl
  · rw [Lexeme.ontoAll_append, Lexeme.ontoAll_append, Lexeme.ontoAll_blank_cons hlayout]
    rfl
  · have hgs : c :: g = Lexeme.textOf (.blank c :: gs) :=
      List.append_cancel_right hgap.text_append
    have hpos := c.utf8Size_pos
    rw [Lexeme.textOf_append, Lexeme.textOf_append, Text.byteLen_append, Text.byteLen_append, ← hgs]
    simp only [Text.byteLen_cons, Lexeme.textOf_cons, Lexeme.textOf_nil, List.append_nil,
      Lexeme.text, Text.byteLen_nil, show ' '.utf8Size = 1 from rfl]
    omega

/-- Separators and marks in the comments of a gap are passed over, and an error behind the gap
stands twelve bytes further on than behind a space. -/
theorem split_append_gap_of_comments :
    split .standard (['a'] ++ (['\n', '-', '-', ';', '\x27', '\n', '/', '*', '\x22', ';', '*', '/',
        '\t'] ++ ['b'])) = .ok [['a', ' ', 'b']] ∧
      split .standard (['a'] ++ (['\n', '-', '-', ';', '\x27', '\n', '/', '*', '\x22', ';', '*',
        '/', '\t'] ++ ['/', '*'])) = .error (.unterminated ['*', '/'] 14) := by
  have hd : Delimiters.standard.tokens.Distinct := by
    refine ⟨?_, ?_, by decide⟩
    · simp [Tokens.searched, Delimiters.standard, Delimiters.tokens, Token.cons, isBlank]
    · simp only [Tokens.searched, Delimiters.standard, Delimiters.tokens, Token.cons,
        List.forall_mem_cons, List.head?_cons, Option.mem_some_iff, forall_eq']
      refine ⟨⟨by decide, fun q => ?_⟩, ⟨by decide, fun q => ?_⟩, ⟨by decide, fun q => ?_⟩, by simp⟩
        <;> cases q <;> decide
  have ha : Settled .standard ['a'] :=
    ⟨⟨[['a']], by decide +kernel⟩, by decide +kernel, by decide +kernel⟩
  have hclose : ∀ before after, ['*', '\x22', ';', '*', '/'] = before ++ (['*', '/'] ++ after) →
      after = [] := by
    intro before after h
    have hcut : Text.cutAt? ['*', '/'] ['*', '\x22', ';', '*', '/'] =
      some (['*', '\x22', ';'], []) := by decide
    have hle := Text.length_le_of_cutAt? hcut h
    have hlen := congrArg List.length h
    simp only [List.length_cons, List.length_nil, List.length_append] at hle hlen
    exact List.eq_nil_of_length_eq_zero (by omega)
  have hg : Gap Delimiters.standard.tokens ['\n', '-', '-', ';', '\x27', '\n', '/', '*', '\x22',
      ';', '*', '/', '\t'] :=
    @Gap.blank _ '\n' _ rfl (@Gap.lineComment _ [';', '\x27'] _ (by decide)
      (@Gap.blockComment _ ['\x22', ';'] _ hclose (.blank rfl .nil)))
  have hall (b : Text) := split_append_gap (b := b) hd ha hg ⟨'\n', rfl, rfl⟩
  refine ⟨?_, ?_⟩
  · rw [hall]
    decide +kernel
  · rw [hall]
    decide +kernel

end Statements

end SqlScript
