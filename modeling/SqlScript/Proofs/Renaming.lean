import Mathlib.Data.List.Basic
import SqlScript.Proofs.TwoPhases

/-!
# Renaming characters

Of the characters of a script only few mean anything by themselves: the blanks, the backslash and
the two quotation marks. A `Renaming` exchanges all others for characters of the same size, and
keeps the quotation marks or swaps them. The renamed script under the renamed tokens is read with
the renamed lexemes (`Reads.map`), and so it is split into the renamed statements
(`splitTokens_map`).

A lexeme depends on the context, on the tokens that stand at a place, and on the place where a
comment ends. Each of these is shown to be kept on its own (`Context.isLiteral_map`,
`Renaming.starts_map_iff`, `Renaming.map_eq_append_iff`), and `Lexes.map` puts them together.
-/

namespace SqlScript

/-! ### Renamings -/

namespace Quote

/-- The other kind of quotation. -/
def other : Quote → Quote
  | single => double
  | double => single

@[simp] theorem other_other (q : Quote) : q.other.other = q := by cases q <;> rfl

theorem mark_other_ne (q : Quote) : q.other.mark ≠ q.mark := by cases q <;> decide

end Quote

/-- A change of characters that leaves the structure of scripts as it is. -/
structure Renaming where
  /-- What becomes of a character. -/
  toFun : Char → Char
  /-- Every character comes from exactly one. -/
  bijective : Function.Bijective toFun
  /-- Characters keep their size. -/
  utf8Size_eq (c : Char) : (toFun c).utf8Size = c.utf8Size
  /-- Blanks are kept. -/
  blank_eq (c : Char) (hc : isBlank c = true) : toFun c = c
  /-- The backslash is kept. -/
  escapeMark_eq : toFun escapeMark = escapeMark
  /-- Both quotation marks are kept, or they are swapped. -/
  mark_eq : (∀ q : Quote, toFun q.mark = q.mark) ∨ ∀ q : Quote, toFun q.mark = q.other.mark

namespace Renaming

instance : CoeFun Renaming fun _ => Char → Char := ⟨toFun⟩

variable (f : Renaming) {c : Char} {t u : Text}

theorem injective : Function.Injective f := f.bijective.1

/-- What one character becomes, no other one does. -/
theorem apply_eq_iff {b b' : Char} (h : f b = b') : f c = b' ↔ c = b := by
  rw [← h]
  exact f.injective.eq_iff

/-- The kind of quotation that the renamed mark belongs to. -/
def quote (q : Quote) : Quote := if f q.mark = q.mark then q else q.other

/-- A quotation mark becomes the mark of the renamed kind. -/
theorem mark_quote (q : Quote) : (f.quote q).mark = f q.mark := by
  unfold quote
  split
  · next h => exact h.symm
  · next h =>
    rcases f.mark_eq with hkept | hswapped
    · exact absurd (hkept q) h
    · exact (hswapped q).symm

/-- Either kind of quotation comes from one. -/
theorem exists_quote_eq (q : Quote) : ∃ q', f.quote q' = q := by
  rcases f.mark_eq with hkept | hswapped
  · exact ⟨q, if_pos (hkept q)⟩
  · have hne : f q.other.mark ≠ q.other.mark := by
      rw [hswapped]
      exact Quote.mark_other_ne _
    exact ⟨q.other, (if_neg hne).trans q.other_other⟩

theorem apply_eq_mark_iff {q : Quote} : f c = (f.quote q).mark ↔ c = q.mark :=
  f.apply_eq_iff (f.mark_quote q).symm

/-- A character becomes a quotation mark exactly if it was one. -/
theorem ofMark?_apply (c : Char) : Quote.ofMark? (f c) = (Quote.ofMark? c).map f.quote := by
  cases h : Quote.ofMark? c with
  | some q =>
    have hc : c = q.mark := Quote.ofMark?_eq_some_iff.1 h
    exact Quote.ofMark?_eq_some_iff.2 (f.apply_eq_mark_iff.2 hc)
  | none =>
    -- a mark that comes of `c` would come of a mark as well, and only one character becomes it
    refine Quote.ofMark?_eq_none_iff.2 fun q hq => ?_
    obtain ⟨q', rfl⟩ := f.exists_quote_eq q
    exact Quote.ofMark?_eq_none_iff.1 h q' (f.apply_eq_mark_iff.1 hq)

theorem apply_eq_escapeMark_iff : f c = escapeMark ↔ c = escapeMark :=
  f.apply_eq_iff f.escapeMark_eq

theorem apply_eq_iff_of_isBlank {b : Char} (hb : isBlank b = true) : f c = b ↔ c = b :=
  f.apply_eq_iff (f.blank_eq b hb)

/-- A character becomes a blank exactly if it was one. -/
theorem isBlank_apply (c : Char) : isBlank (f c) = isBlank c := by
  rw [Bool.eq_iff_iff, isBlank_iff, isBlank_iff, f.apply_eq_iff_of_isBlank rfl,
    f.apply_eq_iff_of_isBlank rfl, f.apply_eq_iff_of_isBlank rfl]

/-! ### Renamed texts -/

theorem byteLen_map (t : Text) : Text.byteLen (t.map f) = Text.byteLen t := by
  induction t with
  | nil => rfl
  | cons c t ih => rw [List.map_cons, Text.byteLen_cons, Text.byteLen_cons, ih, f.utf8Size_eq]

/-- A renamed token stands at the start of a renamed text exactly if the token stood there. -/
theorem starts_map_iff : Text.Starts (u.map f) (t.map f) ↔ u.Starts t := by
  unfold Text.Starts
  rw [List.prefix_map_iff_of_injective f.injective, ne_eq, List.map_eq_nil_iff]

theorem not_starts_map (h : ¬ u.Starts t) : ¬ Text.Starts (u.map f) (t.map f) :=
  fun h' => h (f.starts_map_iff.1 h')

/-- A renamed text ends with a blank exactly if the text does. -/
theorem getLast?_map_iff {b : Char} (hb : isBlank b = true) :
    (t.map f).getLast? = some b ↔ t.getLast? = some b := by
  rw [List.getLast?_map]
  cases t.getLast? with
  | none => rfl
  | some c =>
    rw [Option.map_some, Option.some.injEq, Option.some.injEq, f.apply_eq_iff_of_isBlank hb]

/-- Renamed texts stand where the texts stood, and nowhere else. -/
theorem map_eq_append_iff {t₁ t₂ : Text} :
    t.map f = t₁ ++ (u.map f ++ t₂) ↔
      ∃ s₁ s₂, t = s₁ ++ (u ++ s₂) ∧ s₁.map f = t₁ ∧ s₂.map f = t₂ := by
  constructor
  · intro h
    obtain ⟨s₁, r, rfl, hs₁, hr⟩ := List.map_eq_append_iff.1 h
    obtain ⟨v, s₂, rfl, hv, hs₂⟩ := List.map_eq_append_iff.1 hr
    obtain rfl := List.map_injective_iff.2 f.injective hv
    exact ⟨s₁, s₂, rfl, hs₁, hs₂⟩
  · rintro ⟨s₁, s₂, rfl, rfl, rfl⟩
    rw [List.map_append, List.map_append]

end Renaming

/-! ### What is renamed -/

/-- The tokens with their characters renamed. -/
def Tokens.map (f : Char → Char) (k : Tokens) : Tokens := .ofFn fun r => (k.get r).map f

/-- The context of a renamed script. -/
def Context.map (f : Renaming) (x : Context) : Context := ⟨x.quote.map f.quote, x.escaped⟩

/-- The lexeme with its characters renamed. -/
def Lexeme.map (f : Char → Char) : Lexeme → Lexeme
  | copied c => copied (f c)
  | separator t => separator (t.map f)
  | comment kind t => comment kind (t.map f)
  | blank c => blank (f c)

/-- What a script is split into, with all characters renamed. Positions stay. -/
def renameOutcome (f : Char → Char) :
    Except SplitError (List Text) → Except SplitError (List Text)
  | .ok ts => .ok (ts.map fun t => t.map f)
  | .error (.unterminated expected position) => .error (.unterminated (expected.map f) position)

/-! ### Contexts and lexemes of a renamed script -/

section Renamed

variable {k : Tokens} {x : Context} {c : Char} {t r : Text} {l : Lexeme} {ls : List Lexeme}
  (f : Renaming)

/-- A renamed character is read in the renamed context as the character was read. -/
theorem Context.read_map (x : Context) (c : Char) : (x.map f).read (f c) = (x.read c).map f := by
  obtain ⟨quote, escaped⟩ := x
  -- an escaped character means nothing; otherwise a backslash and the marks are to be told apart
  cases escaped with
  | true => rfl
  | false =>
    by_cases hesc : c = escapeMark
    · subst hesc
      simp [read, Context.map, f.escapeMark_eq]
    have hesc' : ¬ f c = escapeMark := mt f.apply_eq_escapeMark_iff.1 hesc
    cases quote with
    | none => simp [read, Context.map, hesc, hesc', f.ofMark?_apply]
    | some q =>
      by_cases hq : c = q.mark
      · have hq' : f c = (f.quote q).mark := f.apply_eq_mark_iff.2 hq
        simp only [read, Context.map, Bool.false_eq_true, ↓reduceIte, hesc, hesc',
          Option.map_some, if_pos hq, if_pos hq', Option.map_none]
      · have hq' : ¬ f c = (f.quote q).mark := mt f.apply_eq_mark_iff.1 hq
        simp [read, Context.map, hesc, hesc', hq, hq']

/-- A renamed character is literal exactly if the character was. -/
theorem Context.isLiteral_map (x : Context) (c : Char) :
    (x.map f).isLiteral (f c) = x.isLiteral c := by
  have hesc : (f c == escapeMark) = (c == escapeMark) := by
    rw [Bool.eq_iff_iff, beq_iff_eq, beq_iff_eq, f.apply_eq_escapeMark_iff]
  have hquote : ((x.map f).read (f c)).quote.isSome = (x.read c).quote.isSome := by
    rw [read_map]
    exact Option.isSome_map
  rw [isLiteral, isLiteral, hesc, hquote]
  rfl

/-- A renamed lexeme leads to the renamed context. -/
theorem Context.pass_map (x : Context) (l : Lexeme) :
    (x.map f).pass (l.map f) = (x.pass l).map f := by
  cases l with
  | copied c => exact x.read_map f c
  | separator | comment | blank => rfl

theorem Tokens.NoneStarts.map (h : k.NoneStarts t) : (k.map f).NoneStarts (t.map f) where
  separator := f.not_starts_map h.separator
  lineComment := f.not_starts_map h.lineComment
  blockOpen := f.not_starts_map h.blockOpen

/-- A renamed script starts with the renamed lexeme. -/
theorem Lexes.map (h : Lexes k x t l r) :
    Lexes (k.map f) (x.map f) (t.map f) (l.map f) (r.map f) := by
  cases h with
  | literal hc => exact .literal (by rwa [x.isLiteral_map])
  | @separator c t r hc hs ht =>
    refine .separator (by rwa [x.isLiteral_map]) (mt List.map_eq_nil_iff.1 hs) ?_
    have hmap := congrArg (List.map f) ht
    rwa [List.map_append] at hmap
  | @lineComment c t body r hc hs hl ht hb hr =>
    refine .lineComment (by rwa [x.isLiteral_map]) (f.not_starts_map hs)
      (f.starts_map_iff.2 hl) (by rw [ht, List.map_append]) ?_ ?_
    · -- the newline is kept, and no other character becomes one
      intro hmem
      obtain ⟨b, hbody, hnewline⟩ := List.mem_map.1 hmem
      rw [(f.apply_eq_iff_of_isBlank rfl).1 hnewline] at hbody
      exact hb hbody
    · rcases hr with rfl | hr
      · exact Or.inl rfl
      · right
        rw [List.head?_map, hr, Option.map_some, f.blank_eq '\n' rfl]
  | @blockComment c t body r hc hs hl ho ht hb =>
    show Lexes _ _ _ (.comment .block (f c :: (body ++ k.blockClose).map f)) _
    rw [List.map_append]
    refine .blockComment (by rwa [x.isLiteral_map]) (f.not_starts_map hs) (f.not_starts_map hl)
      (f.starts_map_iff.2 ho) (f.map_eq_append_iff.2 ⟨_, _, ht, rfl, rfl⟩) ?_
    -- an earlier closing token in the renamed script would be one in the script
    intro body' r' h
    obtain ⟨body₁, r₁, ht₁, rfl, rfl⟩ := f.map_eq_append_iff.1 h
    rw [List.length_map, List.length_map]
    exact hb body₁ r₁ ht₁
  | blank hc hk hb => exact .blank (by rwa [x.isLiteral_map]) (hk.map f) (by rwa [f.isBlank_apply])
  | plain hc hk hb => exact .plain (by rwa [x.isLiteral_map]) (hk.map f) (by rwa [f.isBlank_apply])

/-- A block comment that is never closed is not closed when it is renamed. -/
theorem Unclosed.map (h : Unclosed k x t) : Unclosed (k.map f) (x.map f) (t.map f) := by
  obtain ⟨hc, hs, hl, ho, hb⟩ := h
  refine ⟨by rwa [x.isLiteral_map], f.not_starts_map hs, f.not_starts_map hl,
    f.starts_map_iff.2 ho, ?_⟩
  rintro ⟨t₁, t₂, h⟩
  rw [List.append_assoc] at h
  obtain ⟨s₁, s₂, rfl, -, -⟩ := f.map_eq_append_iff.1 h.symm
  exact hb ⟨s₁, s₂, List.append_assoc ..⟩

/-- A renamed script is read with the renamed lexemes. -/
theorem Reads.map (h : Reads k x t ls r) :
    Reads (k.map f) (x.map f) (t.map f) (ls.map (Lexeme.map f)) (r.map f) := by
  induction h with
  | nil => exact .nil
  | @cons x t t' r l ls hl _ ih =>
    rw [← x.pass_map] at ih
    exact .cons (hl.map f) ih

theorem Context.passAll_map (x : Context) (ls : List Lexeme) :
    (x.map f).passAll (ls.map (Lexeme.map f)) = (x.passAll ls).map f := by
  induction ls generalizing x with
  | nil => rfl
  | cons l ls ih => rw [List.map_cons, passAll_cons, passAll_cons, pass_map, ih]

/-- A renamed script is read as far as the script. -/
theorem Lexed.map (h : Lexed k x t ls r) :
    Lexed (k.map f) (x.map f) (t.map f) (ls.map (Lexeme.map f)) (r.map f) := by
  refine ⟨h.reads.map f, ?_⟩
  rcases h.stops with rfl | hu
  · exact Or.inl rfl
  · rw [x.passAll_map]
    exact Or.inr (hu.map f)

/-! ### Statements of a renamed script -/

namespace Lexeme

theorem text_map (l : Lexeme) : (l.map f).text = l.text.map f := by
  cases l <;> rfl

theorem textOf_map (ls : List Lexeme) : textOf (ls.map (Lexeme.map f)) = (textOf ls).map f := by
  induction ls with
  | nil => rfl
  | cons l ls ih => rw [List.map_cons, textOf_cons, textOf_cons, text_map, ih, List.map_append]

/-- A renamed lexeme adds what the lexeme adds, renamed. A space stays a space, and so a blank is
dropped in the same places. -/
theorem onto_map (out : Text) (l : Lexeme) :
    (l.map f).onto (out.map f) = (l.onto out).map f := by
  cases l with
  | copied c => simp [Lexeme.map, onto]
  | separator | comment => rfl
  | blank c =>
    have hspace : isBlank ' ' = true := rfl
    have hif : (out.map f = [] ∨ (out.map f).getLast? = some ' ') ↔
        (out = [] ∨ out.getLast? = some ' ') :=
      or_congr List.map_eq_nil_iff (f.getLast?_map_iff hspace)
    rw [Lexeme.map, onto, onto]
    by_cases h : out = [] ∨ out.getLast? = some ' '
    · rw [if_pos h, if_pos (hif.2 h)]
    · -- the space that is added is kept by the renaming
      rw [if_neg h, if_neg (mt hif.1 h), List.map_append, List.map_singleton,
        f.blank_eq ' ' hspace]

theorem given_map (out : Text) : given (out.map f) = (given out).map (List.map f) := by
  by_cases h : out = [] <;> simp [given, h]

/-- A renamed lexeme ends the renamed statement. -/
theorem ended_map (out : Text) (l : Lexeme) :
    ended (out.map f) (l.map f) = (ended out l).map (List.map f) := by
  cases l with
  | separator => exact given_map f out
  | copied | comment | blank => rfl

theorem ontoAll_map (out : Text) (ls : List Lexeme) :
    ontoAll (out.map f) (ls.map (Lexeme.map f)) = (ontoAll out ls).map f := by
  induction ls generalizing out with
  | nil => rfl
  | cons l ls ih => rw [List.map_cons, ontoAll_cons, ontoAll_cons, onto_map, ih]

theorem closed_map (out : Text) (ls : List Lexeme) :
    closed (out.map f) (ls.map (Lexeme.map f)) = (closed out ls).map (List.map f) := by
  induction ls generalizing out with
  | nil => rfl
  | cons l ls ih =>
    rw [List.map_cons, closed_cons, closed_cons, ended_map, onto_map, ih, List.map_append]

/-- The statements of renamed lexemes are the renamed statements. -/
theorem statementsOf_map (ls : List Lexeme) :
    statementsOf (ls.map (Lexeme.map f)) = (statementsOf ls).map (List.map f) := by
  have hclosed := closed_map f [] ls
  have honto := ontoAll_map f [] ls
  rw [List.map_nil] at hclosed honto
  rw [← closed_append_given_ontoAll, ← closed_append_given_ontoAll, hclosed, honto, given_map,
    List.map_append]

/-- What renamed lexemes come to is renamed. An error keeps its place, because characters keep their
sizes. -/
theorem outcome_map (k : Tokens) (ls : List Lexeme) (r : Text) :
    outcome (k.map f) (ls.map (Lexeme.map f)) (r.map f) = renameOutcome f (outcome k ls r) := by
  unfold outcome
  by_cases hr : r = []
  · rw [if_pos hr, if_pos (List.map_eq_nil_iff.2 hr), statementsOf_map]
    rfl
  · rw [if_neg hr, if_neg (mt List.map_eq_nil_iff.1 hr), textOf_map, f.byteLen_map]
    rfl

end Lexeme

end Renamed

/-! ### Splitting a renamed script -/

namespace Quote

/-- The other quotation mark, and any other character as it is. -/
def swapMark (c : Char) : Char :=
  match ofMark? c with
  | some q => q.other.mark
  | none => c

theorem swapMark_mark (q : Quote) : swapMark q.mark = q.other.mark := by cases q <;> rfl

theorem swapMark_of_ne {c : Char} (h : ∀ q : Quote, c ≠ q.mark) : swapMark c = c := by
  unfold swapMark
  rw [ofMark?_eq_none_iff.2 h]

theorem swapMark_swapMark (c : Char) : swapMark (swapMark c) = c := by
  by_cases h : ∃ q : Quote, c = q.mark
  · obtain ⟨q, rfl⟩ := h
    rw [swapMark_mark, swapMark_mark, other_other]
  · rw [not_exists] at h
    rw [swapMark_of_ne h, swapMark_of_ne h]

/-- Both quotation marks take one byte. -/
theorem utf8Size_swapMark (c : Char) : (swapMark c).utf8Size = c.utf8Size := by
  by_cases h : ∃ q : Quote, c = q.mark
  · obtain ⟨q, rfl⟩ := h
    cases q <;> rfl
  · rw [swapMark_of_ne (not_exists.1 h)]

end Quote

/-- Swapping the two quotation marks. -/
def Renaming.swapMarks : Renaming where
  toFun := Quote.swapMark
  bijective := Function.Involutive.bijective Quote.swapMark_swapMark
  utf8Size_eq := Quote.utf8Size_swapMark
  blank_eq _ hc := Quote.swapMark_of_ne (ne_mark_of_isBlank hc)
  escapeMark_eq := rfl
  mark_eq := Or.inr Quote.swapMark_mark

/-- **Only the structural characters are looked at**: a script whose characters are renamed, under
tokens whose characters are renamed, is split into the renamed statements, or with the error at the
same position that expects the renamed token. In particular the two quotation marks may be
swapped. -/
theorem splitTokens_map (k : Tokens) (script : Text) :
    (∀ f : Renaming,
      splitTokens (k.map f) (script.map f) = renameOutcome f (splitTokens k script)) ∧
      splitTokens (k.map Quote.swapMark) (script.map Quote.swapMark) =
        renameOutcome Quote.swapMark (splitTokens k script) := by
  have hrenamed (f : Renaming) :
      splitTokens (k.map f) (script.map f) = renameOutcome f (splitTokens k script) := by
    -- the reading of the script, renamed, is the one reading of the renamed script
    obtain ⟨ls, r, hls⟩ := exists_lexed k .clear script
    have hmapped := hls.map f
    rw [splitTokens_of_lexed hls, splitTokens_of_lexed hmapped, Lexeme.outcome_map]
  exact ⟨hrenamed, hrenamed .swapMarks⟩

end SqlScript
