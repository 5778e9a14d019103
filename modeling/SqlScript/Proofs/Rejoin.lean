import Mathlib.Control.Monad.Basic
import SqlScript.Proofs.TwoPhases

/-!
# Joining statements

The statements of a script without comments can be joined by the separator, and the joined text is
split into the same statements (`split_intercalate`). The tokens must hold no blanks, and the
separator must stand in none of the tokens that start comments.

A joined text is read like the script, without the blanks that were dropped (`Lexeme.keptAll`).
Dropped blanks, and whole pieces that come to nothing, bring characters together that were apart. No
token comes about in this way: `Tokens.NothingNew k t t'` says that whatever part of a token starts
`t'` also starts `t`, and it holds of what was to be read in the script and what is to be read in
the joined text, wherever the statement so far does not end with a space (`Reads.kept`).
-/

namespace SqlScript

/-! ### Tokens in another text -/

namespace Tokens

/-- Tokens with which statements can be joined by the separator. -/
structure Joinable (k : Tokens) : Prop where
  /-- No token that is looked for holds a blank. -/
  not_isBlank : ∀ u ∈ k.searched, ∀ c ∈ u, isBlank c = false
  /-- A token that starts line comments does not hold the separator. -/
  lineComment : ¬ k.separator <:+: k.lineComment
  /-- A token that starts block comments does not hold the separator. -/
  blockOpen : ¬ k.separator <:+: k.blockOpen

/-- The text `v` is the end of a token that is looked for. -/
def IsTokenEnd (k : Tokens) (v : Text) : Prop := ∃ u ∈ k.searched, v <:+ u

/-- No part of a token starts `t'` unless it starts `t`. Only ends of tokens count: what goes before
them was read already. -/
def NothingNew (k : Tokens) (t t' : Text) : Prop := ∀ v, k.IsTokenEnd v → v <+: t' → v <+: t

variable {k : Tokens} {c : Char} {t t' : Text}

theorem isTokenEnd {u : Text} (hu : u ∈ k.searched) : k.IsTokenEnd u := ⟨u, hu, List.suffix_rfl⟩

theorem IsTokenEnd.of_cons {v : Text} (h : k.IsTokenEnd (c :: v)) : k.IsTokenEnd v := by
  obtain ⟨u, hu, hv⟩ := h
  exact ⟨u, hu, (List.suffix_cons c v).trans hv⟩

/-- No end of a token holds a blank. -/
theorem IsTokenEnd.isBlank_eq_false {v : Text} (hk : k.Joinable) (h : k.IsTokenEnd (c :: v)) :
    isBlank c = false := by
  obtain ⟨u, hu, hv⟩ := h
  exact hk.not_isBlank u hu c (hv.subset List.mem_cons_self)

theorem nothingNew_nil : k.NothingNew t [] := by
  intro v _ hv
  rw [List.prefix_nil.1 hv]
  exact List.nil_prefix

/-- No token goes on with a blank. -/
theorem nothingNew_of_isBlank (hk : k.Joinable) (hc : isBlank c = true) :
    k.NothingNew t (c :: t') := by
  intro v hend hv
  cases v with
  | nil => exact List.nil_prefix
  | cons a v =>
    obtain rfl : a = c := (List.cons_prefix_cons.1 hv).1
    rw [hend.isBlank_eq_false hk] at hc
    cases hc

/-- Nothing new comes about behind the same character. -/
theorem NothingNew.cons (h : k.NothingNew t t') : k.NothingNew (c :: t) (c :: t') := by
  intro v hend hv
  cases v with
  | nil => exact List.nil_prefix
  | cons a v =>
    obtain ⟨hac, hvt⟩ := List.cons_prefix_cons.1 hv
    exact List.cons_prefix_cons.2 ⟨hac, h v hend.of_cons hvt⟩

/-- Nothing new comes about where a separator stands: a part of a token that reaches past it would
hold it. -/
theorem nothingNew_separator (hk : k.Joinable) (w w' : Text) :
    k.NothingNew (k.separator ++ w) (k.separator ++ w') := by
  intro v hend hv
  rcases List.prefix_or_prefix_of_prefix hv (List.prefix_append _ w') with hle | hge
  · exact hle.trans (List.prefix_append _ w)
  · obtain ⟨u, hu, hvu⟩ := hend
    have hin : k.separator <:+: u := hge.isInfix.trans hvu.isInfix
    simp only [searched, List.mem_cons, List.not_mem_nil, or_false] at hu
    rcases hu with rfl | rfl | rfl
    · -- the separator reaches past itself only by nothing
      have hv : v = k.separator :=
        (hge.eq_of_length (Nat.le_antisymm hge.length_le hvu.length_le)).symm
      rw [hv]
      exact List.prefix_append _ w
    · exact absurd hin hk.lineComment
    · exact absurd hin hk.blockOpen

/-- Where no token stood in the script, none stands in the joined text. -/
theorem NothingNew.noneStarts (h : k.NothingNew t t') (hk : k.NoneStarts t) : k.NoneStarts t' where
  separator hs := hk.separator ⟨hs.1, h _ (isTokenEnd separator_mem_searched) hs.2⟩
  lineComment hs := hk.lineComment ⟨hs.1, h _ (isTokenEnd (opener_mem_searched .line)) hs.2⟩
  blockOpen hs := hk.blockOpen ⟨hs.1, h _ (isTokenEnd (opener_mem_searched .block)) hs.2⟩

end Tokens

/-! ### What stays of a statement -/

namespace Lexeme

/-- What stays of a lexeme when `out` was read before: a blank counts as a space, and as nothing at
the start or after a space. -/
def kept (out : Text) : Lexeme → List Lexeme
  | blank _ => if out = [] ∨ out.getLast? = some ' ' then [] else [blank ' ']
  | copied c => [copied c]
  | separator token => [separator token]
  | comment _ _ => []

/-- What stays of lexemes when `out` was read before. -/
def keptAll (out : Text) : List Lexeme → List Lexeme
  | [] => []
  | l :: ls => kept out l ++ keptAll (l.onto out) ls

variable {out : Text} {l : Lexeme} {ls : List Lexeme}

@[simp] theorem keptAll_nil : keptAll out [] = [] := rfl

@[simp] theorem keptAll_cons : keptAll out (l :: ls) = kept out l ++ keptAll (l.onto out) ls := rfl

/-- What stays of a piece comes to the same statement. -/
theorem ontoAll_kept (h : l.isSeparator = false) : ontoAll out (kept out l) = l.onto out := by
  cases l with
  | copied c => rfl
  | separator => cases h
  | comment => rfl
  | blank c =>
    by_cases hout : out = [] ∨ out.getLast? = some ' ' <;> simp [kept, onto, hout]

theorem ontoAll_keptAll (h : ∀ l ∈ ls, l.isSeparator = false) :
    ontoAll out (keptAll out ls) = ontoAll out ls := by
  induction ls generalizing out with
  | nil => rfl
  | cons l ls ih =>
    obtain ⟨hl, hls⟩ := List.forall_mem_cons.1 h
    rw [keptAll_cons, ontoAll_append, ontoAll_kept hl, ih hls, ontoAll_cons]

/-- What stays of a piece is its statement. -/
theorem append_textOf_kept (h : l.isSeparator = false) :
    out ++ textOf (kept out l) = l.onto out := by
  cases l with
  | copied c => rfl
  | separator => cases h
  | comment => exact List.append_nil out
  | blank c =>
    by_cases hout : out = [] ∨ out.getLast? = some ' ' <;> simp [kept, onto, hout, text]

/-- What stays of lexemes without separators is, as text, the statement that they make. -/
theorem append_textOf_keptAll (out : Text) (h : ∀ l ∈ ls, l.isSeparator = false) :
    out ++ textOf (keptAll out ls) = ontoAll out ls := by
  induction ls generalizing out with
  | nil => exact List.append_nil out
  | cons l ls ih =>
    obtain ⟨hl, hls⟩ := List.forall_mem_cons.1 h
    rw [keptAll_cons, textOf_append, ← List.append_assoc, append_textOf_kept hl, ih _ hls,
      ontoAll_cons]

/-- Nothing that stays is a separator, if there was none. -/
theorem isSeparator_of_mem_keptAll (h : ∀ l ∈ ls, l.isSeparator = false) :
    ∀ l ∈ keptAll out ls, l.isSeparator = false := by
  induction ls generalizing out with
  | nil => exact fun l hl => by cases hl
  | cons l ls ih =>
    obtain ⟨hl, hls⟩ := List.forall_mem_cons.1 h
    intro m hm
    rcases List.mem_append.1 hm with hm | hm
    · cases l with
      | copied c => simp_all [kept, isSeparator]
      | separator => cases hl
      | comment => cases hm
      | blank c =>
        rw [kept] at hm
        split at hm <;> simp_all [isSeparator]
    · exact ih hls m hm

end Lexeme

/-! ### Reading what stays -/

section Reads

variable {k : Tokens} {x : Context} {t r r' w w' : Text} {c : Char} {ls : List Lexeme}

/-- A separator is read in the same way whatever follows it. -/
theorem Lexes.separator_append (h : Lexes k x (k.separator ++ w) (.separator k.separator) w) :
    Lexes k x (k.separator ++ w') (.separator k.separator) w' := by
  generalize ht : k.separator ++ w = t at h
  cases h with
  | @separator c t r hc hs _ =>
    obtain ⟨a, u, hu⟩ := List.exists_cons_of_ne_nil hs
    rw [hu, List.cons_append] at ht ⊢
    obtain rfl : a = c := (List.cons.inj ht).1
    rw [← hu]
    exact .separator hc hs (by rw [hu, List.cons_append])

/-- What stays of a piece is read like the piece, if nothing new follows. -/
theorem Reads.kept (hk : k.Joinable) (out : Text) (h : Reads k x t ls r) (hr : k.NothingNew r r')
    (hls : ∀ l ∈ ls, l.isSeparator = false ∧ l.isComment = false) :
    Reads k x (Lexeme.textOf (Lexeme.keptAll out ls) ++ r') (Lexeme.keptAll out ls) r' ∧
      x.passAll (Lexeme.keptAll out ls) = x.passAll ls ∧
      (out = [] ∨ out.getLast? = some ' ' ∨
        k.NothingNew t (Lexeme.textOf (Lexeme.keptAll out ls) ++ r')) := by
  induction h generalizing out with
  | nil => exact ⟨.nil, rfl, Or.inr (Or.inr hr)⟩
  | @cons x t t₁ r l ls hl _ ih =>
    obtain ⟨⟨hsep, hcom⟩, hls⟩ := List.forall_mem_cons.1 hls
    obtain ⟨hreads, hpass, hnew⟩ := ih (l.onto out) hr hls
    -- behind a copied space no token goes on, behind another character nothing was dropped
    have hcopied {c : Char} (hout : out ++ [c] = [] ∨ (out ++ [c]).getLast? = some ' ' ∨
        k.NothingNew t₁ (Lexeme.textOf (Lexeme.keptAll (out ++ [c]) ls) ++ r')) :
        k.NothingNew (c :: t₁) (c :: (Lexeme.textOf (Lexeme.keptAll (out ++ [c]) ls) ++ r')) := by
      rcases hout with hnil | hspace | hnew
      · simp at hnil
      · rw [List.getLast?_concat, Option.some.injEq] at hspace
        exact Tokens.nothingNew_of_isBlank hk (by rw [hspace]; rfl)
      · exact hnew.cons
    cases hl with
    | @literal c t hc =>
      exact ⟨.cons (.literal hc) hreads, hpass, Or.inr (Or.inr (hcopied hnew))⟩
    | @plain c t hc hnone hb =>
      have hall := hcopied hnew
      exact ⟨.cons (.plain hc (hall.noneStarts hnone) hb) hreads, hpass, Or.inr (Or.inr hall)⟩
    | @blank c t hc hnone hb =>
      obtain rfl := Context.eq_clear_of_isBlank hb hc
      rw [Lexeme.keptAll_cons, Lexeme.kept]
      by_cases hout : out = [] ∨ out.getLast? = some ' '
      · -- the blank is dropped
        rw [Lexeme.onto, if_pos hout] at hreads hpass
        rw [if_pos hout, Lexeme.onto, if_pos hout]
        refine ⟨hreads, hpass, ?_⟩
        rcases hout with hnil | hspace
        · exact Or.inl hnil
        · exact Or.inr (Or.inl hspace)
      · -- no token starts with the space that stands for the blank
        have hall : k.NothingNew (c :: t₁)
            (' ' :: (Lexeme.textOf (Lexeme.keptAll ((Lexeme.blank c).onto out) ls) ++ r')) :=
          Tokens.nothingNew_of_isBlank hk rfl
        rw [if_neg hout]
        exact ⟨.cons (.blank rfl (hall.noneStarts hnone) rfl) hreads, hpass,
          Or.inr (Or.inr hall)⟩
    -- a piece holds neither separators nor comments
    | separator => cases hsep
    | lineComment => cases hcom
    | blockComment => cases hcom

end Reads

/-! ### Statements that can be joined -/

/-- The text `s` is read as a statement on its own. -/
def Alone (k : Tokens) (s : Text) : Prop :=
  ∃ ls, Reads k .clear s ls [] ∧ Lexeme.closed [] ls = [] ∧ Lexeme.ontoAll [] ls = s

/-- The text `s` is read as a statement that a separator ends, whatever follows the separator. -/
def Closes (k : Tokens) (s : Text) : Prop :=
  ∀ w, ∃ ls, Reads k .clear (s ++ (k.separator ++ w)) ls w ∧ Lexeme.closed [] ls = [s] ∧
    Lexeme.ontoAll [] ls = [] ∧ Context.clear.passAll ls = .clear

/-- The statements can be joined: each is read on its own, and before a separator if others follow
it. -/
inductive Joins (k : Tokens) : List Text → Prop
  /-- No statements. -/
  | nil : Joins k []
  /-- A statement before others. -/
  | cons {s : Text} {ts : List Text} (hne : s ≠ []) (halone : Alone k s)
      (hcloses : ts ≠ [] → Closes k s) (hts : Joins k ts) : Joins k (s :: ts)

section Joins

variable {k : Tokens} {t r : Text} {s : Text} {ts : List Text} {ls piece : List Lexeme}

theorem textOf_keptAll (hp : ∀ l ∈ piece, l.isSeparator = false) :
    Lexeme.textOf (Lexeme.keptAll [] piece) = Lexeme.ontoAll [] piece :=
  Lexeme.append_textOf_keptAll [] hp

/-- The statement of a piece is read on its own. -/
theorem alone_of_reads (hk : k.Joinable) (h : Reads k .clear t piece r)
    (hp : ∀ l ∈ piece, l.isSeparator = false ∧ l.isComment = false) :
    Alone k (Lexeme.ontoAll [] piece) := by
  have hsep : ∀ l ∈ piece, l.isSeparator = false := fun l hl => (hp l hl).1
  have hreads := (h.kept hk [] Tokens.nothingNew_nil hp).1
  rw [textOf_keptAll hsep, List.append_nil] at hreads
  exact ⟨_, hreads, Lexeme.closed_of_not_isSeparator (Lexeme.isSeparator_of_mem_keptAll hsep),
    Lexeme.ontoAll_keptAll hsep⟩

/-- The statement of a piece before a separator is read in the same way before any other text behind
the separator. -/
theorem closes_of_reads (hk : k.Joinable) (h : Reads k .clear t piece (k.separator ++ r))
    (hs : Lexes k (Context.clear.passAll piece) (k.separator ++ r) (.separator k.separator) r)
    (hp : ∀ l ∈ piece, l.isSeparator = false ∧ l.isComment = false)
    (hne : Lexeme.ontoAll [] piece ≠ []) : Closes k (Lexeme.ontoAll [] piece) := by
  intro w
  have hsep : ∀ l ∈ piece, l.isSeparator = false := fun l hl => (hp l hl).1
  obtain ⟨hreads, hpass, -⟩ := h.kept hk [] (Tokens.nothingNew_separator hk r w) hp
  have hlast : Lexes k (Context.clear.passAll (Lexeme.keptAll [] piece)) (k.separator ++ w)
      (.separator k.separator) w := by
    rw [hpass]
    exact hs.separator_append
  rw [textOf_keptAll hsep] at hreads
  refine ⟨_, hreads.append (.one hlast), ?_, ?_, ?_⟩
  · rw [Lexeme.closed_append, Lexeme.closed_of_not_isSeparator
      (Lexeme.isSeparator_of_mem_keptAll hsep), Lexeme.ontoAll_keptAll hsep]
    simp [Lexeme.given_of_ne_nil hne]
  · rw [Lexeme.ontoAll_append]
    rfl
  · rw [Context.passAll_append]
    rfl

/-- The statements of a script without comments can be joined. -/
theorem joins_of_reads (hk : k.Joinable) {m : Text} (h : Reads k .clear t piece m)
    (h' : Reads k (Context.clear.passAll piece) m ls [])
    (hp : ∀ l ∈ piece, l.isSeparator = false ∧ l.isComment = false)
    (hls : ∀ l ∈ ls, l.isComment = false) :
    Joins k (Lexeme.closed (Lexeme.ontoAll [] piece) ls ++
      Lexeme.given (Lexeme.ontoAll (Lexeme.ontoAll [] piece) ls)) := by
  -- the lexemes up to the next separator are gathered in the piece
  induction ls generalizing t m piece with
  | nil =>
    by_cases hne : Lexeme.ontoAll [] piece = []
    · simp [hne, Joins.nil]
    · rw [Lexeme.closed_nil, Lexeme.ontoAll_nil, List.nil_append, Lexeme.given_of_ne_nil hne]
      exact .cons hne (alone_of_reads hk h hp) (fun hnil => absurd rfl hnil) .nil
  | cons l ls ih =>
    obtain ⟨hcom, hcoms⟩ := List.forall_mem_cons.1 hls
    cases h' with
    | @cons _ _ m' _ _ _ hl hreads =>
      by_cases hsep : l.isSeparator = true
      · -- the piece is complete, and the next one starts behind the separator
        obtain rfl := hl.eq_separator hsep
        have hnil : Reads k .clear m' [] m' := .nil
        have hrest : Joins k (Lexeme.closed [] ls ++ Lexeme.given (Lexeme.ontoAll [] ls)) :=
          ih hnil hreads (fun _ hl => by cases hl) hcoms
        have hm : m = k.separator ++ m' := hl.text_append
        rw [hm] at h hl
        by_cases hne : Lexeme.ontoAll [] piece = []
        · rw [hne]
          exact hrest
        · rw [Lexeme.closed_cons, Lexeme.ended_separator, Lexeme.given_of_ne_nil hne]
          exact .cons hne (alone_of_reads hk h hp) (fun _ => closes_of_reads hk h hl hp hne) hrest
      · have hpiece : ∀ l' ∈ piece ++ [l], l'.isSeparator = false ∧ l'.isComment = false := by
          intro l' hl'
          rcases List.mem_append.1 hl' with hl' | hl'
          · exact hp l' hl'
          · rw [List.mem_singleton.1 hl']
            exact ⟨by simpa using hsep, hcom⟩
        have hreads' : Reads k (Context.clear.passAll (piece ++ [l])) m' ls [] := by
          rwa [Context.passAll_append]
        have hall := ih (h.append (.one hl)) hreads' hpiece hcoms
        rw [Lexeme.closed_cons, Lexeme.ended_of_not_isSeparator (by simpa using hsep)]
        rwa [Lexeme.ontoAll_append] at hall

/-- Each of the statements is split into itself. -/
theorem Joins.splitTokens_of_mem (h : Joins k ts) (hs : s ∈ ts) : splitTokens k s = .ok [s] := by
  induction h with
  | nil => cases hs
  | @cons s' ts hne halone _ _ ih =>
    rcases List.mem_cons.1 hs with rfl | hs
    · obtain ⟨ls, hreads, hclosed, honto⟩ := halone
      rw [splitTokens_of_reads hreads, hclosed, honto, Lexeme.given_of_ne_nil hne,
        List.nil_append]
    · exact ih hs

/-- The joined statements are read as the same statements. -/
theorem Joins.exists_reads (h : Joins k ts) :
    ∃ ls, Reads k .clear (k.separator.intercalate ts) ls [] ∧
      Lexeme.closed [] ls ++ Lexeme.given (Lexeme.ontoAll [] ls) = ts := by
  induction h with
  | nil => exact ⟨[], .nil, rfl⟩
  | @cons s ts hne halone hcloses _ ih =>
    by_cases hts : ts = []
    · -- no separator follows the last statement
      obtain ⟨ls, hreads, hclosed, honto⟩ := halone
      subst hts
      refine ⟨ls, ?_, ?_⟩
      · rwa [List.intercalate_singleton]
      · rw [hclosed, honto, Lexeme.given_of_ne_nil hne, List.nil_append]
    · obtain ⟨ms, hreads', hall⟩ := ih
      obtain ⟨ls, hreads, hclosed, honto, hpass⟩ :=
        hcloses hts (k.separator.intercalate ts)
      refine ⟨ls ++ ms, ?_, ?_⟩
      · rw [List.intercalate_cons_of_ne_nil hts, List.append_assoc]
        refine hreads.append ?_
        rwa [hpass]
      · rw [Lexeme.closed_append, Lexeme.ontoAll_append, hclosed, honto, List.append_assoc, hall]
        rfl

end Joins

/-! ### Scripts without comments -/

/-- A comment among the lexemes is among the events. -/
theorem Lexeme.exists_skipped_mem_logAll (position : Nat) (out : Text) {ls : List Lexeme}
    {kind : Comment} {u : Text} (h : comment kind u ∈ ls) :
    ∃ stop, Event.skipped kind stop ∈ logAll position out ls := by
  induction ls generalizing position out with
  | nil => cases h
  | cons l ls ih =>
    rcases List.mem_cons.1 h with rfl | h
    · exact ⟨_, List.mem_append_left _ (List.mem_singleton.2 rfl)⟩
    · obtain ⟨stop, hstop⟩ := ih (position + Text.byteLen l.text) (l.onto out) h
      exact ⟨stop, List.mem_append_right _ hstop⟩

variable {d : Delimiters} {script : Text} {ts : List Text}

/-- **Joined statements are split again**: if a script has no comments, and the tokens hold no
blanks and overlap in no harmful way, then its statements, joined by the separator, are split into
the same statements, and each of them on its own is split into itself. -/
theorem split_intercalate (hd : d.tokens.Joinable)
    (hskip : ∀ kind stop, Event.skipped kind stop ∉ (trace d script).2)
    (h : split d script = .ok ts) :
    split d (d.separator.val.intercalate ts) = .ok ts ∧ ∀ s ∈ ts, split d s = .ok [s] := by
  obtain ⟨ls, hreads, hts⟩ := reads_of_splitTokens h
  have hevents : (trace d script).2 = Lexeme.logAll 0 [] ls ++
      (Statements.ofScan d.tokens ((Scan.start script).afterAll ls [])).drain.events :=
    congrArg Answer.events (Statements.drain_of_reads (s := .start script) hreads)
  have hcom : ∀ l ∈ ls, l.isComment = false := by
    intro l hl
    cases l with
    | comment kind u =>
      obtain ⟨stop, hstop⟩ := Lexeme.exists_skipped_mem_logAll 0 [] hl
      refine absurd ?_ (hskip kind stop)
      rw [hevents]
      exact List.mem_append_left _ hstop
    | copied c => rfl
    | separator token => rfl
    | blank c => rfl
  have hjoins : Joins d.tokens ts := by
    have hnil : Reads d.tokens .clear script [] script := .nil
    rw [← hts]
    exact joins_of_reads hd hnil hreads (fun _ hl => by cases hl) hcom
  refine ⟨?_, fun s hs => hjoins.splitTokens_of_mem hs⟩
  obtain ⟨ms, hreads', hall⟩ := hjoins.exists_reads
  have hsplit := splitTokens_of_reads hreads'
  rwa [hall] at hsplit

/-- A separator that is quoted and one that is escaped are read in the joined text as in the
script. -/
theorem split_intercalate_of_quotation :
    split .standard ['a', ';', '\x27', ';', ' ', ' ', '\x27', '\\', ';', ' ', 'b'] =
        .ok [['a'], ['\x27', ';', ' ', ' ', '\x27', '\\', ';', ' ', 'b']] ∧
      split .standard ['\x27', ';', ' ', ' ', '\x27', '\\', ';', ' ', 'b'] =
        .ok [['\x27', ';', ' ', ' ', '\x27', '\\', ';', ' ', 'b']] := by
  have hevents : (trace .standard [' ', 'a', ';', '\n', '\x27', ';', ' ', ' ', '\x27', '\\', ';',
      '\n', '\t', 'b', ';', ';']).2 = [.closed 3 1, .closed 15 9] := by decide +kernel
  have hd : Delimiters.standard.tokens.Joinable := by
    refine ⟨?_, by decide, by decide⟩
    simp [Tokens.searched, Delimiters.standard, Delimiters.tokens, Token.cons, isBlank]
  obtain ⟨hjoined, halone⟩ := @split_intercalate .standard
    [' ', 'a', ';', '\n', '\x27', ';', ' ', ' ', '\x27', '\\', ';', '\n', '\t', 'b', ';', ';']
    [['a'], ['\x27', ';', ' ', ' ', '\x27', '\\', ';', ' ', 'b']]
    hd (by rw [hevents]; simp) (by decide +kernel)
  exact ⟨hjoined, halone _ (by simp)⟩

end SqlScript
