import Mathlib.Logic.Relation
import SqlScript.Proofs.Lexeme

/-!
# Readings

A reading cuts a text into lexemes. `Reads k x t ls r` says that `t`, read in the context `x`,
starts with the lexemes `ls`, and that `r` is left; `Lexed k x t ls r` says that nothing more can be
read from `r` on.

* `Reads.text_append`: the lexemes and what is left are the whole text;
* `exists_lexed` and `Lexed.unique`: there is exactly one reading of a text up to where it stops;
* `Reads.cut`: a text may be cut off behind its lexemes, if the tokens that start its comments are
  not cut;
* `Scan.reaches_of_reads`: the scan follows the reading.
-/

namespace SqlScript

/-- What the lexemes stand for in the script. -/
def Lexeme.textOf (ls : List Lexeme) : Text := ls.flatMap text

/-- The statement read so far, with more lexemes. -/
def Lexeme.ontoAll (out : Text) (ls : List Lexeme) : Text := ls.foldl onto out

/-- The context after lexemes. -/
def Context.passAll (x : Context) (ls : List Lexeme) : Context := ls.foldl pass x

namespace Lexeme

variable {l : Lexeme} {ls ms : List Lexeme} {out : Text}

@[simp] theorem textOf_nil : textOf [] = [] := rfl

@[simp] theorem textOf_cons : textOf (l :: ls) = l.text ++ textOf ls := rfl

@[simp] theorem textOf_append : textOf (ls ++ ms) = textOf ls ++ textOf ms :=
  List.flatMap_append

@[simp] theorem ontoAll_nil : ontoAll out [] = out := rfl

@[simp] theorem ontoAll_cons : ontoAll out (l :: ls) = ontoAll (l.onto out) ls := rfl

@[simp] theorem ontoAll_append : ontoAll out (ls ++ ms) = ontoAll (ontoAll out ls) ms :=
  List.foldl_append

end Lexeme

namespace Context

variable {x : Context} {l : Lexeme} {ls ms : List Lexeme}

@[simp] theorem passAll_nil : x.passAll [] = x := rfl

@[simp] theorem passAll_cons : x.passAll (l :: ls) = (x.pass l).passAll ls := rfl

@[simp] theorem passAll_append : x.passAll (ls ++ ms) = (x.passAll ls).passAll ms :=
  List.foldl_append

end Context

/-- Read in the context `x`, the text `t` starts with the lexemes `ls`, and `r` is left. -/
inductive Reads (k : Tokens) : Context → Text → List Lexeme → Text → Prop
  /-- Nothing is read. -/
  | nil {x : Context} {t : Text} : Reads k x t [] t
  /-- One lexeme is read, and then others. -/
  | cons {x : Context} {t t' r : Text} {l : Lexeme} {ls : List Lexeme} (hl : Lexes k x t l t')
      (hls : Reads k (x.pass l) t' ls r) : Reads k x t (l :: ls) r

/-- Read in the context `x`, the text `t` is made of the lexemes `ls` up to `r`, where the reading
stops. -/
structure Lexed (k : Tokens) (x : Context) (t : Text) (ls : List Lexeme) (r : Text) : Prop where
  /-- The lexemes are read. -/
  reads : Reads k x t ls r
  /-- Nothing more can be read. -/
  stops : Stops k (x.passAll ls) r

section Reads

variable {k : Tokens} {x : Context} {t r r' : Text} {ls ls' ms : List Lexeme}

/-! ### Lexemes one after the other -/

theorem Reads.one {l : Lexeme} (h : Lexes k x t l r) : Reads k x t [l] r := .cons h .nil

theorem Reads.append {m : Text} (h : Reads k x t ls m) (h' : Reads k (x.passAll ls) m ms r) :
    Reads k x t (ls ++ ms) r := by
  induction h with
  | nil => exact h'
  | cons hl _ ih => exact .cons hl (ih h')

/-- A reading can be taken apart between any two of its lexemes. -/
theorem Reads.of_append (h : Reads k x t (ls ++ ms) r) :
    ∃ m, Reads k x t ls m ∧ Reads k (x.passAll ls) m ms r := by
  induction ls generalizing x t with
  | nil => exact ⟨t, .nil, h⟩
  | cons l ls ih =>
    cases h with
    | cons hl hls =>
      obtain ⟨m, hm, hms⟩ := ih hls
      exact ⟨m, .cons hl hm, hms⟩

/-- The lexemes and what is left are the whole text. -/
theorem Reads.text_append (h : Reads k x t ls r) : t = Lexeme.textOf ls ++ r := by
  induction h with
  | nil => rfl
  | cons hl _ ih => rw [Lexeme.textOf_cons, List.append_assoc, ← ih, ← hl.text_append]

theorem Reads.suffix (h : Reads k x t ls r) : r <:+ t :=
  ⟨Lexeme.textOf ls, h.text_append.symm⟩

/-- Lexemes stand for something in the script. -/
theorem Reads.textOf_ne_nil (h : Reads k x t ls r) (hne : ls ≠ []) : Lexeme.textOf ls ≠ [] := by
  cases h with
  | nil => exact absurd rfl hne
  | cons hl => exact List.append_ne_nil_of_left_ne_nil hl.text_ne_nil _

/-! ### There is one reading -/

theorem Stops.not_lexes {l : Lexeme} (h : Stops k x t) : ¬ Lexes k x t l r := by
  intro hl
  rcases h with rfl | ⟨hc, hs, hline, ho, hb⟩
  · cases hl
  · cases hl with
    | literal hc' => simp_all
    | separator _ hs' ht' => exact hs ⟨hs', _, ht'.symm⟩
    | lineComment _ _ hline' => exact hline hline'
    | blockComment _ _ _ _ ht' => exact hb ⟨_, r, by rw [ht', List.append_assoc]⟩
    | blank _ hk' => exact hk'.blockOpen ho
    | plain _ hk' => exact hk'.blockOpen ho

/-- Every text has a reading up to where it stops. -/
theorem exists_lexed (k : Tokens) (x : Context) (t : Text) : ∃ ls r, Lexed k x t ls r := by
  -- every lexeme leaves less to be read
  induction h : t.length using Nat.strongRecOn generalizing x t with
  | ind n ih =>
    rcases stops_or_lexes k x t with hstop | ⟨l, t', hl⟩
    · exact ⟨[], t, .nil, hstop⟩
    · have hlt : t'.length < n := h ▸ hl.length_lt
      obtain ⟨ls, r, hls⟩ := ih t'.length hlt (x.pass l) t' rfl
      exact ⟨l :: ls, r, .cons hl hls.reads, hls.stops⟩

/-- A text has one reading only. -/
theorem Lexed.unique (h : Lexed k x t ls r) (h' : Lexed k x t ls' r') : ls = ls' ∧ r = r' := by
  obtain ⟨hr, hstop⟩ := h
  obtain ⟨hr', hstop'⟩ := h'
  -- neither reading stops where the other one goes on
  induction hr generalizing ls' with
  | nil =>
    cases hr' with
    | nil => exact ⟨rfl, rfl⟩
    | cons hl => exact absurd hl hstop.not_lexes
  | cons hl hls ih =>
    cases hr' with
    | nil => exact absurd hl hstop'.not_lexes
    | cons hl' hls' =>
      obtain ⟨rfl, rfl⟩ := hl.unique hl'
      obtain ⟨rfl, rfl⟩ := ih hstop hls' hstop'
      exact ⟨rfl, rfl⟩

/-! ### Cutting a text off -/

/-- The token that starts each comment among the lexemes is read with them. -/
def OpenersWithin (k : Tokens) : List Lexeme → Prop
  | [] => True
  | l :: ls =>
    (∀ kind u, l = .comment kind u → k.opener kind <+: Lexeme.textOf (l :: ls)) ∧
      OpenersWithin k ls

theorem Tokens.NoneStarts.of_append {u v : Text} (h : k.NoneStarts (u ++ v)) : k.NoneStarts u where
  separator hs := h.separator (hs.append v)
  lineComment hl := h.lineComment (hl.append v)
  blockOpen ho := h.blockOpen (ho.append v)

/-- A lexeme is read also if the text is cut off behind it, unless a token that starts a comment is
cut. -/
theorem Lexes.cut {l : Lexeme} {m v : Text} (h : Lexes k x (l.text ++ (m ++ v)) l (m ++ v))
    (ho : ∀ kind u, l = .comment kind u → k.opener kind <+: l.text ++ m) :
    Lexes k x (l.text ++ m) l m := by
  generalize ht : l.text ++ (m ++ v) = t at h
  cases h with
  | literal hc => exact .literal hc
  | @separator c t r hc hs ht' =>
    -- the separator is kept as a whole, and with it the first character
    obtain ⟨c', u, hu⟩ := List.exists_cons_of_ne_nil hs
    have hcons : k.separator ++ m = c' :: (u ++ m) := by rw [hu, List.cons_append]
    have hcc : c = c' := by
      rw [hu, List.cons_append] at ht'
      exact (List.cons.inj ht').1
    subst hcc
    rw [Lexeme.text, hcons]
    exact .separator hc hs hcons.symm
  | @lineComment c t body r hc hs hl ht' hb hr =>
    have hcut : c :: t = (c :: (body ++ m)) ++ v := by rw [ht']; simp
    rw [hcut] at hs
    refine .lineComment hc (fun h => hs (h.append v)) ⟨hl.1, ho .line _ rfl⟩ rfl hb ?_
    -- the newline is cut off, or it is what is left
    cases m with
    | nil => exact Or.inl rfl
    | cons a m => exact Or.inr (by simpa using hr)
  | @blockComment c t body r hc hs hl ho' ht' hb =>
    have hcut : c :: t = (c :: (body ++ (k.blockClose ++ m))) ++ v := by rw [ht']; simp
    rw [hcut] at hs hl
    have htext : (Lexeme.comment .block (c :: (body ++ k.blockClose))).text ++ m =
        c :: (body ++ (k.blockClose ++ m)) := by simp [Lexeme.text]
    have hopen := ho .block _ rfl
    rw [htext] at hopen ⊢
    refine .blockComment hc (fun h => hs (h.append v)) (fun h => hl (h.append v))
      ⟨ho'.1, hopen⟩ rfl ?_
    -- the closing token stands no earlier than in the whole text
    intro body' r' h
    refine hb body' (r' ++ v) ?_
    calc t = (body ++ (k.blockClose ++ m)) ++ v := (List.cons.inj hcut).2
      _ = body' ++ (k.blockClose ++ (r' ++ v)) := by rw [h]; simp
  | blank hc hk hb => exact .blank hc (Tokens.NoneStarts.of_append (v := v) hk) hb
  | plain hc hk hb => exact .plain hc (Tokens.NoneStarts.of_append (v := v) hk) hb

/-- A text may be cut off behind its lexemes. -/
theorem Reads.cut {v : Text} (h : Reads k x t ls (r ++ v)) (ho : OpenersWithin k ls) :
    Reads k x (Lexeme.textOf ls ++ r) ls r := by
  generalize hv : r ++ v = w at h
  induction h with
  | nil => exact .nil
  | @cons x t t' w l ls hl hls ih =>
    have ht' : t' = (Lexeme.textOf ls ++ r) ++ v := by
      rw [hls.text_append, ← hv, List.append_assoc]
    have ht := hl.text_append
    rw [ht, ht'] at hl
    have hl' := hl.cut fun kind u hu => (ho.1 kind u hu).trans (by simp)
    rw [Lexeme.textOf_cons, List.append_assoc]
    exact .cons hl' (ih ho.2 hv)

end Reads

/-! ### The scan follows the reading -/

namespace Scan

/-- Where the scan stands after the lexemes `ls`, which `r` follows. -/
def afterAll (s : Scan) (ls : List Lexeme) (r : Text) : Scan where
  rest := r
  position := s.position + Text.byteLen (Lexeme.textOf ls)
  context := s.context.passAll ls
  pending := (Lexeme.ontoAll s.statement ls).reverse

/-- The scan goes on from `s` to `s'` in some number of steps. -/
def Reaches (k : Tokens) : Scan → Scan → Prop :=
  Relation.ReflTransGen fun s s' => (s.step k).scan? = some s'

variable {k : Tokens} {s s' : Scan} {l : Lexeme} {ls : List Lexeme} {r r' : Text}

@[simp] theorem statement_afterAll :
    (s.afterAll ls r).statement = Lexeme.ontoAll s.statement ls := by
  simp [afterAll, statement]

/-- From the start of a script, positions are the lengths of what was read. -/
theorem position_start_afterAll {script : Text} :
    ((start script).afterAll ls r).position = Text.byteLen (Lexeme.textOf ls) :=
  Nat.zero_add _

@[simp] theorem afterAll_nil : s.afterAll [] s.rest = s := by
  simp [afterAll, statement]

@[simp] theorem afterAll_singleton : s.afterAll [l] r = s.after l r := by
  simp [afterAll, after]

@[simp] theorem afterAll_afterAll {ms : List Lexeme} :
    (s.afterAll ls r').afterAll ms r = s.afterAll (ls ++ ms) r := by
  simp [afterAll, statement, Nat.add_assoc]

@[simp] theorem afterAll_after : (s.after l r').afterAll ls r = s.afterAll (l :: ls) r := by
  simp [afterAll, Nat.add_assoc]

theorem scan?_step_of_lexes (h : Lexes k s.context s.rest l r) :
    (s.step k).scan? = some (s.after l r) := by
  rw [step_of_lexes h, scan?_take]

/-- The scan goes on to where a reading of its rest ends. -/
theorem reaches_of_reads (h : Reads k s.context s.rest ls r) : Reaches k s (s.afterAll ls r) := by
  induction ls generalizing s with
  | nil =>
    cases h
    rw [afterAll_nil]
    exact .refl
  | cons l ls ih =>
    cases h with
    | @cons _ _ t' _ _ _ hl hls =>
      have hstep := ih (s := s.after l t') hls
      rw [afterAll_after] at hstep
      exact .head (scan?_step_of_lexes hl) hstep

/-- A step that goes on takes a lexeme. -/
theorem exists_lexes_of_scan?_step (h : (s.step k).scan? = some s') :
    ∃ l, Lexes k s.context s.rest l s'.rest ∧ s' = s.after l s'.rest := by
  rcases stops_or_lexes k s.context s.rest with (hnil | hunclosed) | ⟨l, r, hl⟩
  · rw [step_of_rest_eq_nil hnil] at h
    cases h
  · rw [step_of_unclosed hunclosed] at h
    cases h
  · rw [scan?_step_of_lexes hl, Option.some.injEq] at h
    subst h
    exact ⟨l, hl, rfl⟩

/-- A step ends the scan at the end of the script only. -/
theorem rest_eq_nil_of_step (h : s.step k = .finished) : s.rest = [] := by
  rcases stops_or_lexes k s.context s.rest with (hnil | hunclosed) | ⟨l, r, hl⟩
  · exact hnil
  · rw [step_of_unclosed hunclosed] at h
    cases h
  · have hscan := scan?_step_of_lexes hl
    rw [h] at hscan
    cases hscan

/-- A step gives up at a block comment that is never closed only. -/
theorem unclosed_of_step (h : s.step k = .unterminated) : Unclosed k s.context s.rest := by
  rcases stops_or_lexes k s.context s.rest with (hnil | hunclosed) | ⟨l, r, hl⟩
  · rw [step_of_rest_eq_nil hnil] at h
    cases h
  · exact hunclosed
  · have hscan := scan?_step_of_lexes hl
    rw [h] at hscan
    cases hscan

/-- Wherever the scan goes on to, a reading of its rest ends there. -/
theorem reads_of_reaches (h : Reaches k s s') :
    ∃ ls, Reads k s.context s.rest ls s'.rest ∧ s' = s.afterAll ls s'.rest := by
  induction h with
  | refl => exact ⟨[], .nil, afterAll_nil.symm⟩
  | @tail m s' _ hstep ih =>
    obtain ⟨ls, hls, hm⟩ := ih
    obtain ⟨l, hl, hs'⟩ := exists_lexes_of_scan?_step hstep
    have hcontext : m.context = s.context.passAll ls := congrArg Scan.context hm
    rw [hcontext] at hl
    refine ⟨ls ++ [l], hls.append (.one hl), ?_⟩
    calc s' = m.after l s'.rest := hs'
      _ = (s.afterAll ls m.rest).after l s'.rest := by rw [← hm]
      _ = s.afterAll (ls ++ [l]) s'.rest := by rw [← afterAll_singleton, afterAll_afterAll]

end Scan

end SqlScript
