import Mathlib.Data.List.Basic
import SqlScript.Blank

/-!
# Words

The words of a text are its longest runs of characters that are no blanks. `Text.Worded t ws` says
so without a computation: `t` is the words `ws` with blanks around them, and a word goes on until a
blank or the end. `Text.words` finds them, and nothing else is worded (`worded_iff`).

Collapsing a text writes its words with single spaces between them. The blanks before the first word
are dropped, and those after the last word leave one space (`collapse_of_worded`). Whether a blank
counts depends on the character that was written last, which stays the same if what was written is
collapsed again (`collapseFrom_collapseFrom_append`). A text may thus be collapsed piece by piece.
-/

namespace SqlScript.Text

/-- The words of a text: what stands between its blanks, where that is not empty. -/
def words (t : Text) : List Text := (t.splitOnP isBlank).filter (· ≠ [])

/-- The text `t` is made of the words `ws` and of blanks. Words are not empty and hold no blanks,
and between any two of them there is a blank. -/
inductive Worded : Text → List Text → Prop
  /-- The empty text has no words. -/
  | nil : Worded [] []
  /-- A blank belongs to no word. -/
  | blank {c : Char} {t : Text} {ws : List Text} (hc : isBlank c = true) (h : Worded t ws) :
      Worded (c :: t) ws
  /-- A word reaches to a blank or to the end. -/
  | word {w t : Text} {ws : List Text} (hne : w ≠ []) (hw : ∀ c ∈ w, isBlank c = false)
      (ht : ∀ c ∈ t.head?, isBlank c = true) (h : Worded t ws) : Worded (w ++ t) (w :: ws)

variable {t w : Text} {ws : List Text} {c : Char} {spaced : Bool}

/-! ### Finding words -/

/-- Words are found apart on the two sides of a blank. -/
theorem words_append_cons (hc : isBlank c = true) (s t : Text) :
    words (s ++ c :: t) = words s ++ words t := by
  unfold words
  rw [List.splitOnP_append_cons s t hc, List.filter_append]

@[simp] theorem words_nil : words [] = [] := rfl

theorem words_cons_of_isBlank (hc : isBlank c = true) (t : Text) : words (c :: t) = words t := by
  have h := words_append_cons hc [] t
  rwa [words_nil, List.nil_append, List.nil_append] at h

theorem words_eq_singleton (hne : w ≠ []) (hw : ∀ c ∈ w, isBlank c = false) : words w = [w] := by
  unfold words
  rw [List.splitOnP_eq_singleton hw, List.filter_cons_of_pos (by simpa using hne),
    List.filter_nil]

/-- A character that is no blank is a word of its own before a blank and at the end. -/
theorem Worded.singleton (h : Worded t ws) (hc : isBlank c = false)
    (ht : ∀ b ∈ t.head?, isBlank b = true) : Worded (c :: t) ([c] :: ws) := by
  have hw : ∀ b ∈ [c], isBlank b = false := by
    intro b hb
    rwa [List.mem_singleton.1 hb]
  exact .word (List.cons_ne_nil c []) hw ht h

/-- A character that is no blank starts a word, or makes the first word longer. -/
theorem Worded.exists_cons (h : Worded t ws) (hc : isBlank c = false) :
    ∃ ws', Worded (c :: t) ws' := by
  have hworded := h
  cases h with
  | nil => exact ⟨_, hworded.singleton hc (by simp)⟩
  | blank hb => exact ⟨_, hworded.singleton hc (by simpa using hb)⟩
  | @word w t ws hne hw ht h =>
    have hcw : ∀ b ∈ c :: w, isBlank b = false := List.forall_mem_cons.2 ⟨hc, hw⟩
    exact ⟨_, .word (List.cons_ne_nil c w) hcw ht h⟩

/-- Every text has words. -/
theorem exists_worded (t : Text) : ∃ ws, Worded t ws := by
  induction t with
  | nil => exact ⟨[], .nil⟩
  | cons c t ih =>
    obtain ⟨ws, h⟩ := ih
    cases hc : isBlank c with
    | true => exact ⟨ws, .blank hc h⟩
    | false => exact h.exists_cons hc

theorem Worded.eq_words (h : Worded t ws) : ws = words t := by
  induction h with
  | nil => rfl
  | blank hc _ ih => rw [words_cons_of_isBlank hc, ih]
  | @word w t ws hne hw ht _ ih =>
    -- what follows the word starts with a blank, at which the words are found apart
    cases t with
    | nil => rw [ih, List.append_nil, words_eq_singleton hne hw, words_nil]
    | cons c t =>
      have hc : isBlank c = true := ht c rfl
      rw [words_append_cons hc, words_eq_singleton hne hw, ih, words_cons_of_isBlank hc,
        List.singleton_append]

/-- A text has its words and no others. -/
theorem worded_iff : Worded t ws ↔ ws = words t := by
  constructor
  · exact Worded.eq_words
  · rintro rfl
    obtain ⟨ws, h⟩ := exists_worded t
    rwa [← h.eq_words]

theorem Worded.isBlank_of_mem (h : Worded t []) (hc : c ∈ t) : isBlank c = true := by
  generalize hws : ([] : List Text) = ws at h
  induction h with
  | nil => cases hc
  | blank hb _ ih =>
    rcases List.mem_cons.1 hc with rfl | hc
    · exact hb
    · exact ih hc hws
  | word => cases hws

/-! ### Words in collapsed texts -/

/-- A word is written as it is. -/
theorem collapseFrom_append (hne : w ≠ []) (hw : ∀ c ∈ w, isBlank c = false) :
    collapseFrom spaced (w ++ t) = w ++ collapseFrom false t := by
  induction w generalizing spaced with
  | nil => exact absurd rfl hne
  | cons c w ih =>
    obtain ⟨hc, hw⟩ := List.forall_mem_cons.1 hw
    rw [List.cons_append, collapseFrom, hc, if_neg Bool.false_ne_true, List.cons_append]
    cases w with
    | nil => rfl
    | cons b w => rw [ih (List.cons_ne_nil b w) hw]

/-- Blanks after a word are written as one space. -/
theorem collapseFrom_false (ht : ∀ c ∈ t.head?, isBlank c = true) (hne : t ≠ []) :
    collapseFrom false t = ' ' :: collapse t := by
  obtain ⟨c, t, rfl⟩ := List.exists_cons_of_ne_nil hne
  have hc : isBlank c = true := ht c rfl
  unfold collapse
  rw [collapseFrom, collapseFrom, if_pos hc, if_pos hc, if_neg Bool.false_ne_true, if_pos rfl]

/-- A space after the words, if there are any and a blank stands at the end. -/
def lastSpace (t : Text) (ws : List Text) : Text :=
  if ws ≠ [] ∧ t.getLast?.any isBlank = true then [' '] else []

theorem lastSpace_append (hne : t ≠ []) (s : Text) (ws : List Text) :
    lastSpace (s ++ t) ws = lastSpace t ws := by
  unfold lastSpace
  rw [List.getLast?_append, List.getLast?_eq_some_getLast hne, Option.some_or]

theorem lastSpace_word (hne : w ≠ []) (hw : ∀ c ∈ w, isBlank c = false) (ws : List Text) :
    lastSpace w ws = [] := by
  have hlast : isBlank (w.getLast hne) = false := hw _ (List.getLast_mem hne)
  unfold lastSpace
  rw [List.getLast?_eq_some_getLast hne, Option.any_some, hlast]
  exact if_neg fun h => Bool.false_ne_true h.2

/-- A collapsed text is the words, joined by single spaces, and a space if a blank stands at the
end. -/
theorem collapse_of_worded (h : Worded t ws) :
    collapse t = [' '].intercalate ws ++ lastSpace t ws := by
  induction h with
  | nil => rfl
  | @blank c t ws hc h ih =>
    have hcollapse : collapse (c :: t) = collapse t := by
      unfold collapse
      rw [collapseFrom, if_pos hc, if_pos rfl]
    rw [hcollapse, ih]
    congr 1
    by_cases ht : t = []
    · -- there is no word that the space could follow
      subst ht
      rw [h.eq_words, words_nil]
      rfl
    · exact (lastSpace_append ht [c] ws).symm
  | @word w t ws hne hw ht h ih =>
    show collapseFrom true (w ++ t) = _
    rw [collapseFrom_append hne hw]
    by_cases hnil : t = []
    · subst hnil
      rw [h.eq_words, words_nil, List.append_nil, lastSpace_word hne hw,
        List.intercalate_singleton]
      rfl
    rw [collapseFrom_false ht hnil, ih, lastSpace_append hnil]
    cases ws with
    | nil =>
      -- only blanks follow the last word, and they leave a space
      have hlast : isBlank (t.getLast hnil) = true := h.isBlank_of_mem (List.getLast_mem hnil)
      simp [lastSpace, List.getLast?_eq_some_getLast hnil, hlast]
    | cons v ws =>
      rw [List.intercalate_cons_cons]
      simp [lastSpace]

/-! ### Collapsing piece by piece -/

/-- What is collapsed may be collapsed again with what follows. -/
theorem collapseFrom_collapseFrom_append (spaced : Bool) (s t : Text) :
    collapseFrom spaced (collapseFrom spaced s ++ t) = collapseFrom spaced (s ++ t) := by
  induction s generalizing spaced with
  | nil => rfl
  | cons c s ih =>
    rw [List.cons_append, collapseFrom, collapseFrom]
    cases hc : isBlank c with
    | false =>
      simp only [Bool.false_eq_true, ↓reduceIte, List.cons_append, collapseFrom, hc]
      rw [ih]
    | true =>
      cases spaced with
      | true =>
        simp only [↓reduceIte]
        exact ih true
      | false =>
        have hspace : isBlank ' ' = true := rfl
        simp only [Bool.false_eq_true, ↓reduceIte, List.cons_append, collapseFrom, hspace]
        rw [ih]

/-- **Collapsing joins words**: a collapsed text is its words with single spaces between them, and
one more space exactly if there are words and a blank stands at the end. A text may be collapsed
piece by piece, and collapsing a second time changes nothing. -/
theorem collapse_eq_intercalate_words :
    (∀ t ws, Worded t ws ↔ ws = words t) ∧
      (∀ t, collapse t = [' '].intercalate (words t) ++
        if words t ≠ [] ∧ t.getLast?.any isBlank = true then [' '] else []) ∧
      (∀ s t, collapse (s ++ t) = collapse (collapse s ++ t)) ∧
      ∀ t, collapse (collapse t) = collapse t := by
  have hpieces (s t : Text) : collapse (s ++ t) = collapse (collapse s ++ t) :=
    (collapseFrom_collapseFrom_append true s t).symm
  refine ⟨fun _ _ => worded_iff, ?_, hpieces, ?_⟩
  · intro t
    exact collapse_of_worded (worded_iff.2 rfl)
  · intro t
    have h := hpieces t []
    rw [List.append_nil, List.append_nil] at h
    exact h.symm

/-- A carriage return is no blank and belongs to a word. -/
example : words [' ', 'a', '\r', '\n', '\t', 'b', ' '] = [['a', '\r'], ['b']] ∧
    collapse [' ', 'a', '\r', '\n', '\t', 'b', ' '] = ['a', '\r', ' ', 'b', ' '] := by
  decide

end SqlScript.Text
