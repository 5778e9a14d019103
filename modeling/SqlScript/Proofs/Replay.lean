import Mathlib.Data.List.Nodup
import SqlScript.Corpus

/-!
# Replaying a corpus

What a replay does is told by what the two directories hold, and not by the order in which their
entries come. `Corpus.After` says what a corpus holds when the new inputs of a workspace were taken
over: its old entries and the files that are new (`Corpus.Newcomer`). `Corpus.Enumerates` puts the
files of a directory in the order of the bytes of their names, in which there is one way only
(`Corpus.Enumerates.unique`), and `Corpus.TestRun` says which of them are tested in this order, and
why no others are.

* `Corpus.replayWith_of_passes`: if the test finds nothing, then the corpus holds what it should and
  every file of it was tested once. Another replay tests the same files and takes nothing over.
* `Corpus.replayWith_ends`: what makes a replay fail, in which order, and what was tested by then.
  No entry of the corpus is lost or changed.
-/

namespace SqlScript

/-! ### Names of saved inputs -/

namespace Corpus

/-- The name of a saved input: it has a certain ending, and something before it. -/
def SavedName (name : Text) : Prop :=
  ∃ stem : Text, stem ≠ [] ∧ name = stem ++ ['.', 'f', 'u', 'z', 'z']

/-- The test of the last extension finds the names of saved inputs. -/
theorem isSaved_iff {name : Text} : isSaved name = true ↔ SavedName name := by
  simp only [isSaved, extension?, beq_iff_eq]
  constructor
  · intro h
    split_ifs at h with hlen
    -- the part behind the last dot is known, and the name is longer than that part and a dot
    have hlast := List.reverse_eq_iff.1 (Option.some.inj h)
    -- the name from its end: a part without dots, and the rest from the last dot on
    have hparts := List.takeWhile_append_dropWhile (p := (· != '.')) (l := name.reverse)
    rw [hlast] at hparts
    have hlong : 5 < name.length := by simpa [hlast] using hlen
    cases hrest : name.reverse.dropWhile (· != '.') with
    | nil =>
      have hshort := congrArg List.length hparts
      simp only [hrest, List.append_nil, List.length_reverse, List.length_cons,
        List.length_nil] at hshort
      omega
    | cons c u =>
      have hc := List.head_dropWhile_not (· != '.') (by rw [hrest]; exact List.cons_ne_nil c u)
      simp only [hrest, List.head_cons, bne_eq_false_iff_eq] at hc
      rw [hrest, hc] at hparts
      have hname := congrArg List.reverse hparts
      rw [List.reverse_reverse, List.reverse_append, List.reverse_cons, List.append_assoc] at hname
      refine ⟨u.reverse, ?_, hname.symm⟩
      intro hu
      rw [← hname, hu] at hlong
      exact absurd hlong (by decide)
  · rintro ⟨stem, hstem, rfl⟩
    have hpos := List.length_pos_iff.2 hstem
    rw [if_neg (by simp; omega)]
    simp

end Corpus

/-! ### Entries and names -/

namespace Listing

/-- No two entries have the same name. -/
def Distinct (l : Listing) : Prop := (l.map Prod.fst).Nodup

variable {l : Listing} {name : Text}

theorem has_iff : l.has name = true ↔ name ∈ l.map Prod.fst := by
  simp only [has, List.any_eq_true, beq_iff_eq, List.mem_map]

theorem distinct_cons {e : Text × Entry} :
    Distinct (e :: l) ↔ e.1 ∉ l.map Prod.fst ∧ Distinct l := by
  rw [Distinct, List.map_cons, List.nodup_cons, Distinct]

/-- An entry with a name of its own can be added. -/
theorem Distinct.concat (h : l.Distinct) {e : Text × Entry} (he : e.1 ∉ l.map Prod.fst) :
    Distinct (l ++ [e]) := by
  rw [Distinct, List.map_append, List.map_singleton, ← List.concat_eq_append]
  exact List.Nodup.concat he h

end Listing

namespace Corpus

open Listing (Distinct)

/-- A file of a workspace that is new to a corpus: it has the name of a saved input, and the corpus
has no entry of this name. -/
inductive Newcomer (old workspace : Listing) : Text × Entry → Prop
  /-- A saved input of the workspace under a name that the corpus does not have. -/
  | file {name : Text} {content : Bytes} (hmem : (name, .file content) ∈ workspace)
      (hsaved : SavedName name) (hnew : name ∉ old.map Prod.fst) :
      Newcomer old workspace (name, .file content)

/-- What a corpus holds when the new files of a workspace were taken over. -/
def After (old workspace : Listing) (e : Text × Entry) : Prop :=
  e ∈ old ∨ Newcomer old workspace e

/-- A directory of the workspace would have to be taken over. -/
def Blocked (old workspace : Listing) : Prop :=
  ∃ name entries, (name, .directory entries) ∈ workspace ∧ SavedName name ∧
    name ∉ old.map Prod.fst

/-! ### Taking over -/

/-- How taking over ends. -/
inductive TakesOver (old workspace : Listing) : Listing × Option Failure → Prop
  /-- No directory is in the way: the new files are taken over, and nothing else is. -/
  | done {new : Listing} (hnew : new.Distinct) (hall : ∀ e, e ∈ new ↔ After old workspace e)
      (hfree : ¬ Blocked old workspace) : TakesOver old workspace (new, none)
  /-- A directory would have to be taken over. No entry is lost by then, and only new files are
  added. -/
  | blocked {new : Listing} (hnew : new.Distinct) (hkept : ∀ e ∈ old, e ∈ new)
      (hadded : ∀ e ∈ new, After old workspace e) (hblocked : Blocked old workspace) :
      TakesOver old workspace (new, some .notCopied)

variable {old old' w w' : Listing} {name : Text} {content : Bytes} {entry : Entry}
  {e : Text × Entry} {x : Listing × Option Failure}

/-- A step that takes over what it should leaves the rest to the next ones. -/
theorem TakesOver.of_step (h : TakesOver old' w' x) (hsub : ∀ e ∈ old, e ∈ old')
    (hafter : ∀ e, After old' w' e ↔ After old w e) (hblocked : Blocked old' w' ↔ Blocked old w) :
    TakesOver old w x := by
  cases h with
  | done hnew hall hfree =>
    exact .done hnew (fun e => (hall e).trans (hafter e)) (mt hblocked.2 hfree)
  | blocked hnew hkept hadded hb =>
    exact .blocked hnew (fun e he => hkept e (hsub e he))
      (fun e he => (hafter e).1 (hadded e he)) (hblocked.1 hb)

/-- An entry that is no saved input, or that the corpus has, is passed over. -/
theorem newcomer_cons_iff (h : ¬ (SavedName name ∧ name ∉ old.map Prod.fst)) :
    Newcomer old ((name, entry) :: w) e ↔ Newcomer old w e := by
  constructor
  · rintro ⟨hmem, hsaved, hnew⟩
    rcases List.mem_cons.1 hmem with heq | hmem
    · obtain ⟨rfl, -⟩ := Prod.mk.inj heq
      exact absurd ⟨hsaved, hnew⟩ h
    · exact .file hmem hsaved hnew
  · rintro ⟨hmem, hsaved, hnew⟩
    exact .file (List.mem_cons_of_mem _ hmem) hsaved hnew

/-- An entry that is passed over blocks nothing. -/
theorem blocked_cons_iff (h : ¬ (SavedName name ∧ name ∉ old.map Prod.fst)) :
    Blocked old ((name, entry) :: w) ↔ Blocked old w := by
  constructor
  · rintro ⟨n, entries, hmem, hsaved, hnew⟩
    rcases List.mem_cons.1 hmem with heq | hmem
    · obtain ⟨rfl, -⟩ := Prod.mk.inj heq
      exact absurd ⟨hsaved, hnew⟩ h
    · exact ⟨n, entries, hmem, hsaved, hnew⟩
  · rintro ⟨n, entries, hmem, hsaved, hnew⟩
    exact ⟨n, entries, List.mem_cons_of_mem _ hmem, hsaved, hnew⟩

/-- A name that comes once in the workspace is missing after it was taken over if it was missing
before. -/
theorem notMem_concat_iff (hw : name ∉ w.map Prod.fst) {n : Text} {x : Entry} (hn : (n, x) ∈ w) :
    n ∉ (old ++ [(name, entry)]).map Prod.fst ↔ n ∉ old.map Prod.fst := by
  have hne : n ≠ name := by
    rintro rfl
    exact hw (List.mem_map.2 ⟨_, hn, rfl⟩)
  simp [hne]

/-- A file that was taken over is an old entry for what comes after it. -/
theorem after_concat_iff (hsaved : SavedName name) (hnew : name ∉ old.map Prod.fst)
    (hw : name ∉ w.map Prod.fst) :
    After (old ++ [(name, .file content)]) w e ↔ After old ((name, .file content) :: w) e := by
  constructor
  · rintro (hmem | ⟨hmem, hs, hn⟩)
    · rcases List.mem_append.1 hmem with hold | hlast
      · exact Or.inl hold
      · rw [List.mem_singleton.1 hlast]
        exact Or.inr (.file List.mem_cons_self hsaved hnew)
    · exact Or.inr (.file (List.mem_cons_of_mem _ hmem) hs ((notMem_concat_iff hw hmem).1 hn))
  · rintro (hold | ⟨hmem, hs, hn⟩)
    · exact Or.inl (List.mem_append_left _ hold)
    · rcases List.mem_cons.1 hmem with heq | hmem
      · exact Or.inl (List.mem_append_right _ (List.mem_singleton.2 heq))
      · exact Or.inr (.file hmem hs ((notMem_concat_iff hw hmem).2 hn))

theorem blocked_concat_iff (hw : name ∉ w.map Prod.fst) :
    Blocked (old ++ [(name, .file content)]) w ↔ Blocked old ((name, .file content) :: w) := by
  constructor
  · rintro ⟨n, entries, hmem, hs, hn⟩
    exact ⟨n, entries, List.mem_cons_of_mem _ hmem, hs, (notMem_concat_iff hw hmem).1 hn⟩
  · rintro ⟨n, entries, hmem, hs, hn⟩
    rcases List.mem_cons.1 hmem with heq | hmem
    · cases heq
    · exact ⟨n, entries, hmem, hs, (notMem_concat_iff hw hmem).2 hn⟩

/-- Taking over does what it should, in whatever order the entries come. -/
theorem takesOver (hold : old.Distinct) (hw : w.Distinct) : TakesOver old w (takeOver old w) := by
  -- the corpus grows on the way, so that the entries left are compared with what it holds by then
  induction w generalizing old with
  | nil =>
    refine .done hold (fun e => ⟨Or.inl, ?_⟩) ?_
    · rintro (h | ⟨⟨⟩, -, -⟩)
      exact h
    · rintro ⟨n, entries, ⟨⟩, -, -⟩
  | cons p w ih =>
    obtain ⟨name, entry⟩ := p
    obtain ⟨hname, hrest⟩ := Listing.distinct_cons.1 hw
    unfold takeOver
    split
    · next hnew =>
      obtain ⟨hsaved, hhas⟩ : isSaved name = true ∧ old.has name = false := by simpa using hnew
      have hsaved := isSaved_iff.1 hsaved
      have hhas : name ∉ old.map Prod.fst := by
        rw [← Listing.has_iff, hhas]
        exact Bool.false_ne_true
      cases entry with
      | file content =>
        exact (ih (hold.concat hhas) hrest).of_step (fun e he => List.mem_append_left _ he)
          (fun e => after_concat_iff hsaved hhas hname) (blocked_concat_iff hname)
      | directory entries =>
        exact .blocked hold (fun e he => he) (fun e he => Or.inl he)
          ⟨name, entries, List.mem_cons_self, hsaved, hhas⟩
    · next hnew =>
      have hskip : ¬ (SavedName name ∧ name ∉ old.map Prod.fst) := by
        rw [← isSaved_iff, ← Listing.has_iff]
        simpa using hnew
      exact (ih hold hrest).of_step (fun e he => he)
        (fun e => or_congr Iff.rfl (newcomer_cons_iff hskip).symm) (blocked_cons_iff hskip).symm

/-- A corpus that has everything stays as it is. -/
theorem takeOver_eq_self (h : ∀ e ∈ w, SavedName e.1 → e.1 ∈ old.map Prod.fst) :
    takeOver old w = (old, none) := by
  induction w with
  | nil => rfl
  | cons p w ih =>
    obtain ⟨name, entry⟩ := p
    obtain ⟨hp, hw⟩ := List.forall_mem_cons.1 h
    have hskip : ¬ (isSaved name && !old.has name) = true := by
      intro hnew
      obtain ⟨hsaved, hhas⟩ : isSaved name = true ∧ old.has name = false := by simpa using hnew
      rw [Listing.has_iff.2 (hp (isSaved_iff.1 hsaved))] at hhas
      cases hhas
    unfold takeOver
    rw [if_neg hskip]
    exact ih hw

/-! ### The order of the files -/

/-- The files of a directory that holds the entries `P`, in the order of the bytes of their
names. -/
structure Enumerates (P : Text × Entry → Prop) (files : List (Text × Bytes)) : Prop where
  /-- The names stand in the strict order of their bytes. -/
  sorted : files.Pairwise fun a b => Text.utf8 a.1 < Text.utf8 b.1
  /-- All files of the directory are there, and no others. -/
  mem_iff (name : Text) (content : Bytes) : (name, content) ∈ files ↔ P (name, .file content)

variable {P Q : Text × Entry → Prop} {l : Listing} {files files' : List (Text × Bytes)}

/-- Files can be put in this order in one way. -/
theorem Enumerates.unique (h : Enumerates P files) (h' : Enumerates P files') : files = files' := by
  have hirrefl (b : Bytes) : ¬ b < b := List.lt_irrefl b
  have hnodup {files : List (Text × Bytes)}
      (hs : files.Pairwise fun a b => Text.utf8 a.1 < Text.utf8 b.1) : files.Nodup := by
    refine hs.imp ?_
    rintro a _ hlt rfl
    exact hirrefl _ hlt
  have hperm : files.Perm files' := by
    refine (List.perm_ext_iff_of_nodup (hnodup h.sorted) (hnodup h'.sorted)).2 ?_
    rintro ⟨name, content⟩
    rw [h.mem_iff, h'.mem_iff]
  -- two sorted lists with the same elements are the same list
  refine hperm.eq_of_pairwise ?_ h.sorted h'.sorted
  intro a b _ _ hab hba
  exact absurd (List.lt_trans hab hba) (hirrefl _)

theorem Enumerates.congr (h : Enumerates P files) (hPQ : ∀ e, P e ↔ Q e) : Enumerates Q files where
  sorted := h.sorted
  mem_iff name content := (h.mem_iff name content).trans (hPQ _)

theorem utf8_injective {s t : Text} (h : Text.utf8 s = Text.utf8 t) : s = t := by
  rw [← Text.ofUtf8_utf8 s, h, Text.ofUtf8_utf8]

theorem mem_filterMap_file? {name : Text} {content : Bytes} :
    (name, content) ∈ l.filterMap Listing.file? ↔ (name, .file content) ∈ l := by
  rw [List.mem_filterMap]
  constructor
  · rintro ⟨⟨n, entry⟩, hmem, heq⟩
    cases entry with
    | file c =>
      obtain ⟨rfl, rfl⟩ := Prod.mk.inj (Option.some.inj heq)
      exact hmem
    | directory entries => cases heq
  · intro hmem
    exact ⟨_, hmem, rfl⟩

/-- Leaving directories out keeps the names in their order, so that they stay distinct. -/
theorem filterMap_file?_sublist (l : Listing) :
    ((l.filterMap Listing.file?).map Prod.fst).Sublist (l.map Prod.fst) := by
  induction l with
  | nil => exact .slnil
  | cons p l ih =>
    obtain ⟨name, entry⟩ := p
    cases entry with
    | file content => exact ih.cons_cons name
    | directory entries => exact ih.cons name

/-- The files that are replayed are those of the directory, in this order. -/
theorem enumerates_files (h : l.Distinct) : Enumerates (· ∈ l) l.files where
  sorted := by
    -- sorting gives a weak order, and it is strict because names are distinct
    have hle : l.files.Pairwise fun a b => Text.utf8 a.1 ≤ Text.utf8 b.1 := by
      refine (List.pairwise_mergeSort ?_ ?_ (l.filterMap Listing.file?)).imp ?_
      · intro a b c hab hbc
        exact decide_eq_true (List.le_trans (of_decide_eq_true hab) (of_decide_eq_true hbc))
      · intro a b
        simpa using List.le_total (Text.utf8 a.1) (Text.utf8 b.1)
      · intro a b hab
        exact of_decide_eq_true hab
    have hne : l.files.Pairwise fun a b => a.1 ≠ b.1 := by
      have hnames : (l.files.map Prod.fst).Nodup :=
        ((List.mergeSort_perm _ _).map Prod.fst).nodup_iff.2
          (List.Nodup.sublist (filterMap_file?_sublist l) h)
      exact List.pairwise_map.1 hnames
    refine (hle.and hne).imp ?_
    rintro a b ⟨hab, hne⟩
    by_contra hlt
    exact hne (utf8_injective (List.le_antisymm hab hlt))
  mem_iff name content := by
    rw [Listing.files, (List.mergeSort_perm _ _).mem_iff, mem_filterMap_file?]

/-! ### Testing -/

/-- The test found nothing and kept to the limit. -/
def Within (limit : Nat) : Verdict → Prop
  | .passed elapsed => elapsed ≤ limit
  | .failed _ => False

/-- The test finds nothing in any of the files, each after those before it. -/
def PassesAll (test : Test) (limit : Nat) (files : List (Text × Bytes)) : Prop :=
  ∀ done file rest, files = done ++ file :: rest → Within limit (test (done.map Prod.snd) file.2)

/-- What a verdict about the file of a name makes a replay fail with. A test that fails is not asked
how long it took. -/
inductive Fails (limit : Nat) (name : Text) : Verdict → Failure → Prop
  /-- The test found something. -/
  | test (reason : String) : Fails limit name (.failed reason) (.testFailed reason)
  /-- The test found nothing, but took too long. -/
  | limit {elapsed : Nat} (h : limit < elapsed) :
      Fails limit name (.passed elapsed) (.overLimit name)

/-- A run of the test over the files: which inputs were tested, and why no others were. -/
inductive TestRun (test : Test) (limit : Nat) (files : List (Text × Bytes)) :
    List Bytes → Option Failure → Prop
  /-- All files pass, and all of them were tested. -/
  | passed (h : PassesAll test limit files) : TestRun test limit files (files.map Prod.snd) none
  /-- The first file that does not pass is the last one that was tested. -/
  | stopped {done rest : List (Text × Bytes)} {name : Text} {content : Bytes} {failure : Failure}
      (hfiles : files = done ++ (name, content) :: rest) (hdone : PassesAll test limit done)
      (hfails : Fails limit name (test (done.map Prod.snd) content) failure) :
      TestRun test limit files (done.map Prod.snd ++ [content]) (some failure)

variable {test : Test} {limit : Nat} {file : Text × Bytes} {replayed : List Bytes}
  {failure : Option Failure}

theorem passesAll_cons (hfile : Within limit (test [] file.2))
    (h : PassesAll (test.after file.2) limit files) : PassesAll test limit (file :: files) := by
  intro done g rest heq
  cases done with
  | nil =>
    obtain ⟨rfl, -⟩ := List.cons.inj heq
    exact hfile
  | cons f done =>
    obtain ⟨rfl, hrest⟩ := List.cons.inj heq
    exact h done g rest hrest

/-- A file that passes is tested, and then the others. -/
theorem TestRun.cons (hfile : Within limit (test [] file.2))
    (h : TestRun (test.after file.2) limit files replayed failure) :
    TestRun test limit (file :: files) (file.2 :: replayed) failure := by
  cases h with
  | passed h => exact .passed (passesAll_cons hfile h)
  | @stopped done rest name content failure hfiles hdone hfails =>
    have hfiles' : file :: files = (file :: done) ++ (name, content) :: rest := by rw [hfiles]; rfl
    exact .stopped hfiles' (passesAll_cons hfile hdone) hfails

/-- A file that fails is the last one that is tested. -/
theorem TestRun.of_fails {name : Text} {content : Bytes} {failure : Failure}
    (h : Fails limit name (test [] content) failure) :
    TestRun test limit ((name, content) :: files) [content] (some failure) := by
  have hdone : PassesAll test limit [] := by
    intro done g rest heq
    simp at heq
  exact .stopped (List.nil_append _).symm hdone h

theorem testRun_testAll (test : Test) (limit : Nat) (files : List (Text × Bytes)) :
    TestRun test limit files (testAll test limit files).1 (testAll test limit files).2 := by
  -- the test remembers its inputs, so that it is another test for the files behind the first one
  induction files generalizing test with
  | nil =>
    refine .passed ?_
    intro done g rest heq
    simp at heq
  | cons file files ih =>
    obtain ⟨name, content⟩ := file
    have hrest := ih (test.after content)
    unfold testAll
    cases hv : test [] content with
    | failed reason =>
      refine .of_fails ?_
      rw [hv]
      exact .test reason
    | passed elapsed =>
      by_cases hlimit : elapsed ≤ limit
      · have hfile : Within limit (test [] content) := by rw [hv]; exact hlimit
        simp only [hlimit, ↓reduceIte]
        exact TestRun.cons hfile hrest
      · simp only [hlimit, ↓reduceIte]
        refine .of_fails ?_
        rw [hv]
        exact .limit (Nat.lt_of_not_le hlimit)

/-- Nothing is found exactly if all files pass. -/
theorem TestRun.eq_none_iff (h : TestRun test limit files replayed failure) :
    failure = none ↔ PassesAll test limit files := by
  cases h with
  | passed h => exact iff_of_true rfl h
  | stopped hfiles hdone hfails =>
    refine iff_of_false nofun fun h => ?_
    -- the verdict at which the run stopped cannot be one that keeps to the limit
    have hfile := h _ _ _ hfiles
    cases hv : test _ _ with
    | failed reason =>
      rw [hv] at hfile
      exact hfile
    | passed elapsed =>
      rw [hv] at hfile hfails
      cases hfails with
      | limit hlt => exact absurd hlt (Nat.not_lt.2 hfile)

/-- If all files pass, then all are tested. -/
theorem TestRun.replayed_eq (h : TestRun test limit files replayed failure)
    (hall : PassesAll test limit files) : replayed = files.map Prod.snd ∧ failure = none := by
  have hnone := h.eq_none_iff.2 hall
  cases h with
  | passed => exact ⟨rfl, rfl⟩
  | stopped => cases hnone

/-! ### Replays -/

/-- What a corpus holds before a replay, if it is no file. -/
inductive Holds : Option Entry → Listing → Prop
  /-- There is no corpus yet. -/
  | absent : Holds none []
  /-- The corpus is a directory with these entries. -/
  | directory (l : Listing) : Holds (some (.directory l)) l

variable {corpus workspace : Option Entry}

/-- A replay takes over and then tests all files. -/
theorem Holds.replayWith_eq (h : Holds corpus old) (test : Test) (limit : Nat)
    (workspace : Option Entry) :
    replayWith test limit corpus workspace =
      match takeOver old (workspaceEntries workspace) with
      | (new, some failure) => ⟨[], .directory new, some failure⟩
      | (new, none) =>
        ⟨(testAll test limit new.files).1, .directory new, (testAll test limit new.files).2⟩ := by
  cases h with
  | absent => rfl
  | directory => rfl

/-- A replay that is not blocked ends as testing all files of the corpus ends. -/
theorem exists_replayWith_of_free (h : Holds corpus old) (hold : old.Distinct)
    (hw : (workspaceEntries workspace).Distinct)
    (hfree : ¬ Blocked old (workspaceEntries workspace)) (test : Test) (limit : Nat) :
    ∃ (new : Listing) (files : List (Text × Bytes)) (replayed : List Bytes)
      (failure : Option Failure),
      replayWith test limit corpus workspace = ⟨replayed, .directory new, failure⟩ ∧
      new.Distinct ∧ (∀ e, e ∈ new ↔ After old (workspaceEntries workspace) e) ∧
      Enumerates (After old (workspaceEntries workspace)) files ∧
      TestRun test limit files replayed failure := by
  have heq := h.replayWith_eq test limit workspace
  have htakes := takesOver hold hw
  generalize takeOver old (workspaceEntries workspace) = x at heq htakes
  cases htakes with
  | @done new hnew hall =>
    exact ⟨new, new.files, _, _, heq, hnew, hall, (enumerates_files hnew).congr hall,
      testRun_testAll test limit new.files⟩
  | blocked _ _ _ hblocked => exact absurd hblocked hfree

/-- A blocked replay tests nothing, and loses no entry. -/
theorem exists_replayWith_of_blocked (h : Holds corpus old) (hold : old.Distinct)
    (hw : (workspaceEntries workspace).Distinct)
    (hblocked : Blocked old (workspaceEntries workspace)) (test : Test) (limit : Nat) :
    ∃ new : Listing,
      replayWith test limit corpus workspace = ⟨[], .directory new, some .notCopied⟩ ∧
      new.Distinct ∧ (∀ e ∈ old, e ∈ new) ∧
      ∀ e ∈ new, After old (workspaceEntries workspace) e := by
  have heq := h.replayWith_eq test limit workspace
  have htakes := takesOver hold hw
  generalize takeOver old (workspaceEntries workspace) = x at heq htakes
  cases htakes with
  | done _ _ hfree => exact absurd hblocked hfree
  | @blocked new hnew hkept hadded => exact ⟨new, heq, hnew, hkept, hadded⟩

/-- What was taken over once is not taken over again. -/
theorem takeOver_again (hfree : ¬ Blocked old w) (hl : ∀ e, After old w e → e ∈ l)
    (hw : w'.Perm w) : takeOver l w' = (l, none) := by
  refine takeOver_eq_self ?_
  rintro ⟨name, entry⟩ hmem hsaved
  have hmem := hw.mem_iff.1 hmem
  -- the corpus had the name before, or it has it now
  by_cases hnew : name ∈ old.map Prod.fst
  · obtain ⟨e, he, rfl⟩ := List.mem_map.1 hnew
    exact List.mem_map.2 ⟨e, hl e (Or.inl he), rfl⟩
  · cases entry with
    | file content => exact List.mem_map.2 ⟨_, hl _ (Or.inr (.file hmem hsaved hnew)), rfl⟩
    | directory entries => exact absurd ⟨name, entries, hmem, hsaved, hnew⟩ hfree

/-- **A replay takes over what is new and tests everything once.** If the test finds nothing in the
files that the corpus should have afterwards, in the order of their names, then the replay comes to
its end, and the corpus has its old entries and the new files. Another replay changes nothing and
tests the same inputs, in whatever order the entries come. -/
theorem replayWith_of_passes (h : Holds corpus old) (hold : old.Distinct)
    (hw : (workspaceEntries workspace).Distinct)
    (hdirs : ∀ name entries, (name, .directory entries) ∈ workspaceEntries workspace →
      SavedName name → name ∈ old.map Prod.fst) (test : Test) (limit : Nat) :
    ∃ files, Enumerates (After old (workspaceEntries workspace)) files ∧
      (PassesAll test limit files →
        ∃ new : Listing, new.Distinct ∧
          (∀ e, e ∈ new ↔ After old (workspaceEntries workspace) e) ∧
          replayWith test limit corpus workspace = ⟨files.map Prod.snd, .directory new, none⟩ ∧
          ∀ (test' : Test) (limit' : Nat) (workspace' : Option Entry) (l : Listing), l.Perm new →
            (workspaceEntries workspace').Perm (workspaceEntries workspace) →
            PassesAll test' limit' files →
            replayWith test' limit' (some (.directory l)) workspace' =
              ⟨files.map Prod.snd, .directory l, none⟩) := by
  have hfree : ¬ Blocked old (workspaceEntries workspace) := by
    rintro ⟨name, entries, hmem, hsaved, hnew⟩
    exact hnew (hdirs name entries hmem hsaved)
  obtain ⟨new, files, replayed, failure, heq, hnew, hall, hfiles, htests⟩ :=
    exists_replayWith_of_free h hold hw hfree test limit
  refine ⟨files, hfiles, fun hpasses => ⟨new, hnew, hall, ?_, ?_⟩⟩
  · obtain ⟨rfl, rfl⟩ := htests.replayed_eq hpasses
    exact heq
  · intro test' limit' workspace' l hl hws hpasses'
    have hmem (e : Text × Entry) : e ∈ l ↔ After old (workspaceEntries workspace) e :=
      hl.mem_iff.trans (hall e)
    have hdistinct : l.Distinct := (hl.map Prod.fst).nodup_iff.2 hnew
    -- the listing has the same files, and they have one order only
    have hsame : l.files = files := ((enumerates_files hdistinct).congr hmem).unique hfiles
    have hagain := takeOver_again hfree (fun e he => (hmem e).2 he) hws
    obtain ⟨hreplayed, hnone⟩ := (testRun_testAll test' limit' files).replayed_eq hpasses'
    rw [(Holds.directory l).replayWith_eq, hagain]
    simp only [hsame, hreplayed, hnone]

/-- A new file is taken over, and a directory stays away whose name the corpus has. Both replays
test three inputs in the order of their names. -/
theorem replayWith_of_passes_of_clash :
    let old : Listing := [("b.fuzz".toList, .file [2]), ("c".toList, .file [3])]
    let workspace : Listing := [("b.fuzz".toList, .directory []), ("a.fuzz".toList, .file [1])]
    Holds (some (.directory old)) old ∧ old.Distinct ∧ workspace.Distinct ∧
      (∀ name entries, (name, .directory entries) ∈ workspace → SavedName name →
        name ∈ old.map Prod.fst) ∧
      ∃ new : Listing, new.Distinct ∧ (∀ e, e ∈ new ↔ After old workspace e) ∧
        replayWith (fun _ _ => .passed 1) 1 (some (.directory old)) (some (.directory workspace)) =
          ⟨[[1], [2], [3]], .directory new, none⟩ ∧
        replayWith (fun _ _ => .passed 0) 0 (some (.directory new.reverse))
            (some (.directory workspace.reverse)) =
          ⟨[[1], [2], [3]], .directory new.reverse, none⟩ := by
  intro old workspace
  have hold : old.Distinct := by
    show (old.map Prod.fst).Nodup
    decide
  have hworkspace : (workspaceEntries (some (.directory workspace))).Distinct := by
    show (workspace.map Prod.fst).Nodup
    decide
  have hdirs : ∀ name entries, (name, Entry.directory entries) ∈ workspace → SavedName name →
      name ∈ old.map Prod.fst := by
    intro name entries hmem _
    have hname : name = "b.fuzz".toList := by
      rcases List.mem_cons.1 hmem with heq | hmem
      · exact congrArg Prod.fst heq
      · cases List.mem_singleton.1 hmem
    rw [hname]
    decide
  obtain ⟨files, hfiles, hrun⟩ :=
    replayWith_of_passes (.directory old) hold hworkspace hdirs (fun _ _ => .passed 1) 1
  obtain ⟨new, hnew, hall, heq, hagain⟩ := hrun fun _ _ _ _ => Nat.le_refl 1
  have hordered : Enumerates (After old workspace)
      [("a.fuzz".toList, [1]), ("b.fuzz".toList, [2]), ("c".toList, [3])] := by
    refine ⟨by decide, fun name content => ?_⟩
    have hsaved : SavedName "a.fuzz".toList := ⟨['a'], List.cons_ne_nil _ _, rfl⟩
    constructor
    · intro hmem
      obtain ⟨rfl, rfl⟩ | ⟨rfl, rfl⟩ | ⟨rfl, rfl⟩ : (name = "a.fuzz".toList ∧ content = [1]) ∨
          (name = "b.fuzz".toList ∧ content = [2]) ∨ (name = "c".toList ∧ content = [3]) := by
        simpa using hmem
      · exact Or.inr (.file (by simp [workspace]) hsaved (by decide))
      · exact Or.inl List.mem_cons_self
      · exact Or.inl (List.mem_cons_of_mem _ List.mem_cons_self)
    · rintro (hmem | ⟨hmem, -, -⟩)
      · exact List.mem_cons_of_mem _ (by simpa [old] using hmem)
      · obtain ⟨rfl, rfl⟩ : name = "a.fuzz".toList ∧ content = [1] := by
          simpa [workspace] using hmem
        exact List.mem_cons_self
  have hreplayed : files.map Prod.snd = [[1], [2], [3]] := by
    rw [hfiles.unique hordered]
    rfl
  rw [hreplayed] at heq
  have hsecond := hagain (fun _ _ => .passed 0) 0 (some (.directory workspace.reverse)) new.reverse
    new.reverse_perm workspace.reverse_perm fun _ _ _ _ => Nat.le_refl 0
  rw [hreplayed] at hsecond
  exact ⟨.directory old, hold, hworkspace, hdirs, new, hnew, hall, heq, hsecond⟩

/-- **A replay fails when it must, and stops there.** A corpus that is a file fails first, then a
directory of the workspace that would have to be taken over. Otherwise the files are tested in the
order of their names up to the first that fails, and nothing fails exactly if all files pass. No
entry of the corpus is lost, and no name has two. -/
theorem replayWith_ends (test : Test) (limit : Nat) (workspace : Option Entry) :
    (∀ content, replayWith test limit (some (.file content)) workspace =
      ⟨[], .file content, some .notCreated⟩) ∧
    ∀ corpus old, Holds corpus old → old.Distinct → (workspaceEntries workspace).Distinct →
      ∃ (new : Listing) (replayed : List Bytes) (failure : Option Failure),
        replayWith test limit corpus workspace = ⟨replayed, .directory new, failure⟩ ∧
        new.Distinct ∧ (∀ e ∈ old, e ∈ new) ∧
        (∀ e ∈ new, After old (workspaceEntries workspace) e) ∧
        (Blocked old (workspaceEntries workspace) → replayed = [] ∧ failure = some .notCopied) ∧
        (¬ Blocked old (workspaceEntries workspace) →
          (∀ e, e ∈ new ↔ After old (workspaceEntries workspace) e) ∧
          ∃ files, Enumerates (After old (workspaceEntries workspace)) files ∧
            TestRun test limit files replayed failure ∧
            (failure = none ↔ PassesAll test limit files)) := by
  refine ⟨fun content => rfl, ?_⟩
  intro corpus old h hold hw
  by_cases hblocked : Blocked old (workspaceEntries workspace)
  · obtain ⟨new, heq, hnew, hkept, hadded⟩ :=
      exists_replayWith_of_blocked h hold hw hblocked test limit
    exact ⟨new, [], some .notCopied, heq, hnew, hkept, hadded, fun _ => ⟨rfl, rfl⟩,
      fun hfree => absurd hblocked hfree⟩
  · obtain ⟨new, files, replayed, failure, heq, hnew, hall, hfiles, htests⟩ :=
      exists_replayWith_of_free h hold hw hblocked test limit
    exact ⟨new, replayed, failure, heq, hnew, fun e he => (hall e).2 (Or.inl he),
      fun e he => (hall e).1 he, fun hb => absurd hb hblocked,
      fun _ => ⟨hall, files, hfiles, htests, htests.eq_none_iff⟩⟩

/-- A directory stops a replay before anything is tested, although a file may have been taken over.
Without it the second of three inputs takes too long, and the third one is not tested. -/
theorem replayWith_ends_of_overLimit :
    let old : Listing :=
      [("c".toList, .file [3]), ("b".toList, .file [2, 2]), ("a".toList, .file [1])]
    let workspace : Listing := [("d.fuzz".toList, .file [4]), ("e.fuzz".toList, .directory [])]
    let test : Test := fun _ input => .passed input.length
    Holds (some (.directory old)) old ∧ old.Distinct ∧ workspace.Distinct ∧
      Blocked old workspace ∧ ¬ Blocked old [] ∧
      (∃ new : Listing, replayWith test 1 (some (.directory old)) (some (.directory workspace)) =
          ⟨[], .directory new, some .notCopied⟩ ∧ ∀ e ∈ old, e ∈ new) ∧
      ∃ (new : Listing) (files : List (Text × Bytes)),
        replayWith test 1 (some (.directory old)) none =
          ⟨[[1], [2, 2]], .directory new, some (.overLimit "b".toList)⟩ ∧
        (∀ e ∈ old, e ∈ new) ∧ Enumerates (After old []) files ∧
        TestRun test 1 files [[1], [2, 2]] (some (.overLimit "b".toList)) := by
  intro old workspace test
  have hold : old.Distinct := by
    show (old.map Prod.fst).Nodup
    decide
  have hworkspace : (workspaceEntries (some (.directory workspace))).Distinct := by
    show (workspace.map Prod.fst).Nodup
    decide
  have hblocked : Blocked old workspace := by
    refine ⟨"e.fuzz".toList, [], by simp [workspace], isSaved_iff.1 (by decide), ?_⟩
    decide
  have hfree : ¬ Blocked old [] := by
    rintro ⟨name, entries, ⟨⟩, -, -⟩
  refine ⟨.directory old, hold, hworkspace, hblocked, hfree, ?_, ?_⟩
  · obtain ⟨new, replayed, failure, heq, -, hkept, -, hnone, -⟩ :=
      (replayWith_ends test 1 (some (.directory workspace))).2 _ old (.directory old) hold
        hworkspace
    obtain ⟨rfl, rfl⟩ := hnone hblocked
    exact ⟨new, heq, hkept⟩
  · obtain ⟨new, replayed, failure, heq, -, hkept, -, -, hall⟩ :=
      (replayWith_ends test 1 none).2 _ old (.directory old) hold List.nodup_nil
    obtain ⟨-, files, hfiles, htests, -⟩ := hall hfree
    have hordered : Enumerates (· ∈ old)
        [("a".toList, [1]), ("b".toList, [2, 2]), ("c".toList, [3])] := by
      refine ⟨by decide, fun name content => ?_⟩
      rw [← List.mem_reverse]
      simp [old]
    have hrun : replayWith test 1 (some (.directory old)) none =
        ⟨[[1], [2, 2]], .directory old, some (.overLimit "b".toList)⟩ := by
      rw [(Holds.directory old).replayWith_eq]
      simp only [workspaceEntries, takeOver, (enumerates_files hold).unique hordered]
      rfl
    obtain ⟨rfl, -, rfl⟩ := Report.mk.inj (heq.symm.trans hrun)
    exact ⟨new, files, heq, hkept, hfiles, htests⟩

end Corpus

end SqlScript
