import SqlScript.Invariants
import SqlScript.Sample.Script

/-!
# A corpus of saved inputs

A corpus is a directory of inputs that once made a test fail. `Corpus.replay` first takes over the
inputs that were newly saved in a workspace, never in place of an entry that is there already, and
then tests all files of the corpus in the order of the bytes of their names. It stops at the first
input that makes the test fail or takes too long. A test that remembers what it was given is
replayed by `Corpus.replayWith`.

`Corpus.splitVerdict` is the test for splits: it draws a configuration and a script from the input
and checks the split.
-/

namespace SqlScript

/-- What stands under a name in a directory. -/
inductive Entry where
  /-- A file with its content. -/
  | file (content : Bytes)
  /-- A directory with its entries, in any order. -/
  | directory (entries : List (Text × Entry))

/-- The entries of a directory, in any order. -/
abbrev Listing := List (Text × Entry)

namespace Listing

/-- Whether the directory has an entry of this name. -/
def has (l : Listing) (name : Text) : Bool := l.any fun e => e.1 == name

/-- The name and the content of an entry that is a file. -/
def file? : Text × Entry → Option (Text × Bytes)
  | (name, .file content) => some (name, content)
  | (_, .directory _) => none

/-- The files directly in the directory, in the order of the bytes of their names. -/
def files (l : Listing) : List (Text × Bytes) :=
  (l.filterMap file?).mergeSort fun a b => decide (Text.utf8 a.1 ≤ Text.utf8 b.1)

end Listing

/-- The part of a file name after its last dot. A dot at the start of the name does not count. -/
def extension? (name : Text) : Option Text :=
  let last := (name.reverse.takeWhile (· != '.')).reverse
  if name.length ≤ last.length + 1 then none else some last

/-- What a test says about an input. -/
inductive Verdict where
  /-- The test took this time and found nothing. -/
  | passed (elapsed : Nat)
  /-- The test failed for this reason. -/
  | failed (reason : String)
deriving DecidableEq, Repr

/-- A test: what it says about an input, after those that it was given before. -/
abbrev Test := List Bytes → Bytes → Verdict

/-- The test after it was given an input. -/
def Test.after (test : Test) (input : Bytes) : Test := fun before => test (input :: before)

namespace Corpus

/-- Why a replay stops. -/
inductive Failure where
  /-- The corpus is not a directory. -/
  | notCreated
  /-- A newly saved input is not a file. -/
  | notCopied
  /-- The test failed on an input. -/
  | testFailed (reason : String)
  /-- The test took too long on the input of this name. -/
  | overLimit (name : Text)
deriving DecidableEq, Repr

/-- The failure in words. -/
def Failure.message : Failure → String
  | notCreated => "Failed to create crash input directory"
  | notCopied => "Failed to copy crash input"
  | testFailed reason => reason
  | overLimit name => "Crash input " ++ String.ofList name

/-- What a replay did. -/
structure Report where
  /-- The inputs that were tested, in order. -/
  replayed : List Bytes
  /-- The corpus afterwards. -/
  corpus : Entry
  /-- Why the replay stopped early, if it did. -/
  failure : Option Failure

/-- Whether a name is that of a saved input. -/
def isSaved (name : Text) : Bool := extension? name == some ['f', 'u', 'z', 'z']

/-- The corpus with the newly saved inputs of a workspace, up to the first that cannot be copied. -/
def takeOver (corpus : Listing) : Listing → Listing × Option Failure
  | [] => (corpus, none)
  | (name, entry) :: others =>
    if isSaved name && !corpus.has name then
      match entry with
      | .file content => takeOver (corpus ++ [(name, .file content)]) others
      | .directory _ => (corpus, some .notCopied)
    else takeOver corpus others

/-- Tests the files in turn, up to the first failure. -/
def testAll (test : Test) (limit : Nat) : List (Text × Bytes) → List Bytes × Option Failure
  | [] => ([], none)
  | (name, content) :: others =>
    match test [] content with
    | .failed reason => ([content], some (.testFailed reason))
    | .passed elapsed =>
      if elapsed ≤ limit then
        let (replayed, failure) := testAll (test.after content) limit others
        (content :: replayed, failure)
      else ([content], some (.overLimit name))

/-- The entries of a workspace. What is not a directory has none. -/
def workspaceEntries : Option Entry → Listing
  | some (.directory entries) => entries
  | some (.file _) | none => []

/-- Takes over what is new in the workspace, and tests the whole corpus. The test may remember what
it was given. -/
def replayWith (test : Test) (limit : Nat) (corpus workspace : Option Entry) : Report :=
  match corpus with
  | some (.file content) => ⟨[], .file content, some .notCreated⟩
  | some (.directory entries) => replayIn entries
  | none => replayIn []
where
  replayIn (entries : Listing) : Report :=
    match takeOver entries (workspaceEntries workspace) with
    | (entries, some failure) => ⟨[], .directory entries, some failure⟩
    | (entries, none) =>
      let (replayed, failure) := testAll test limit entries.files
      ⟨replayed, .directory entries, failure⟩

/-- Takes over what is new in the workspace, and tests each file of the corpus on its own. -/
def replay (test : Bytes → Verdict) (limit : Nat) (corpus workspace : Option Entry) : Report :=
  replayWith (fun _ => test) limit corpus workspace

/-- The test for splits, which is said to take the time `elapsed`. -/
def splitVerdict (elapsed : Nat) (input : Bytes) : Verdict :=
  let (d, script) := (Sample.both.run input).1
  match violation? d script with
  | some v => .failed v.message
  | none => .passed elapsed

end Corpus

end SqlScript
