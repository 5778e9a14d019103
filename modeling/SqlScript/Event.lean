import SqlScript.Scan

/-!
# Events and errors of a scan

A scan tells what it comes by as `Event`s, and gives up with a `SplitError`. Offsets and lengths
count bytes.
-/

namespace SqlScript

/-- How much an event matters. -/
inductive Level where
  /-- The ordinary course of a scan. -/
  | trace
  /-- The end of a scan that fails. -/
  | debug
deriving DecidableEq, Repr

/-- The level as it is written in a log. -/
def Level.name : Level → String
  | trace => "TRACE"
  | debug => "DEBUG"

/-- What a scan comes by. -/
inductive Event where
  /-- A separator that ends at `stop` closed a statement of `length` bytes. -/
  | closed (stop length : Nat)
  /-- A comment that ends at `stop` was passed over. -/
  | skipped (kind : Comment) (stop : Nat)
  /-- The block comment that starts at `position` has no `expected` after it. -/
  | unterminated (position : Nat) (expected : Text)
  /-- The end of the script closed a statement of `length` bytes. -/
  | ended (length : Nat)
deriving DecidableEq, Repr

namespace Event

/-- How much the event matters. -/
def level : Event → Level
  | closed .. | skipped .. | ended .. => .trace
  | unterminated .. => .debug

/-- The event in words. -/
def message : Event → String
  | closed .. => "statement complete"
  | skipped .line _ => "skipped line comment"
  | skipped .block _ => "skipped block comment"
  | unterminated .. => "unterminated block comment"
  | ended .. => "final statement complete"

end Event

/-- Why a script cannot be split. -/
inductive SplitError where
  /-- The block comment that starts at byte `position` has no `expected` after it. -/
  | unterminated (expected : Text) (position : Nat)
deriving DecidableEq, Repr

/-- The error in words. -/
def SplitError.message : SplitError → String
  | unterminated expected position =>
    "Missing block comment end delimiter [" ++ String.ofList expected ++
      "] for comment starting at byte " ++ toString position

end SqlScript
