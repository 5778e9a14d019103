import SqlScript.Settings

/-!
# Changes of a configuration

A configuration is set up by `Change`s, one after the other. A change that is refused leaves the
configuration as it was (`Delimiters.changedOrKept`).
-/

namespace SqlScript

/-- A change of a configuration. -/
inductive Change where
  /-- Back to the usual tokens. -/
  | standard
  /-- Other tokens in all roles. -/
  | tokens (k : Tokens)
  /-- Another separator. -/
  | separator (t : Text)
  /-- Another start of line comments. -/
  | lineComment (t : Text)
  /-- Other block comments. -/
  | blockComment (start stop : Text)
  /-- The tokens that settings give, whatever the configuration was. -/
  | settings (json : Text)
deriving DecidableEq, Repr

/-- Why a change is refused. -/
inductive ChangeError where
  /-- A token would be empty. -/
  | refused (e : DelimiterError)
  /-- The settings cannot be read. -/
  | unreadable (e : ReadError)
deriving DecidableEq, Repr

namespace Delimiters

/-- The configuration after a change. -/
def change (d : Delimiters) : Change → Except ChangeError Delimiters
  | .standard => .ok standard
  | .tokens k => (ofTokens k).mapError .refused
  | .separator t => (d.withSeparator t).mapError .refused
  | .lineComment t => (d.withLineComment t).mapError .refused
  | .blockComment start stop => (d.withBlockComment start stop).mapError .refused
  | .settings json => (ofJson json).mapError .unreadable

/-- The configuration after a change, or the old one if the change is refused. -/
def changedOrKept (d : Delimiters) (c : Change) : Delimiters :=
  match d.change c with
  | .ok e => e
  | .error _ => d

/-- The configuration after changes, of which those that are refused change nothing. -/
def afterChanges (d : Delimiters) (cs : List Change) : Delimiters := cs.foldl changedOrKept d

end Delimiters

end SqlScript
