import SqlScript.Invariants
import SqlScript.Corpus
import SqlScript.Change
import SqlScript.Proofs.Lexeme
import SqlScript.Proofs.Reading
import SqlScript.Proofs.Rendering
import SqlScript.Proofs.Requests
import SqlScript.Proofs.TwoPhases
import SqlScript.Proofs.Delivery
import SqlScript.Proofs.Position
import SqlScript.Proofs.Checked
import SqlScript.Proofs.Rejoin
import SqlScript.Proofs.Append
import SqlScript.Proofs.Layout
import SqlScript.Proofs.Course
import SqlScript.Proofs.Progress
import SqlScript.Proofs.WellSpaced
import SqlScript.Proofs.LaterText
import SqlScript.Proofs.Items
import SqlScript.Proofs.Calls
import SqlScript.Proofs.Log
import SqlScript.Proofs.Configuration
import SqlScript.Proofs.Spelling
import SqlScript.Proofs.Grammar
import SqlScript.Proofs.SettingsText
import SqlScript.Proofs.Replay
import SqlScript.Proofs.Unterminated
import SqlScript.Proofs.Verbatim
import SqlScript.Proofs.Disabled
import SqlScript.Proofs.EmptyClose
import SqlScript.Proofs.Renaming
import SqlScript.Proofs.Supply
import SqlScript.Proofs.Words
