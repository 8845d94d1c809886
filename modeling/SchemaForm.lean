import SchemaForm.Binary64.Shortest
import SchemaForm.Binary64.Reading
import SchemaForm.Text.Lowercase
import SchemaForm.Text.Blank
import SchemaForm.Dictionary
import SchemaForm.Json.Equality
import SchemaForm.Json.Text
import SchemaForm.Path.Cover
import SchemaForm.Path.Location
import SchemaForm.Path.Interner
import SchemaForm.RowId
import SchemaForm.Schema.Basic
import SchemaForm.Schema.Reading
import SchemaForm.Validation
import SchemaForm.Diff.Basic
import SchemaForm.Options.Builtin
import SchemaForm.Options.Tree
import SchemaForm.Form.Session
import SchemaForm.Grid.Basic
import SchemaForm.File.Document
import SchemaForm.File.Csv
import SchemaForm.Main
import SchemaForm.Formula.Schema
import SchemaForm.Proofs.Dictionary
import SchemaForm.Proofs.Equality
import SchemaForm.Proofs.Numeral
import SchemaForm.Proofs.Form.Operation
import SchemaForm.Proofs.Form.Coherence
import SchemaForm.Proofs.Form.Waiting
import SchemaForm.Proofs.Form.Draining
import SchemaForm.Proofs.Form.LoadFailure
import SchemaForm.Proofs.Form.History
import SchemaForm.Proofs.Diff.Level
import SchemaForm.Proofs.Diff.Rows
import SchemaForm.Proofs.Diff.Collection
import SchemaForm.Proofs.Diff.Shortcut
import SchemaForm.Proofs.Diff.Unchanged
import SchemaForm.Proofs.Form.RowCounts
import SchemaForm.Proofs.Form.Listeners
import SchemaForm.Proofs.Path.Cover
import SchemaForm.Proofs.Path.Place
import SchemaForm.Proofs.Path.Collection
import SchemaForm.Proofs.RowId.Stamping
import SchemaForm.Proofs.RowId.Tracking
import SchemaForm.Proofs.RowId.Actions
import SchemaForm.Proofs.RowId.Standing
import SchemaForm.Proofs.RowId.Naming
import SchemaForm.Proofs.RowId.Spelling
import SchemaForm.Proofs.RowId.Respelling
import SchemaForm.Proofs.Form.RowIdentity
import SchemaForm.Proofs.RowId.Bare
import SchemaForm.Proofs.Form.Payload
import SchemaForm.Proofs.Form.Returning
import SchemaForm.Proofs.Form.LateResults
import SchemaForm.Proofs.Form.Straying
import SchemaForm.Proofs.Form.EarlySnapshot
import SchemaForm.Proofs.Form.Lifecycle
import SchemaForm.Proofs.Path.Reading
import SchemaForm.Proofs.Store.Hearing
import SchemaForm.Proofs.Diff.Declared
import SchemaForm.Proofs.Diff.Exact
import SchemaForm.Proofs.Diff.Whole
import SchemaForm.Proofs.Form.WholePayload
import SchemaForm.Proofs.Path.Spelling
import SchemaForm.Proofs.Options.Evaluation
import SchemaForm.Proofs.Options.Tree
import SchemaForm.Proofs.Options.Locked
import SchemaForm.Proofs.Form.Published
import SchemaForm.Proofs.Grid.Locked
import SchemaForm.Proofs.Validation.Sound
import SchemaForm.Proofs.Grid.Listed
import SchemaForm.Proofs.Options.Standing
import SchemaForm.Proofs.Grid.Permitted
import SchemaForm.Proofs.Path.Writing
import SchemaForm.Proofs.Grid.Pinned
import SchemaForm.Proofs.Path.Lens
import SchemaForm.Proofs.Path.Parsing
import SchemaForm.Proofs.Dependency.Frame
import SchemaForm.Proofs.Diff.Excluded
import SchemaForm.Proofs.Reduction.Rows
import SchemaForm.Proofs.Form.Commuting
import SchemaForm.Proofs.Dependency.RowScope
import SchemaForm.Proofs.RowId.Stripping
import SchemaForm.Proofs.RowId.Covering
import SchemaForm.Proofs.Diff.Recognition
import SchemaForm.Proofs.Diff.SkipChange
import SchemaForm.Proofs.Form.Untouched
import SchemaForm.Proofs.Form.Saving
import SchemaForm.Proofs.Grid.Adding
import SchemaForm.Proofs.Grid.Buttons
import SchemaForm.Proofs.Grid.Exclusive
import SchemaForm.Proofs.Grid.Searching
import SchemaForm.Proofs.File.Csv
import SchemaForm.Proofs.Schema.Building
import SchemaForm.Proofs.Validation.Emptiness
import SchemaForm.Proofs.Binary64.Decimal
import SchemaForm.Proofs.Json.NumberText
import SchemaForm.Proofs.Json.Alike
import SchemaForm.Proofs.Validation.Agreement
import SchemaForm.Proofs.Form.SaveError
import SchemaForm.Proofs.Validation.Bounds
