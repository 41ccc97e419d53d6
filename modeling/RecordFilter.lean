import RecordFilter.Calendar.Amount
import RecordFilter.Calendar.Date
import RecordFilter.Calendar.DateTime
import RecordFilter.Calendar.Duration
import RecordFilter.Calendar.Format
import RecordFilter.Calendar.Period
import RecordFilter.Calendar.TimeOfDay
import RecordFilter.Coercion.Coercer
import RecordFilter.Coercion.Error
import RecordFilter.Coercion.Strategy
import RecordFilter.Compile.Basic
import RecordFilter.Compile.DayRange
import RecordFilter.Compile.Lowering
import RecordFilter.Expr.Basic
import RecordFilter.Expr.Eval
import RecordFilter.Filter.Basic
import RecordFilter.FreeText.Basic
import RecordFilter.FreeText.Heuristic
import RecordFilter.Identifier.ObjectId
import RecordFilter.Identifier.Ulid
import RecordFilter.Identifier.Uuid
import RecordFilter.Identifier.Word
import RecordFilter.Number.Binary
import RecordFilter.Number.BinaryText
import RecordFilter.Number.Decimal
import RecordFilter.Number.Integer
import RecordFilter.Number.Word
import RecordFilter.Proofs.Coercion.Memory
import RecordFilter.Proofs.Compile.Clauses
import RecordFilter.Proofs.Compile.Pairing
import RecordFilter.Proofs.Expr.Pairing
import RecordFilter.Proofs.Schema.Built
import RecordFilter.Proofs.Schema.Resolution
import RecordFilter.Proofs.Schema.Selector
import RecordFilter.Proofs.Session.Engine
import RecordFilter.Proofs.Session.Pool
import RecordFilter.Render.Document
import RecordFilter.Render.Error
import RecordFilter.Render.Sql
import RecordFilter.Schema.Basic
import RecordFilter.Schema.Candidate
import RecordFilter.Schema.FieldType
import RecordFilter.Schema.Path
import RecordFilter.Schema.Scalar
import RecordFilter.Search.Basic
import RecordFilter.Search.Options
import RecordFilter.Session.Basic
import RecordFilter.Session.Engine
import RecordFilter.Session.Metrics
import RecordFilter.Session.Pool
import RecordFilter.Settings.Basic
import RecordFilter.Settings.Document
import RecordFilter.Settings.Literal
import RecordFilter.Text.Ascii
import RecordFilter.Text.Blank
import RecordFilter.Text.CaseTable
import RecordFilter.Text.Digit
import RecordFilter.Text.Lower
import RecordFilter.Text.Pattern
import RecordFilter.Text.Utf8
import RecordFilter.Value.Basic
import RecordFilter.Value.Order
import RecordFilter.Proofs.Render.Joins
import RecordFilter.Proofs.Calendar.Date
import RecordFilter.Proofs.Calendar.Format
import RecordFilter.Proofs.Calendar.Instant
import RecordFilter.Proofs.Calendar.Order
import RecordFilter.Proofs.Calendar.Period
import RecordFilter.Proofs.Coercion.Instant
import RecordFilter.Proofs.Coercion.Temporal
import RecordFilter.Proofs.Compile.Typing
import RecordFilter.Proofs.Render.Refusals
import RecordFilter.Proofs.Render.Shape
import RecordFilter.Proofs.FreeText.Scope
import RecordFilter.Proofs.Render.Placeholders
import RecordFilter.Proofs.Compile.DayRange
import RecordFilter.Proofs.Search.Outcome
import RecordFilter.Proofs.Schema.Addressing
import RecordFilter.Proofs.FreeText.Restatement
import RecordFilter.Proofs.Search.Distinct
import RecordFilter.Proofs.Compile.DayStep
import RecordFilter.Proofs.Compile.RangeEnds
import RecordFilter.Proofs.Compile.Offsets
import RecordFilter.Proofs.Text.Pattern
import RecordFilter.Proofs.Calendar.Duration
import RecordFilter.Proofs.FreeText.Verbatim
import RecordFilter.Proofs.Text.Like
import RecordFilter.Proofs.Text.Regex
import RecordFilter.Proofs.Calendar.AmountGrammar
import RecordFilter.Proofs.Calendar.PeriodGrammar
import RecordFilter.Proofs.Calendar.DurationGrammar
import RecordFilter.Proofs.Text.Cut
import RecordFilter.Proofs.Calendar.Machine
import RecordFilter.Proofs.Calendar.MachineDuration
import RecordFilter.Proofs.Calendar.Forms
import RecordFilter.Proofs.Coercion.Forms
import RecordFilter.Proofs.Schema.Canonical
import RecordFilter.Proofs.Compile.Canonical
import RecordFilter.Proofs.Schema.Limit
import RecordFilter.Proofs.Schema.Substitution
import RecordFilter.Proofs.Schema.Walker
import RecordFilter.Proofs.Schema.Naming
import RecordFilter.Proofs.Coercion.Coverage
import RecordFilter.Proofs.Schema.Index
import RecordFilter.Proofs.Schema.FieldRules
import RecordFilter.Proofs.Schema.AliasRules
import RecordFilter.Proofs.Schema.Building
import RecordFilter.Proofs.Compile.Null
import RecordFilter.Proofs.Compile.Negation
import RecordFilter.Proofs.Compile.Membership
import RecordFilter.Proofs.Number.Order
import RecordFilter.Proofs.Value.Linear
import RecordFilter.Proofs.Value.Order
import RecordFilter.Proofs.Compile.Trichotomy
import RecordFilter.Proofs.Compile.Enumerations
import RecordFilter.Proofs.Session.Counters
import RecordFilter.Proofs.Session.Words
import RecordFilter.Proofs.Session.Reports
import RecordFilter.Proofs.Session.Conservation
import RecordFilter.Proofs.Identifier.Packing
import RecordFilter.Proofs.Identifier.Faults
