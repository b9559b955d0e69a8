import Composer.Answer.Basic
import Composer.Answer.Record
import Composer.Arithmetic.Calculation
import Composer.Arithmetic.Expr
import Composer.Arithmetic.Grammar
import Composer.Arithmetic.Token
import Composer.Calendar.Date
import Composer.Calendar.Layout
import Composer.Calendar.Reckoning
import Composer.Calendar.TypedDate
import Composer.Chance.Outcome
import Composer.Chance.Stream
import Composer.Clock.Conversion
import Composer.Clock.Time
import Composer.Clock.Zone
import Composer.Color.Space
import Composer.Color.Swatch
import Composer.Console.Arguments
import Composer.Console.Line
import Composer.Console.Loop
import Composer.Console.Overlay
import Composer.Countdown.Duration
import Composer.Countdown.Interval
import Composer.Countdown.State
import Composer.Decimal.Binary64
import Composer.Decimal.CubeRoot
import Composer.Decimal.Display
import Composer.Decimal.Layout
import Composer.Decimal.Reading
import Composer.Decimal.Shortest
import Composer.Detection
import Composer.Json.Decode
import Composer.Json.Printer
import Composer.Json.Reader
import Composer.Json.Value
import Composer.Language.Names
import Composer.Language.Translation
import Composer.Lexicon.Definition
import Composer.Lookup.Error
import Composer.Lookup.RateCache
import Composer.Lookup.Service
import Composer.Main
import Composer.Measure.Conversion
import Composer.Measure.Unit
import Composer.Money.Currency
import Composer.Money.Exchange
import Composer.Palette.Command
import Composer.Palette.Search
import Composer.Proofs.Answer
import Composer.Proofs.Answer.Record
import Composer.Proofs.Answer.Resolving
import Composer.Proofs.Arithmetic.Completeness
import Composer.Proofs.Arithmetic.Derivation
import Composer.Proofs.Arithmetic.Evaluation
import Composer.Proofs.Arithmetic.Names
import Composer.Proofs.Arithmetic.Soundness
import Composer.Proofs.Arithmetic.Words
import Composer.Proofs.Calendar.Layout
import Composer.Proofs.Countdown.Coherence
import Composer.Proofs.Countdown.History
import Composer.Proofs.Detection
import Composer.Proofs.Detection.Amounts
import Composer.Proofs.Detection.Apart
import Composer.Proofs.Detection.Exclusive
import Composer.Proofs.Detection.Marks
import Composer.Proofs.Detection.Names
import Composer.Proofs.Detection.Questions
import Composer.Proofs.Json.Decode
import Composer.Proofs.Session.Announcements
import Composer.Proofs.Session.Consistency
import Composer.Proofs.Session.Countdowns
import Composer.Proofs.Session.Focus
import Composer.Proofs.Session.Intervals
import Composer.Proofs.Session.Lookups
import Composer.Proofs.Session.Performing
import Composer.Proofs.Session.Questions
import Composer.Proofs.Session.Run
import Composer.Proofs.Session.Seconds
import Composer.Proofs.Session.Shape
import Composer.Proofs.Session.Supersession
import Composer.Proofs.Session.View
import Composer.Proofs.Text.Lowercase
import Composer.Proofs.Text.Outline
import Composer.Proofs.Text.Reading
import Composer.Proofs.Text.Words
import Composer.Prose.Count
import Composer.Session.Basic
import Composer.Session.Bus
import Composer.Session.Event
import Composer.Session.Operation
import Composer.Session.Rehearsal
import Composer.Session.Ticket
import Composer.Session.View
import Composer.Session.World
import Composer.Settings.Basic
import Composer.Text.Blank
import Composer.Text.Letter
import Composer.Text.Lowercase
import Composer.Text.Phrase
import Composer.Tool
import Composer.Web.Domain
import Composer.Web.Escape
import Composer.Web.Host
import Composer.Web.Label
import Composer.Web.Service
import Composer.Web.Url
import Composer.Proofs.Lookup.Rates
import Composer.Proofs.Session.Clipboard
import Composer.Proofs.Countdown.Interval
import Composer.Proofs.Json.Text
import Composer.Proofs.Settings
import Composer.Proofs.Session.Undoing
import Composer.Proofs.Arithmetic.Arguments
import Composer.Proofs.Arithmetic.Answers
import Composer.Proofs.Arithmetic.Signs
import Composer.Proofs.Arithmetic.Spelling
import Composer.Proofs.Arithmetic.Running
import Composer.Proofs.Arithmetic.Respelling
import Composer.Proofs.Arithmetic.Percentages
import Composer.Proofs.Arithmetic.Closing
import Composer.Proofs.Calendar.Numbering
import Composer.Proofs.Calendar.Occurrence
import Composer.Proofs.Calendar.TypedDay
import Composer.Proofs.Calendar.Distance
import Composer.Proofs.Calendar.Until
import Composer.Proofs.Calendar.Since
import Composer.Proofs.Calendar.Spelling
import Composer.Proofs.Clock.Time
import Composer.Proofs.Clock.Phrase
import Composer.Proofs.Clock.Zone
import Composer.Proofs.Clock.Conversion
import Composer.Proofs.Clock.Reverse
import Composer.Proofs.Countdown.Components
import Composer.Proofs.Countdown.Duration
import Composer.Proofs.Countdown.Display
import Composer.Proofs.Countdown.Label
import Composer.Proofs.Session.Durations
import Composer.Proofs.Measure.Amount
import Composer.Proofs.Measure.Conversion
import Composer.Proofs.Prose.Count
import Composer.Proofs.Prose.Marker
import Composer.Proofs.Language.Phrase
import Composer.Proofs.Language.Request
import Composer.Proofs.Language.Trigger
import Composer.Proofs.Lexicon.Headword
import Composer.Proofs.Lexicon.Question
import Composer.Proofs.Detection.Content
import Composer.Proofs.Prose.Bounds
import Composer.Proofs.Chance.Stream
import Composer.Proofs.Palette.Search
import Composer.Proofs.Chance.Request
import Composer.Proofs.Chance.Outcome
import Composer.Proofs.Color.Notation
import Composer.Proofs.Color.Denotes
import Composer.Proofs.Color.Copy
import Composer.Proofs.Palette.Narrowing
import Composer.Proofs.Session.Selection
import Composer.Proofs.Console.Palette
import Composer.Proofs.Web.Pronunciation
import Composer.Proofs.Session.Tickets
import Composer.Proofs.Web.Translation
import Composer.Proofs.Web.LanguageCode
import Composer.Proofs.Console.Notices
