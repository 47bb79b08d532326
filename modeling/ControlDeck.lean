import ControlDeck.Text.Blank
import ControlDeck.Text.Letter
import ControlDeck.Text.Lowercase
import ControlDeck.Text.Quoted
import ControlDeck.Decimal.Power
import ControlDeck.Decimal.Fixed
import ControlDeck.Decimal.Reader
import ControlDeck.Decimal.Rounding
import ControlDeck.Time.DatePattern
import ControlDeck.Time.DateReader
import ControlDeck.Time.SpanText
import ControlDeck.Property.Line
import ControlDeck.Formula.Parser
import ControlDeck.Expression
import ControlDeck.Console
import ControlDeck.Settings.Decode
import ControlDeck.Deck
import ControlDeck.Clock
import ControlDeck.Main
import ControlDeck.Proofs.Parsing
import ControlDeck.Proofs.Presses
import ControlDeck.Proofs.Stopping
import ControlDeck.Proofs.Agreement
import ControlDeck.Proofs.Following
import ControlDeck.Proofs.Showing
import ControlDeck.Proofs.Finality
import ControlDeck.Proofs.Pacing
import ControlDeck.Proofs.Holding
import ControlDeck.Proofs.Journal
import ControlDeck.Proofs.Delivering
import ControlDeck.Proofs.Tables
import ControlDeck.Proofs.Slots
import ControlDeck.Proofs.Framing
import ControlDeck.Proofs.Alarms
import ControlDeck.Proofs.Halting
import ControlDeck.Proofs.SpanFormat
import ControlDeck.Proofs.Laziness
import ControlDeck.Proofs.Exactness
import ControlDeck.Proofs.Lexing
import ControlDeck.Proofs.IntegerFormat
import ControlDeck.Proofs.ComparisonText
import ControlDeck.Proofs.ComparisonOrder
import ControlDeck.Proofs.Positions
import ControlDeck.Proofs.Conversions
import ControlDeck.Proofs.Announcing
import ControlDeck.Proofs.Dictionary
import ControlDeck.Proofs.Extent
import ControlDeck.Proofs.Nesting
