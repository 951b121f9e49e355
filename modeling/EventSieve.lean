import EventSieve.Frame.Mask
import EventSieve.Main
import EventSieve.Proofs.Clause.MaskAgreement
import EventSieve.Proofs.Clause.TextRange
import EventSieve.Proofs.Record.EventRoundTrip
import EventSieve.Record.Encoder
import EventSieve.Proofs.Clause.Faults
import EventSieve.Proofs.Clause.Outline
import EventSieve.Proofs.Clause.Fragments
import EventSieve.Proofs.Filter.Documents
import EventSieve.Proofs.Record.Numbering
import EventSieve.Proofs.Record.Accounting
import EventSieve.Proofs.Record.SourceNames
import EventSieve.Proofs.Record.Reencoding
import EventSieve.Proofs.Record.Totality
import EventSieve.Proofs.Record.EventFilters
import EventSieve.Proofs.Cell.Equality
import EventSieve.Proofs.Clause.SetAgreement
import EventSieve.Proofs.Clause.VersionRange
import EventSieve.Proofs.Table.Loading
import EventSieve.Proofs.Time.SpanText
import EventSieve.Proofs.Version.TotalOrder
import EventSieve.Proofs.Record.ListColumns
import EventSieve.Proofs.Clause.Conjunction
import EventSieve.Proofs.Cell.ConvertingTwice
import EventSieve.Proofs.Cell.IntegerReading
import EventSieve.Proofs.Time.InstantText
import EventSieve.Proofs.Cell.DeclaredTypes
import EventSieve.Proofs.Clause.NullParameters
import EventSieve.Proofs.Clause.Triviality
import EventSieve.Proofs.Record.Dictionaries
import EventSieve.Proofs.Frame.Filtering
import EventSieve.Proofs.Record.OwnColumns
import EventSieve.Proofs.Record.SilentReading
import EventSieve.Proofs.Time.OffsetGrammar
import EventSieve.Proofs.Time.ZoneText
import EventSieve.Proofs.Time.SpanSign
import EventSieve.Proofs.Version.Grammar
import EventSieve.Proofs.Clause.FormatMarkers
import EventSieve.Proofs.Cell.TypeTags
import EventSieve.Proofs.Clause.QuotedName
import EventSieve.Proofs.Clause.NameSearch
import EventSieve.PipelineError
import EventSieve.Proofs.CommandLine.Causes
