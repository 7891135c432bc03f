import BenchReport.Text.Blank
import BenchReport.Text.DecimalDigit
import BenchReport.Text.Integer
import BenchReport.Text.Line
import BenchReport.Text.Supply
import BenchReport.Text.Thousands
import BenchReport.Decimal.Layout
import BenchReport.Decimal.Reading
import BenchReport.Duration
import BenchReport.Measurement.Basic
import BenchReport.Event
import BenchReport.Json
import BenchReport.ResultLine
import BenchReport.Report.SingleLine
import BenchReport.Report.Paired
import BenchReport.Report.Intake
import BenchReport.BoxPlot
import BenchReport.Group.Search
import BenchReport.Rate
import BenchReport.Files.Tree
import BenchReport.Pipeline
import BenchReport.Document
import BenchReport.Csv.Reader
import BenchReport.Table
import BenchReport.LongTable
import BenchReport.Random.ChaCha
import BenchReport.Workload.Zipf
import BenchReport.Workload.Frequency
import BenchReport.Workload.Dataset
import BenchReport.Yaml.Basic
import BenchReport.Yaml.Cursor
import BenchReport.Yaml.Reader
import BenchReport.Manifest
import BenchReport.Listing
import BenchReport.Command.Invocation
import BenchReport.Session
import BenchReport.Main
import BenchReport.Proofs.Text.Cut
import BenchReport.Proofs.Text.Words
import BenchReport.Proofs.Text.Integer
import BenchReport.Proofs.ResultLine.Form
import BenchReport.Proofs.ResultLine.Segment
import BenchReport.Proofs.ResultLine.Fields
import BenchReport.Proofs.ResultLine.Grammar
import BenchReport.Proofs.Text.Utf8
import BenchReport.Proofs.Text.Line
import BenchReport.Proofs.Text.Supply
import BenchReport.Proofs.Duration
import BenchReport.Proofs.ResultLine.Render
import BenchReport.Proofs.Report.Tally
import BenchReport.Proofs.Report.RoundTrip
import BenchReport.Proofs.Report.Resync
import BenchReport.Proofs.Keyed
import BenchReport.Proofs.Group.Aggregate
import BenchReport.Proofs.Group.Search
import BenchReport.Proofs.Measurement
import BenchReport.Proofs.Group.Identity
import BenchReport.Proofs.Report.LineByLine
import BenchReport.Proofs.Source
import BenchReport.Proofs.Report.Count
import BenchReport.Proofs.Rate
import BenchReport.Proofs.Rate.Obstacles
import BenchReport.Proofs.Table.Columns
import BenchReport.Proofs.Table.Rows
import BenchReport.Proofs.Table.Names
import BenchReport.Proofs.Table.Lines
import BenchReport.Proofs.Pipeline.Run
import BenchReport.Proofs.Pipeline.Units
import BenchReport.Proofs.Pipeline.Order
import BenchReport.Proofs.Text.Pieces
import BenchReport.Proofs.Report.Pairs
import BenchReport.Proofs.Report.Samples
import BenchReport.Proofs.Report.Overlong
import BenchReport.Proofs.Report.Intake
import BenchReport.Proofs.Report.Balance
import BenchReport.Proofs.Report.Blocks
import BenchReport.Proofs.Pipeline.Readable
import BenchReport.Proofs.Binary64.Grid
import BenchReport.Proofs.Binary64.Round
import BenchReport.Proofs.Binary64.Pack
import BenchReport.Proofs.Binary64.Arithmetic
import BenchReport.Proofs.Binary64.Neutral
import BenchReport.Proofs.Workload.Zipf
import BenchReport.Proofs.Manifest.UnknownFields
import BenchReport.Proofs.Csv.RoundTrip
import BenchReport.Proofs.Workload.Frequency
import BenchReport.Proofs.Workload.Dataset
import BenchReport.Proofs.Manifest.Names
import BenchReport.Proofs.Command.Delivery
import BenchReport.Proofs.Command.Agreement
import BenchReport.Proofs.ResultLine.NormalForm
import BenchReport.Proofs.Group.Spelling
import BenchReport.Proofs.Group.Reaggregate
import BenchReport.Proofs.BoxPlot
import BenchReport.Proofs.Text.ByteOrder
import BenchReport.Proofs.LongTable.Escape
import BenchReport.Proofs.LongTable.Rows
import BenchReport.Proofs.Group.BoxPlot
import BenchReport.Proofs.Binary64.Infinity
import BenchReport.Proofs.Binary64.BitOrder
import BenchReport.Proofs.Binary64.Interpolation
import BenchReport.Proofs.Binary64.Whole
import BenchReport.Proofs.BoxPlot.Quartile
import BenchReport.Proofs.BoxPlot.Mean
import BenchReport.Proofs.BoxPlot.Ascent
import BenchReport.Proofs.Workload.Draws
import BenchReport.Proofs.Workload.Frequency.Canonical
import BenchReport.Proofs.Workload.Frequency.Shares
import BenchReport.Proofs.Report.WrittenLines
import BenchReport.Proofs.Binary64.Decimal
import BenchReport.Proofs.Decimal.Reading
import BenchReport.Proofs.Duration.Reading
import BenchReport.Proofs.Text.Thousands
import BenchReport.Proofs.Decimal.Fixed
import BenchReport.Proofs.LongTable.Numbers
