import LedgerSearch.Address
import LedgerSearch.Bulk
import LedgerSearch.Bytes
import LedgerSearch.CloseTime
import LedgerSearch.CommandLine
import LedgerSearch.Database.Source
import LedgerSearch.Database.Statement
import LedgerSearch.Delivery
import LedgerSearch.Digest.Crc16
import LedgerSearch.Digest.Sha256
import LedgerSearch.Document.Balance
import LedgerSearch.Document.Basic
import LedgerSearch.Document.Ledger
import LedgerSearch.Document.Offer
import LedgerSearch.Document.Operation
import LedgerSearch.Document.Signer
import LedgerSearch.Document.Trade
import LedgerSearch.Document.Transaction
import LedgerSearch.Document.Value
import LedgerSearch.Export
import LedgerSearch.Failure
import LedgerSearch.Fleet
import LedgerSearch.GapFill
import LedgerSearch.Host
import LedgerSearch.Host.CodeRange
import LedgerSearch.Host.Composition
import LedgerSearch.Host.Direction
import LedgerSearch.Host.Joining
import LedgerSearch.Host.Name
import LedgerSearch.Host.Numeric
import LedgerSearch.Host.Punycode
import LedgerSearch.Host.Spelling
import LedgerSearch.IndexName
import LedgerSearch.Inspect
import LedgerSearch.Json.Basic
import LedgerSearch.Json.Parser
import LedgerSearch.LedgerClose
import LedgerSearch.Main
import LedgerSearch.Memory.History
import LedgerSearch.Memory.Index
import LedgerSearch.Memory.Sample
import LedgerSearch.Memory.World
import LedgerSearch.Metrics
import LedgerSearch.Number.Binary64
import LedgerSearch.Pool
import LedgerSearch.Program.Basic
import LedgerSearch.Program.Site
import LedgerSearch.Program.Turn
import LedgerSearch.Proofs.Bulk.ActionLine
import LedgerSearch.Proofs.Bulk.JsonText
import LedgerSearch.Proofs.Bulk.Lines
import LedgerSearch.Proofs.Delivery.Attempts
import LedgerSearch.Proofs.Delivery.BatchTrace
import LedgerSearch.Proofs.Delivery.BulkReplies
import LedgerSearch.Proofs.Delivery.Endings
import LedgerSearch.Proofs.Delivery.RetryWaits
import LedgerSearch.Proofs.Document.AssetKeys
import LedgerSearch.Proofs.Document.BalanceLog
import LedgerSearch.Proofs.Document.HoldingHistory
import LedgerSearch.Proofs.Document.OfferEvents
import LedgerSearch.Proofs.Document.Rounding
import LedgerSearch.Proofs.Document.TradePairs
import LedgerSearch.Proofs.Document.TradePrice
import LedgerSearch.Proofs.Export.Batches
import LedgerSearch.Proofs.Export.Range
import LedgerSearch.Proofs.Export.RangeBatches
import LedgerSearch.Proofs.GapFill.Account
import LedgerSearch.Proofs.GapFill.Again
import LedgerSearch.Proofs.GapFill.Batches
import LedgerSearch.Proofs.GapFill.Scan
import LedgerSearch.Proofs.GapFill.Trace
import LedgerSearch.Proofs.History.FinalIndex
import LedgerSearch.Proofs.History.HalfHeld
import LedgerSearch.Proofs.History.PassedOver
import LedgerSearch.Proofs.History.WholeLedgers
import LedgerSearch.Proofs.Ingest.Replay
import LedgerSearch.Proofs.Ingest.Tail
import LedgerSearch.Proofs.LedgerClose.AnnouncedLengths
import LedgerSearch.Proofs.LedgerClose.Announcement
import LedgerSearch.Proofs.LedgerClose.FrameCounts
import LedgerSearch.Proofs.LedgerClose.Rows
import LedgerSearch.Proofs.LedgerClose.SigningPreimage
import LedgerSearch.Proofs.Pool.CallSteps
import LedgerSearch.Proofs.Pool.GivenUp
import LedgerSearch.Proofs.Pool.Returns
import LedgerSearch.Proofs.Pool.Schedule
import LedgerSearch.Proofs.Pool.TurnSchedule
import LedgerSearch.Proofs.Program.Requests
import LedgerSearch.Proofs.Program.Run
import LedgerSearch.Proofs.Program.Trace
import LedgerSearch.Proofs.Program.TraceRun
import LedgerSearch.Proofs.Record.CodecLaws
import LedgerSearch.Proofs.Record.PrintedKeys
import LedgerSearch.Proofs.Record.Types
import LedgerSearch.Proofs.Record.WellFormed
import LedgerSearch.Proofs.Serialize.AlikeRows
import LedgerSearch.Proofs.Serialize.BatchContents
import LedgerSearch.Proofs.Serialize.BatchCuts
import LedgerSearch.Proofs.Serialize.Demands
import LedgerSearch.Proofs.Serialize.DocumentCounters
import LedgerSearch.Proofs.Serialize.DocumentCounts
import LedgerSearch.Proofs.Serialize.DocumentIds
import LedgerSearch.Proofs.Serialize.DocumentOrder
import LedgerSearch.Proofs.Serialize.Emission
import LedgerSearch.Proofs.Serialize.FailedTransactions
import LedgerSearch.Proofs.Serialize.FeeMatching
import LedgerSearch.Proofs.Serialize.Filing
import LedgerSearch.Proofs.Serialize.LedgerDemands
import LedgerSearch.Proofs.Serialize.RunOutcome
import LedgerSearch.Proofs.Serialize.Unindexable
import LedgerSearch.Proofs.Status.BucketTiling
import LedgerSearch.Proofs.Status.Shortfall
import LedgerSearch.Proofs.Token.Effect
import LedgerSearch.Proofs.Token.Merge
import LedgerSearch.Proofs.Token.Number
import LedgerSearch.Proofs.Token.Order
import LedgerSearch.Proofs.Wire.BigEndian
import LedgerSearch.Proofs.Wire.CodecLaws
import LedgerSearch.Proofs.Wire.Cursor
import LedgerSearch.Proofs.Wire.Delimited
import LedgerSearch.Proofs.Wire.FrameReading
import LedgerSearch.Record.Account
import LedgerSearch.Record.Asset
import LedgerSearch.Record.Entry
import LedgerSearch.Record.Header
import LedgerSearch.Record.Offer
import LedgerSearch.Record.Operation
import LedgerSearch.Record.Result
import LedgerSearch.Record.Row
import LedgerSearch.Record.Transaction
import LedgerSearch.Replay
import LedgerSearch.Routes
import LedgerSearch.Search.Client
import LedgerSearch.Search.Mapping
import LedgerSearch.Search.Reply
import LedgerSearch.Sequences
import LedgerSearch.Serialize.Batch
import LedgerSearch.Serialize.Emit
import LedgerSearch.Serialize.Filing
import LedgerSearch.Serialize.Ledger
import LedgerSearch.Serialize.Stats
import LedgerSearch.Settings.Basic
import LedgerSearch.Settings.Load
import LedgerSearch.Settings.Moment
import LedgerSearch.Settings.Path
import LedgerSearch.Settings.Toml
import LedgerSearch.Settings.Toml.Number
import LedgerSearch.Settings.Toml.Table
import LedgerSearch.Settings.Toml.Text
import LedgerSearch.Settings.Url
import LedgerSearch.Settings.Value
import LedgerSearch.Status
import LedgerSearch.Tail
import LedgerSearch.Text.Base32
import LedgerSearch.Text.Base64
import LedgerSearch.Text.Hex
import LedgerSearch.Text.Numeral
import LedgerSearch.Text.Utf8
import LedgerSearch.Token
import LedgerSearch.Wire.Codec
import LedgerSearch.Wire.Frame
import LedgerSearch.Wire.Reader
import LedgerSearch.Wire.Text
