import GatewayLedger.Balance
import GatewayLedger.Command
import GatewayLedger.Command.Arguments
import GatewayLedger.Command.Confirmation
import GatewayLedger.Command.Run
import GatewayLedger.Concurrent
import GatewayLedger.Credentials
import GatewayLedger.Dashboard
import GatewayLedger.Dashboard.Monitor
import GatewayLedger.Dashboard.Timeline
import GatewayLedger.Dashboard.Timers
import GatewayLedger.Digest.Hmac
import GatewayLedger.Digest.Sha256
import GatewayLedger.Exchange.Client
import GatewayLedger.Exchange.Error
import GatewayLedger.Exchange.Fetch
import GatewayLedger.Exchange.Filter
import GatewayLedger.Exchange.Query
import GatewayLedger.Exchange.Reply
import GatewayLedger.Exchange.Request
import GatewayLedger.Exchange.Script
import GatewayLedger.Exchange.Session
import GatewayLedger.Exchange.Signature
import GatewayLedger.Exchange.Transfer
import GatewayLedger.Fault
import GatewayLedger.Json.Printer
import GatewayLedger.Json.Reader
import GatewayLedger.Ledger
import GatewayLedger.Ledger.Distribution
import GatewayLedger.Ledger.Period
import GatewayLedger.Ledger.Reconciliation
import GatewayLedger.Ledger.Summary
import GatewayLedger.Ledger.Volume
import GatewayLedger.Log
import GatewayLedger.Main
import GatewayLedger.Number.Binary64
import GatewayLedger.Number.Binary64.Reader
import GatewayLedger.Number.Binary64.Shortest
import GatewayLedger.Number.Decimal
import GatewayLedger.Number.Decimal.Printer
import GatewayLedger.Number.Decimal.Reader
import GatewayLedger.Number.Rounding
import GatewayLedger.Proofs.Balance
import GatewayLedger.Proofs.Command.Withdrawal
import GatewayLedger.Proofs.Concurrent
import GatewayLedger.Proofs.Concurrent.All
import GatewayLedger.Proofs.Dashboard.Failures
import GatewayLedger.Proofs.Dashboard.Loading
import GatewayLedger.Proofs.Dashboard.Overlap
import GatewayLedger.Proofs.Dashboard.Periodic
import GatewayLedger.Proofs.Dashboard.Refresh
import GatewayLedger.Proofs.Dashboard.Rounds
import GatewayLedger.Proofs.Dashboard.Timeline
import GatewayLedger.Proofs.Exchange.Address
import GatewayLedger.Proofs.Exchange.Query
import GatewayLedger.Proofs.Exchange.Range
import GatewayLedger.Proofs.Exchange.Reply
import GatewayLedger.Proofs.Exchange.Secrecy
import GatewayLedger.Proofs.Exchange.Sequence
import GatewayLedger.Proofs.Exchange.Signature
import GatewayLedger.Proofs.Exchange.Times
import GatewayLedger.Proofs.Fetch
import GatewayLedger.Proofs.Json
import GatewayLedger.Proofs.Ledger.Agreement
import GatewayLedger.Proofs.Ledger.Asset
import GatewayLedger.Proofs.Ledger.Bucket
import GatewayLedger.Proofs.Ledger.Distribution
import GatewayLedger.Proofs.Ledger.Exact
import GatewayLedger.Proofs.Ledger.Index
import GatewayLedger.Proofs.Ledger.Order
import GatewayLedger.Proofs.Ledger.Passes
import GatewayLedger.Proofs.Ledger.Percentage
import GatewayLedger.Proofs.Ledger.PeriodKey
import GatewayLedger.Proofs.Ledger.Range
import GatewayLedger.Proofs.Ledger.Reconciliation
import GatewayLedger.Proofs.Normalization
import GatewayLedger.Proofs.Normalization.IsoText
import GatewayLedger.Proofs.Normalization.Metadata
import GatewayLedger.Proofs.Normalization.Numeral
import GatewayLedger.Proofs.Number.Digits
import GatewayLedger.Proofs.Number.Exact
import GatewayLedger.Proofs.Number.Sum
import GatewayLedger.Proofs.Record.Amount
import GatewayLedger.Proofs.Record.RoundTrip
import GatewayLedger.Proofs.Record.Status
import GatewayLedger.Proofs.Report
import GatewayLedger.Proofs.Report.Listing
import GatewayLedger.Proofs.Text.Utf8
import GatewayLedger.Proofs.Time.Tick
import GatewayLedger.Record
import GatewayLedger.Record.Amount
import GatewayLedger.Record.Status
import GatewayLedger.Record.Timestamp
import GatewayLedger.Report.Balances
import GatewayLedger.Report.Ledger
import GatewayLedger.Report.Statistics
import GatewayLedger.Report.Table
import GatewayLedger.Settings
import GatewayLedger.Text.Blank
import GatewayLedger.Text.Charset
import GatewayLedger.Text.Column
import GatewayLedger.Text.DecimalDigit
import GatewayLedger.Text.Hexadecimal
import GatewayLedger.Text.Percent
import GatewayLedger.Text.Printable
import GatewayLedger.Text.Uppercase
import GatewayLedger.Text.Utf8
import GatewayLedger.Time.Calendar
import GatewayLedger.Time.Epoch
import GatewayLedger.Time.Iso
import GatewayLedger.Time.Moment
import GatewayLedger.Time.RowClock
import GatewayLedger.Time.Seconds
import GatewayLedger.Time.Tick
import GatewayLedger.Value
import GatewayLedger.Value.Display
