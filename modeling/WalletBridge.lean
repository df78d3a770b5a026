import WalletBridge.Text.Blank
import WalletBridge.Text.Hex
import WalletBridge.Text.Base64
import WalletBridge.Number.Shortest
import WalletBridge.Json.Printer
import WalletBridge.Json.Reader
import WalletBridge.Wire.Skip
import WalletBridge.Schema.Decode
import WalletBridge.Object.Verify
import WalletBridge.Object.Read
import WalletBridge.Object.Render
import WalletBridge.Catalog
import WalletBridge.Api.Run
import WalletBridge.Demo.Handler
import WalletBridge.Proofs.Result
import WalletBridge.Proofs.Schema.WellFormed
import WalletBridge.Proofs.Wire.RoundTrip
import WalletBridge.Proofs.Schema.Encoding
import WalletBridge.Proofs.Schema.WireRoundTrip
import WalletBridge.Proofs.Object.RoundTrip
import WalletBridge.Proofs.Object.Spelling
import WalletBridge.Proofs.Number.Value
import WalletBridge.Api.Schedule
import WalletBridge.Proofs.Object.Reading
import WalletBridge.Proofs.Api.LastError
import WalletBridge.Proofs.Api.FailureReport
import WalletBridge.Proofs.Api.Request
import WalletBridge.Proofs.Api.Agreement
import WalletBridge.Proofs.Api.EntryPoints
import WalletBridge.Proofs.Demo
import WalletBridge.Proofs.Api.HandlerTable
import WalletBridge.Proofs.Api.TypedCall
import WalletBridge.Proofs.Schema.Stream
import WalletBridge.Proofs.Schema.Name
import WalletBridge.Proofs.Message.Any
import WalletBridge.Proofs.Payload
import WalletBridge.Proofs.Schema.Absent
import WalletBridge.Proofs.Api.Configuration
import WalletBridge.Proofs.Api.Debugging
import WalletBridge.Proofs.Object.Offender
import WalletBridge.Proofs.Api.Refusal
import WalletBridge.Proofs.Object.NonNumeral
import WalletBridge.Proofs.Wire.Grammar
import WalletBridge.Proofs.Wire.Local
import WalletBridge.Proofs.Schema.Slice
import WalletBridge.Proofs.Schema.Delimited
import WalletBridge.Proofs.Schema.Truncation
import WalletBridge.Proofs.Schema.Padding
import WalletBridge.Proofs.Schema.Clash
import WalletBridge.Proofs.Object.Reason
import WalletBridge.Proofs.Message.HexText
import WalletBridge.Proofs.Method
import WalletBridge.Proofs.Json.Order
import WalletBridge.Proofs.Object.Foreign
import WalletBridge.Proofs.Object.Rendering
import WalletBridge.Proofs.Object.Lossless
