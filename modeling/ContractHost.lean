import ContractHost.Main
import ContractHost.Reason.Decode
import ContractHost.Proofs.Json.Layout
import ContractHost.Proofs.Json.Scalar
import ContractHost.Proofs.Json.Written
import ContractHost.Proofs.Json.Grammar
import ContractHost.Proofs.Json.Members
import ContractHost.Proofs.Reason.Given
import ContractHost.Proofs.Reason.RoundTrip
import ContractHost.Proofs.Driver.FailedInstantiate
import ContractHost.Proofs.Driver.History
import ContractHost.Proofs.Import.Linking
import ContractHost.Proofs.Reason.Canonical
import ContractHost.Proofs.Memory.Ranges
import ContractHost.Proofs.Log.Counting
import ContractHost.Proofs.Bridge.Frame
import ContractHost.Proofs.Bridge.History
import ContractHost.Proofs.Driver.Coherence
import ContractHost.Proofs.Log.Truncation
import ContractHost.Proofs.Driver.Report
import ContractHost.Proofs.Driver.Accounting
import ContractHost.Proofs.Wasm.HostCalls
import ContractHost.Proofs.Driver.NewInstance
import ContractHost.Proofs.Driver.Scope
import ContractHost.Proofs.Driver.Refusal
import ContractHost.Proofs.Driver.Composition
import ContractHost.Proofs.Driver.Guests
import ContractHost.Proofs.Driver.FailedCall
import ContractHost.Proofs.Wasm.Steps
import ContractHost.Proofs.Wasm.Path
import ContractHost.Proofs.Wasm.Failure
import ContractHost.Proofs.Driver.Provenance
import ContractHost.Proofs.Driver.FailureCause
import ContractHost.Proofs.Wasm.Life
import ContractHost.Proofs.Driver.Capacity
import ContractHost.Proofs.Wasm.Budget
import ContractHost.Proofs.Wasm.Operands
import ContractHost.Proofs.Driver.Dispatch
import ContractHost.Proofs.Memory.Accesses
import ContractHost.Proofs.Bridge.Delivery
import ContractHost.Proofs.Driver.EarlyChecks
import ContractHost.Proofs.CommandLine.Output
import ContractHost.Proofs.Checks
import ContractHost.Proofs.Log.Fitting
import ContractHost.Proofs.Text.Lossy
import ContractHost.Proofs.Bridge.Outcome
import ContractHost.Proofs.Log.Algebra
import ContractHost.Proofs.Import.Registration
import ContractHost.Proofs.Import.Resolution
import ContractHost.Proofs.Json.Form
import ContractHost.Proofs.Json.Passing
import ContractHost.Proofs.Json.Recognized
import ContractHost.Proofs.Json.Token
import ContractHost.Proofs.Json.Answers
import ContractHost.Proofs.Json.Fields
import ContractHost.Proofs.Json.Accepted
import ContractHost.Proofs.Json.Literal
import ContractHost.Proofs.Json.Lookup
import ContractHost.Proofs.Json.Beginnings
import ContractHost.Proofs.Json.Awaiting
import ContractHost.Proofs.Reason.Parts
import ContractHost.Proofs.Reason.Senders
import ContractHost.Proofs.Reason.NumberRange
import ContractHost.Proofs.Reason.UnknownKind
import ContractHost.Proofs.Reason.UnknownFields
import ContractHost.Proofs.Reason.Truncation
import ContractHost.Proofs.Config.Given
import ContractHost.Proofs.CommandLine.Settings
import ContractHost.Proofs.Text.Quoted
import ContractHost.Proofs.CommandLine.Lines
import ContractHost.Proofs.Reason.Amount
import ContractHost.Proofs.Wasm.Stretch
import ContractHost.Proofs.Reason.TransferBack
import ContractHost.Proofs.Reason.Echo
