import ConwayTx.Address
import ConwayTx.Address.Json
import ConwayTx.Address.Raw
import ConwayTx.Address.Text
import ConwayTx.Amount
import ConwayTx.AssetName
import ConwayTx.Balance
import ConwayTx.Bech32
import ConwayTx.BuildError
import ConwayTx.Builder
import ConwayTx.Builder.Build
import ConwayTx.Builder.Call
import ConwayTx.Builder.Lifecycle
import ConwayTx.Builder.Operation
import ConwayTx.BuilderConfig
import ConwayTx.BuilderConfig.Json
import ConwayTx.BuilderConfig.Settings
import ConwayTx.Bytes
import ConwayTx.Cbor
import ConwayTx.Cbor.Reader
import ConwayTx.Certificate
import ConwayTx.Certificate.Json
import ConwayTx.Certificate.Wire
import ConwayTx.Chain
import ConwayTx.Chain.Fixed
import ConwayTx.Change
import ConwayTx.Collateral
import ConwayTx.Digest
import ConwayTx.Digest.Blake2b
import ConwayTx.Digest.Json
import ConwayTx.Digest.Rotation
import ConwayTx.Digest.Sha512
import ConwayTx.Draft
import ConwayTx.Ed25519
import ConwayTx.EncodeError
import ConwayTx.ExUnits
import ConwayTx.Fee
import ConwayTx.Fraction
import ConwayTx.Fraction.Decimal
import ConwayTx.Fraction.Json
import ConwayTx.Hex
import ConwayTx.InputError
import ConwayTx.Json
import ConwayTx.Json.Catalog
import ConwayTx.Json.Form
import ConwayTx.Json.Literal
import ConwayTx.Json.Reader
import ConwayTx.Json.Token
import ConwayTx.Metadata
import ConwayTx.Metadata.Json
import ConwayTx.Output
import ConwayTx.Output.Minimum
import ConwayTx.Payment
import ConwayTx.PlutusData
import ConwayTx.PlutusData.Json
import ConwayTx.PlutusVersion
import ConwayTx.ProtocolParams
import ConwayTx.ProtocolParams.Json
import ConwayTx.Redeemer
import ConwayTx.Redeemer.Json
import ConwayTx.Redeemer.Layout
import ConwayTx.Redeemer.Target
import ConwayTx.Script
import ConwayTx.Script.Json
import ConwayTx.ScriptIntegrity
import ConwayTx.Selection
import ConwayTx.SortedMap
import ConwayTx.Text.Blank
import ConwayTx.Text.Extender
import ConwayTx.Text.Invisible
import ConwayTx.Text.Numeral
import ConwayTx.Text.Quoted
import ConwayTx.Text.Ranges
import ConwayTx.Text.Shown
import ConwayTx.Text.Unassigned
import ConwayTx.Transaction
import ConwayTx.TxIn
import ConwayTx.TxIn.Json
import ConwayTx.Value
import ConwayTx.Value.Json
import ConwayTx.Value.Unit
import ConwayTx.Value.Wire
import ConwayTx.Wallet
import ConwayTx.Witness
import ConwayTx.Witness.Json
import ConwayTx.Proofs.SortedMap
import ConwayTx.Proofs.Value.Quantity
import ConwayTx.Proofs.Value.Funds
import ConwayTx.Proofs.Selection.Candidates
import ConwayTx.Proofs.Selection.Completeness
import ConwayTx.Proofs.Selection.Order
import ConwayTx.Proofs.Change
import ConwayTx.Proofs.Balance.Rounds
import ConwayTx.Proofs.Draft
import ConwayTx.Proofs.Balance.Conservation
import ConwayTx.Proofs.Balance.Order
import ConwayTx.Proofs.Metadata
import ConwayTx.Proofs.Builder.Reachable
import ConwayTx.Proofs.Builder.Build
import ConwayTx.Proofs.Builder.Stages
import ConwayTx.Proofs.Builder.Order
import ConwayTx.Proofs.Builder.Conservation
import ConwayTx.Proofs.Builder.Spending
import ConwayTx.Proofs.Cbor.Length
import ConwayTx.Proofs.Value.Canonical
import ConwayTx.Proofs.Transaction
import ConwayTx.Proofs.Redeemer.Layout
import ConwayTx.Proofs.Fee.Scripts
import ConwayTx.Proofs.Builder.Fee
import ConwayTx.Proofs.Collateral
import ConwayTx.Proofs.Builder.Collateral
import ConwayTx.Proofs.Builder.Signers
import ConwayTx.Proofs.Bytes
import ConwayTx.Proofs.Cbor.Reading
import ConwayTx.Proofs.Cbor.WellFormed
import ConwayTx.Proofs.Cbor.Skipping
import ConwayTx.Proofs.Cbor.Parts
import ConwayTx.Proofs.Cbor.Fields
import ConwayTx.Proofs.PlutusData
import ConwayTx.Proofs.ScriptIntegrity
import ConwayTx.Proofs.Address
import ConwayTx.Proofs.Address.Layout
import ConwayTx.Proofs.Script
import ConwayTx.Proofs.Certificate
import ConwayTx.Proofs.Value.Wire
import ConwayTx.Proofs.Output
import ConwayTx.Proofs.Output.Minimum
import ConwayTx.Proofs.Payment
import ConwayTx.Proofs.Transaction.Content
import ConwayTx.Proofs.Transaction.Framing
import ConwayTx.Proofs.Redeemer.Placement
import ConwayTx.Proofs.Redeemer.Designation
import ConwayTx.Proofs.Builder.Placement
import ConwayTx.Proofs.Builder.Submission
import ConwayTx.Proofs.Builder.Budgets
import ConwayTx.Proofs.Builder.Outputs
import ConwayTx.Proofs.Builder.Call
import ConwayTx.Proofs.Outcome.Failing
import ConwayTx.Proofs.Builder.Attached
import ConwayTx.Proofs.Balance.Orphans
import ConwayTx.Proofs.Builder.Orphans
import ConwayTx.Proofs.Balance.Dust
import ConwayTx.Proofs.Builder.FixedFee
import ConwayTx.Proofs.Cbor.KeyOrder
import ConwayTx.Proofs.Transaction.KeyOrder
import ConwayTx.Proofs.Transaction.Integrity
import ConwayTx.Proofs.Outcome.Following
import ConwayTx.Proofs.Value.Sums
import ConwayTx.Proofs.Balance.Rearranged
import ConwayTx.Proofs.Builder.Rearranged
import ConwayTx.Proofs.Builder.Attachments
import ConwayTx.Proofs.Output.Convergence
import ConwayTx.Proofs.Balance.Termination
import ConwayTx.Proofs.Transaction.Weight
import ConwayTx.Proofs.Balance.Convergence
import ConwayTx.Proofs.Builder.Integrity
import ConwayTx.Proofs.Selection.Fewest
import ConwayTx.Proofs.Collateral.Smallest
import ConwayTx.Proofs.Balance.LastResort
import ConwayTx.Proofs.Change.Partition
import ConwayTx.Proofs.Bech32.Groups
import ConwayTx.Proofs.Bech32.Checksum
import ConwayTx.Proofs.Bech32.Text
import ConwayTx.Proofs.Address.Text
import ConwayTx.Proofs.Value.Arithmetic
import ConwayTx.Proofs.Value.Coverage
import ConwayTx.Proofs.Builder.Coverage
import ConwayTx.Proofs.Value.Equality
import ConwayTx.Proofs.Cbor.Numbers
import ConwayTx.Proofs.Value.Range
import ConwayTx.Proofs.Value.Traces
import ConwayTx.Proofs.Metadata.Reading
import ConwayTx.Proofs.Transaction.Range
import ConwayTx.Proofs.Builder.Consuming
import ConwayTx.Proofs.Fraction.Decimal
import ConwayTx.Proofs.Fraction.Rounding
import ConwayTx.Proofs.Redeemer.Inverse
import ConwayTx.Proofs.Certificate.Deposits
import ConwayTx.Proofs.Builder.Scripts
import ConwayTx.Proofs.ExUnits.Margin
