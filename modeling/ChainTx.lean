import ChainTx.Account.LookupTable
import ChainTx.Account.Nonce
import ChainTx.Api.Answer
import ChainTx.Api.Client
import ChainTx.Api.Derivation
import ChainTx.Api.Keys
import ChainTx.Api.Messages
import ChainTx.Api.NodeScript
import ChainTx.Api.Programs
import ChainTx.Api.Request
import ChainTx.Api.RoundTrip
import ChainTx.Api.Service
import ChainTx.Api.Simulation
import ChainTx.Api.Transactions
import ChainTx.Client.BlockhashCache
import ChainTx.Client.Commitment
import ChainTx.Client.Config
import ChainTx.Client.Confirmation
import ChainTx.Client.Connection
import ChainTx.Client.Error
import ChainTx.Client.Forms
import ChainTx.Client.Node
import ChainTx.Client.Retry
import ChainTx.Client.Rpc
import ChainTx.Client.Script
import ChainTx.Client.World
import ChainTx.Crypto.Ed25519
import ChainTx.Crypto.Edwards
import ChainTx.Crypto.Field
import ChainTx.Crypto.Sha256
import ChainTx.Crypto.Sha512
import ChainTx.Error
import ChainTx.Instruction
import ChainTx.Json.Decode
import ChainTx.Json.Forms
import ChainTx.Json.Parse
import ChainTx.Json.Value
import ChainTx.Key.Address
import ChainTx.Key.Blockhash
import ChainTx.Key.Derive
import ChainTx.Key.Keypair
import ChainTx.Key.Signature
import ChainTx.Key.Text
import ChainTx.Key.WellKnown
import ChainTx.KeyTable
import ChainTx.Message.AccountKeys
import ChainTx.Message.Draft
import ChainTx.Message.Header
import ChainTx.Message.Legacy
import ChainTx.Message.Lookup
import ChainTx.Message.V0
import ChainTx.Program.ComputeBudget
import ChainTx.Program.Memo
import ChainTx.Program.Registry
import ChainTx.Program.System
import ChainTx.Runtime.Program
import ChainTx.Runtime.Scheduler
import ChainTx.Text.Base58
import ChainTx.Text.Decimal
import ChainTx.Text.Hex
import ChainTx.Text.Quoted
import ChainTx.Text.Utf8
import ChainTx.Transaction.Legacy
import ChainTx.Transaction.Versioned
import ChainTx.Transaction.Wire
import ChainTx.Wire.Reader
import ChainTx.Wire.ShortVec
import ChainTx.Proofs.Base58Text
import ChainTx.Proofs.KeyTable
import ChainTx.Proofs.LegacyCompile
import ChainTx.Proofs.TransactionCompile
import ChainTx.Proofs.WireRead
import ChainTx.Proofs.MessageCodec
import ChainTx.Proofs.LookupExtraction
import ChainTx.Proofs.Decompile
import ChainTx.Proofs.SignerSlots
import ChainTx.Proofs.TransactionCodec
import ChainTx.Proofs.ProgramLogic
import ChainTx.Proofs.ConfirmationOutcome
import ChainTx.Proofs.VersionedTransaction
import ChainTx.Proofs.Cancellation
import ChainTx.Proofs.Ledger
import ChainTx.Proofs.LedgerRun
import ChainTx.Proofs.Quiescence
import ChainTx.Proofs.SubscriptionCleanup
import ChainTx.Proofs.Signing
import ChainTx.Proofs.RetrySchedule
import ChainTx.Proofs.RetryRun
import ChainTx.Proofs.CompactLength
import ChainTx.Proofs.WireLayout
import ChainTx.Proofs.CanonicalWire
import ChainTx.Proofs.DecompileRoles
import ChainTx.Proofs.ProgramAddress
import ChainTx.Proofs.LegacyDecoding
import ChainTx.Proofs.Utf8Codec
import ChainTx.Proofs.InstructionCodecs
import ChainTx.Proofs.Base58Codec
import ChainTx.Proofs.InstructionIndexes
import ChainTx.Proofs.LookupTableCodec
import ChainTx.Proofs.ExtractionOverflow
