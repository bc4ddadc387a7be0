import RangeLedger.Address
import RangeLedger.Address.Keccak
import RangeLedger.Bank
import RangeLedger.Basic
import RangeLedger.Config
import RangeLedger.Dec
import RangeLedger.Dec.Arithmetic
import RangeLedger.Dec.Float
import RangeLedger.Dec.Parser
import RangeLedger.Dec.Printer
import RangeLedger.Json
import RangeLedger.Json.Bytes
import RangeLedger.Json.Codec
import RangeLedger.Json.Configs
import RangeLedger.Json.Literal
import RangeLedger.Json.Pools
import RangeLedger.Json.Positions
import RangeLedger.Json.Printer
import RangeLedger.Json.Reader
import RangeLedger.Json.Record
import RangeLedger.Json.Shape
import RangeLedger.Json.Ticks
import RangeLedger.Json.Token
import RangeLedger.Json.Values
import RangeLedger.Ledger
import RangeLedger.Ledger.Calls
import RangeLedger.Ledger.Error
import RangeLedger.Ledger.Group
import RangeLedger.Ledger.Swap
import RangeLedger.Liquidity
import RangeLedger.MathError
import RangeLedger.Metrics
import RangeLedger.Number.Binary64
import RangeLedger.Number.Bounded
import RangeLedger.Number.Rounding
import RangeLedger.Operation
import RangeLedger.Operation.Positions
import RangeLedger.Operation.Ticks
import RangeLedger.Peer
import RangeLedger.Pool
import RangeLedger.Pool.Rules
import RangeLedger.Position
import RangeLedger.Proofs.Bank.Supply
import RangeLedger.Proofs.Bank.Transfers
import RangeLedger.Proofs.Dec.Canonical
import RangeLedger.Proofs.Dec.Exact
import RangeLedger.Proofs.Dec.Numerals
import RangeLedger.Proofs.Failure
import RangeLedger.Proofs.Json.Codecs
import RangeLedger.Proofs.Json.Reading
import RangeLedger.Proofs.Json.Stored
import RangeLedger.Proofs.Ledger.Accumulators
import RangeLedger.Proofs.Ledger.ActiveLiquidity
import RangeLedger.Proofs.Ledger.Admission
import RangeLedger.Proofs.Ledger.Atomicity
import RangeLedger.Proofs.Ledger.Books
import RangeLedger.Proofs.Ledger.Boundaries
import RangeLedger.Proofs.Ledger.Claims
import RangeLedger.Proofs.Ledger.Commutation
import RangeLedger.Proofs.Ledger.Crossings
import RangeLedger.Proofs.Ledger.Custody
import RangeLedger.Proofs.Ledger.DepositOrder
import RangeLedger.Proofs.Ledger.Divisions
import RangeLedger.Proofs.Ledger.FirstDeposit
import RangeLedger.Proofs.Ledger.InactiveTime
import RangeLedger.Proofs.Ledger.Inside
import RangeLedger.Proofs.Ledger.Offers
import RangeLedger.Proofs.Ledger.Outcome
import RangeLedger.Proofs.Ledger.Pricing
import RangeLedger.Proofs.Ledger.Runs
import RangeLedger.Proofs.Ledger.Solvency
import RangeLedger.Proofs.Ledger.Splitting
import RangeLedger.Proofs.Ledger.Steps
import RangeLedger.Proofs.Ledger.Undo
import RangeLedger.Proofs.Ledger.Withdrawals
import RangeLedger.Proofs.Liquidity.Backing
import RangeLedger.Proofs.Liquidity.Units
import RangeLedger.Proofs.Number.Exact
import RangeLedger.Proofs.Number.Nearest
import RangeLedger.Proofs.Operation.Accounts
import RangeLedger.Proofs.Operation.Effect
import RangeLedger.Proofs.Operation.Locality
import RangeLedger.Proofs.Operation.Order
import RangeLedger.Proofs.Operation.Outcome
import RangeLedger.Proofs.Operation.Pools
import RangeLedger.Proofs.Operation.Prices
import RangeLedger.Proofs.Operation.Refusals
import RangeLedger.Proofs.Operation.Reversal
import RangeLedger.Proofs.Pool.FirstPrice
import RangeLedger.Proofs.Pool.Signs
import RangeLedger.Proofs.Pool.Units
import RangeLedger.Proofs.Storage.Commit
import RangeLedger.Proofs.Storage.Locality
import RangeLedger.Proofs.Storage.Staging
import RangeLedger.Proofs.Storage.Totals
import RangeLedger.Proofs.Storage.View
import RangeLedger.Proofs.Text.Digits
import RangeLedger.Proofs.Tick.Accuracy
import RangeLedger.Proofs.Tick.Monotone
import RangeLedger.Proofs.Tick.Order
import RangeLedger.Proofs.Tick.Outside
import RangeLedger.Proofs.Tick.Powers
import RangeLedger.Proofs.Tick.Prices
import RangeLedger.Proofs.Tick.Search
import RangeLedger.Proofs.Tick.Stakes
import RangeLedger.Store
import RangeLedger.Store.Overlay
import RangeLedger.Store.Script
import RangeLedger.Store.Storage
import RangeLedger.Table
import RangeLedger.Table.Map
import RangeLedger.Text.Digits
import RangeLedger.Text.Hex
import RangeLedger.Text.Printable
import RangeLedger.Text.Quoted
import RangeLedger.Tick.Crossing
import RangeLedger.Tick.Price
import RangeLedger.Tick.State
import RangeLedger.Time
