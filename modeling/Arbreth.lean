import Arbreth.Blockhash.Skipped
import Arbreth.Exec.Balances
import Arbreth.Exec.Dimensions
import Arbreth.Exec.FailedRetry
import Arbreth.Exec.SubmitFees
import Arbreth.L1Pricing.Pool
import Arbreth.L1Pricing.Price
import Arbreth.L1Pricing.Total
import Arbreth.L2Pricing.Migration
import Arbreth.Merkle.Commitment
import Arbreth.Outbox.Withdrawals
import Arbreth.Parse.Batches
import Arbreth.Parse.Exact
import Arbreth.Parse.NoPanic
import Arbreth.Producer.Failure
import Arbreth.Producer.OverlayCache
import Arbreth.Producer.UserLoop
import Arbreth.Redeem.Announce
import Arbreth.Redeem.Donated
import Arbreth.Retryable.Bounds
import Arbreth.Retryable.Cleared
import Arbreth.Retryable.Lifetime
import Arbreth.Rpc.GetRetryable
import Arbreth.Storage.AddressTable
import Arbreth.Storage.ChainOwners
import Arbreth.Storage.Deque
import Arbreth.Stylus.CallStack
import Arbreth.Stylus.Creates
import Arbreth.Stylus.DataFee
import Arbreth.Stylus.DataPricing
import Arbreth.Stylus.Depth
import Arbreth.Stylus.FlushOrder
import Arbreth.Stylus.Lifecycle
import Arbreth.Stylus.Memory
import Arbreth.Stylus.ModuleCache
import Arbreth.Stylus.Reentrancy
import Arbreth.Stylus.StaticCalls
import Arbreth.Upgrade.Agree
