import Okexchain.Chain.LastCommit
import Okexchain.Chain.MissedBlocks
import Okexchain.Chain.Tombstone
import Okexchain.Dex.Genesis
import Okexchain.Dex.Ownership
import Okexchain.Distribution.Halting
import Okexchain.Evm.Genesis
import Okexchain.Evm.Logs
import Okexchain.Evm.Signature
import Okexchain.Farm.Allocation
import Okexchain.Farm.Genesis
import Okexchain.Farm.Lockers
import Okexchain.Farm.MintAccount
import Okexchain.Farm.Payable
import Okexchain.Farm.Touch
import Okexchain.Gov.EarlyClose
import Okexchain.Gov.Proposals
import Okexchain.Order.DealFee
import Okexchain.Order.DeliverTx
import Okexchain.Order.Expiry
import Okexchain.Order.ProductOrder
import Okexchain.Order.Quotes
import Okexchain.Order.TieBreak
import Okexchain.Staking.Strongest
import Okexchain.Staking.Unbonding
import Okexchain.Swap.MulAndQuo
import Okexchain.Swap.Traders
import Okexchain.Swap.Value
import Okexchain.Token.Counter
