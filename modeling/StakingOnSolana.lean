import StakingOnSolana.Compounding
import StakingOnSolana.Conservation
import StakingOnSolana.Raydium.RouteInstruction
import StakingOnSolana.Raydium.StableInstruction
import StakingOnSolana.Raydium.SwapCpi
import StakingOnSolana.Debts
import StakingOnSolana.Emission
import StakingOnSolana.Exit
import StakingOnSolana.Fees
import StakingOnSolana.FundingCheck
import StakingOnSolana.Granularity
import StakingOnSolana.Operable
import StakingOnSolana.Overflow
import StakingOnSolana.Splitting
import StakingOnSolana.StakeLedger
import StakingOnSolana.Stopping
import StakingOnSolana.Authority
import StakingOnSolana.Isolation
import StakingOnSolana.Withdrawal
import StakingOnSolana.Distribution
import StakingOnSolana.Totals
import StakingOnSolana.Lifecycle
import StakingOnSolana.AccountData
import StakingOnSolana.Deposit
import StakingOnSolana.Pending
