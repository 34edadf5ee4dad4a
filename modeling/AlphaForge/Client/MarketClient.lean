/-
What the checks of the launch market's client, `client.ts` of the web application, read
of its configuration and of the place that a snapshot, a wallet or a quote is from.
-/
import AlphaForge.Indexer.ChainStore
import AlphaForge.Market.LaunchMarket
import AlphaForge.Market.Projector

namespace AlphaForge
namespace MarketClient

open Evm
open Market (ChainLocation maxSafeInteger)

/-- `LAUNCH_CHAIN_ID`, `0xb626` of the wallet. -/
def launchChainId : Nat := testnetChainId

inductive PaymentAsset where
  | afUsdc
  | eth
  deriving DecidableEq

structure LaunchConfig where
  configured : Bool
  emailVerificationRequired : Option Bool
  vaultFactory : Option Address
  deriving DecidableEq

def validLocation (location : ChainLocation) : Except String Unit := do
  ensure (location.chainId = launchChainId ∧ (∀ i ∈ location.logIndex, i ≤ maxSafeInteger) ∧
    0 ≤ location.confirmations ∧ location.confirmations ≤ maxSafeInteger) "INVALID_CHAIN_EVIDENCE"
  Projector.uint location.blockNumber
  Projector.uint location.version

end MarketClient
end AlphaForge
