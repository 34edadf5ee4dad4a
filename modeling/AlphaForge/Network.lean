/-
What the contracts read of the chain around them.
-/
import AlphaForge.Evm.Exec

namespace AlphaForge

open Evm

/-- The only chain the contracts run on. -/
def testnetChainId : Nat := 46630

/-- `INativeMarketRouterIdentity`. -/
structure RouterIdentity where
  reserve : Address
  usdc : Address
  factory : Address

/-- What accounts outside the model answer during one call: whether code is
deployed at an address, the identity a market router reports, the decimals a
token reports, the strategy a PASS reports if it reports one, and whether an
account takes a payment of native currency. -/
structure View where
  hasCode : Address → Bool
  router : Address → RouterIdentity
  decimals : Address → Nat
  strategyId : Address → Option Bytes32
  acceptsValue : Address → Bool

end AlphaForge
