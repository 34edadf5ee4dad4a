/-
One look at a trading vault, `trading-reader.ts`.

The reader asks a node about one block.  Most of what it asks are identities that
were fixed when the vault was deployed, and the rest is the vault's storage, its
balances and the prices.  Numbers leave it as decimal text.  Addresses, digests and
code are compared as the bytes they are.
-/
import AlphaForge.Indexer.TradingEvents

namespace AlphaForge
namespace Indexer

open Evm

structure TestStockIdentity where
  symbol : String
  token : Address
  feed : Address
  pool : Address
  referenceIdentity : Bytes32
  keeper : Address

structure TradingInventory where
  deploymentManifestDigest : Bytes32
  owner : Address
  passLocker : Address
  usdc : Address
  router : Address
  quoter : Address
  factory : Address
  maxPriceAge : Nat
  stocks : Fin 3 → TestStockIdentity
  codeHashes : List (Address × Bytes32)

structure DeploymentManifest where
  contractName : String
  contractType : String
  abiVersion : String
  abiHash : Bytes32
  strategyPassAbiHash : Bytes32
  manifestDigest : Bytes32
  contractAddress : Address
  deploymentBlock : Nat
  runtimeBytecodeHash : Bytes32
  strategyPassAddress : Address
  strategyPassDeploymentBlock : Nat
  strategyPassRuntimeBytecodeHash : Bytes32

/-- The digests of the two ABIs this build was made with. -/
structure AbiHashes where
  trading : Bytes32
  strategyPass : Bytes32

structure Block where
  number : Nat
  hash : Bytes32
  timestamp : Nat

/-- What a node answers about the accounts at one block.  `vault` and `state` are the
immutables and the storage of the contract at the manifest's address. -/
structure Node where
  chainId : Nat
  /-- `block(number)?.hash`. -/
  blockHash : Nat → Option Bytes32
  /-- The digest of the code at an address, if there is code. -/
  codeHash : Address → Option Bytes32
  vault : TradingVault.Config
  state : TradingVault.State
  decimals : Address → Nat
  strategyId : Address → Bytes32
  factory : Address → Address
  getPool : Address → Address → Nat → Address
  token0 : Address → Address
  token1 : Address → Address
  fee : Address → Nat
  price : TradingVault.Feeds
  keeper : Address → Address
  referenceIdentity : Address → Bytes32

structure StockSnapshot where
  symbol : String
  token : Address
  feed : Address
  pool : Address
  position : String
  priceUsdc : String
  observedAt : String
  sourceDigest : Bytes32
  priceValid : Bool
  lowerPrice : String
  upperPrice : String

structure GrantSnapshot where
  executor : Address
  expiresAt : String
  liquidationWindow : String
  maxOrderUsdc : String
  maxTotalBuyUsdc : String
  maxSlippageBps : String

inductive Valuation where
  | valid
  | staleReference

structure TradingSnapshot where
  maxPriceAge : Nat
  chainId : Nat
  blockNumber : String
  blockHash : Bytes32
  blockTimestamp : String
  manifestDigest : Bytes32
  owner : Address
  vault : Address
  pass : Address
  stateVersion : String
  grantVersion : String
  principalBasis : String
  idleCash : String
  runtimeCash : String
  runtimeUnits : String
  lockedPass : String
  totalBuyUsdc : String
  closed : Bool
  liquidating : Bool
  liquidationUntil : String
  lowerUnitNav : String
  upperUnitNav : String
  grant : GrantSnapshot
  stocks : Fin 3 → StockSnapshot
  runtimeEquity : Option String
  vaultEquity : Option String
  unitNav : Option String
  valuation : Valuation

def tradingAbiVersion : String := "alphaforge-trading-v1"

section Reading

variable (abi : AbiHashes) (node : Node) (manifest : DeploymentManifest)
  (inventory : TradingInventory) (block : Block)

/-- Everything whose code is pinned. -/
def pinned : List (Address × Bytes32) :=
  (manifest.contractAddress, manifest.runtimeBytecodeHash) ::
    (manifest.strategyPassAddress, manifest.strategyPassRuntimeBytecodeHash) :: inventory.codeHashes

/-- The manifest, the chain, the block and the code. -/
def checkDeployment : Except String Unit := do
  ensure (manifest.contractName = "AlphaForgeTradingVault" ∧ manifest.contractType = "vault" ∧
    manifest.abiVersion = tradingAbiVersion ∧ manifest.abiHash = abi.trading ∧
    manifest.strategyPassAbiHash = abi.strategyPass ∧
    inventory.deploymentManifestDigest = manifest.manifestDigest) "TRADING_DEPLOYMENT_IDENTITY"
  ensure (node.chainId = testnetChainId) "TRADING_WRONG_CHAIN"
  ensure (manifest.deploymentBlock ≤ block.number ∧
    manifest.strategyPassDeploymentBlock ≤ block.number) "TRADING_BLOCK"
  ensure (node.codeHash inventory.owner = none) "TRADING_EOA_OWNER_REQUIRED"
  ensure ((pinned manifest inventory).map Prod.fst).Nodup "TRADING_DEPLOYMENT_IDENTITY"
  ensure ((pinned manifest inventory).all (fun e => node.codeHash e.1 = some e.2) = true)
    "TRADING_CODE_MISMATCH"

def checkImmutables : Except String Unit := do
  ensure (node.vault.owner = inventory.owner ∧ node.vault.pass = manifest.strategyPassAddress ∧
    node.vault.afUsdc = inventory.usdc ∧ node.vault.router = inventory.router ∧
    node.vault.locker.self = inventory.passLocker) "TRADING_IMMUTABLE_MISMATCH"
  ensure (node.vault.maxPriceAge = inventory.maxPriceAge) "TRADING_IMMUTABLE_MISMATCH"
  ensure (node.vault.strategyId = node.strategyId manifest.strategyPassAddress)
    "TRADING_PASS_MISMATCH"

/-- The cash, the escrow and the venue. -/
def checkBacking : Except String Unit := do
  let s := node.state
  ensure (node.decimals inventory.usdc = 6 ∧ node.decimals manifest.strategyPassAddress = 18 ∧
    s.locker.lockedBalance = s.principalBasis * 10 ^ 12 ∧
    s.idleCash + s.runtimeCash ≤ s.tokens.balanceOf inventory.usdc manifest.contractAddress ∧
    s.locker.lockedBalance ≤
      s.tokens.balanceOf manifest.strategyPassAddress inventory.passLocker ∧
    s.tokens.allowance inventory.usdc manifest.contractAddress inventory.router = 0)
    "TRADING_BACKING_MISMATCH"
  ensure (node.factory inventory.router = inventory.factory ∧
    node.factory inventory.quoter = inventory.factory) "TRADING_VENUE_MISMATCH"

def priceValid (i : Fin 3) : Bool :=
  let quote := node.price (inventory.stocks i).feed
  0 < quote.price ∧ quote.digest ≠ 0 ∧ quote.observedAt ≤ block.timestamp ∧
    block.timestamp - quote.observedAt ≤ inventory.maxPriceAge

def checkStock (i : Fin 3) : Except String Unit := do
  let stock := inventory.stocks i
  let s := node.state
  ensure (node.vault.stocks i = stock.token ∧ node.vault.feeds i = stock.feed ∧
    node.keeper stock.feed = stock.keeper ∧
    node.referenceIdentity stock.feed = stock.referenceIdentity) "TRADING_ASSET_MISMATCH"
  -- the two tokens of the pool, in whichever order it has them
  ensure (node.getPool inventory.usdc stock.token 3000 = stock.pool ∧
    node.factory stock.pool = inventory.factory ∧ node.fee stock.pool = 3000 ∧
    ((node.token0 stock.pool = stock.token ∧ node.token1 stock.pool = inventory.usdc) ∨
      (node.token0 stock.pool = inventory.usdc ∧ node.token1 stock.pool = stock.token)))
    "TRADING_VENUE_MISMATCH"
  ensure (node.decimals stock.token = 18 ∧
    s.trackedPosition stock.token ≤ s.tokens.balanceOf stock.token manifest.contractAddress ∧
    s.tokens.allowance stock.token manifest.contractAddress inventory.router = 0)
    "TRADING_BACKING_MISMATCH"

def stockSnapshot (i : Fin 3) : StockSnapshot :=
  let stock := inventory.stocks i
  let quote := node.price stock.feed
  { symbol := stock.symbol, token := stock.token, feed := stock.feed, pool := stock.pool
    position := (node.state.trackedPosition stock.token).repr
    priceUsdc := quote.price.repr, observedAt := quote.observedAt.repr
    sourceDigest := quote.digest, priceValid := priceValid node inventory block i
    lowerPrice := (node.state.lowerPrice i).repr, upperPrice := (node.state.upperPrice i).repr }

/-- The number of stocks held. -/
def heldCount : Nat :=
  ((List.finRange 3).filter fun i => 0 < node.state.trackedPosition (inventory.stocks i).token).length

def checkAccounting : Except String Unit := do
  let s := node.state
  ensure (s.openTrackedPositionCount = heldCount node inventory ∧
    ¬ (s.closed = true ∧ (s.principalBasis ≠ 0 ∨ s.runtimeUnits ≠ 0 ∨ s.idleCash ≠ 0 ∨
      s.runtimeCash ≠ 0 ∨ heldCount node inventory ≠ 0))) "TRADING_ACCOUNTING_MISMATCH"

/-- Every stock that is held has a price to value it at. -/
def valued : Bool :=
  (List.finRange 3).all fun i =>
    node.state.trackedPosition (inventory.stocks i).token = 0 ∨ priceValid node inventory block i

def equity : Nat :=
  (List.finRange 3).foldl (fun total i => total +
    node.state.trackedPosition (inventory.stocks i).token *
      (node.price (inventory.stocks i).feed).price / 10 ^ 18) node.state.runtimeCash

/-- The record the reader returns. -/
def tradingSnapshot : TradingSnapshot :=
  let s := node.state
  let valid := valued node inventory block
  let total := equity node inventory
  { maxPriceAge := inventory.maxPriceAge
    chainId := testnetChainId
    blockNumber := block.number.repr
    blockHash := block.hash
    blockTimestamp := block.timestamp.repr
    manifestDigest := manifest.manifestDigest
    owner := inventory.owner
    vault := manifest.contractAddress
    pass := manifest.strategyPassAddress
    stateVersion := s.stateVersion.repr
    grantVersion := s.grantVersion.repr
    principalBasis := s.principalBasis.repr
    idleCash := s.idleCash.repr
    runtimeCash := s.runtimeCash.repr
    runtimeUnits := s.runtimeUnits.repr
    lockedPass := s.locker.lockedBalance.repr
    totalBuyUsdc := s.totalBuyUsdc.repr
    closed := s.closed
    liquidating := s.liquidating
    liquidationUntil := s.liquidationUntil.repr
    lowerUnitNav := s.lowerUnitNav.repr
    upperUnitNav := s.upperUnitNav.repr
    grant :=
      { executor := s.grant.executor
        expiresAt := s.grant.expiresAt.repr
        liquidationWindow := s.grant.liquidationWindow.repr
        maxOrderUsdc := s.grant.maxOrderUsdc.repr
        maxTotalBuyUsdc := s.grant.maxTotalBuyUsdc.repr
        maxSlippageBps := s.grant.maxSlippageBps.repr }
    stocks := stockSnapshot node inventory block
    runtimeEquity := if valid then some total.repr else none
    vaultEquity := if valid then some (total + s.idleCash).repr else none
    unitNav :=
      if valid then
        if s.runtimeUnits = 0 then some "0" else some (total * 10 ^ 18 / s.runtimeUnits).repr
      else none
    valuation := if valid then .valid else .staleReference }

def readTradingSnapshot : Except String TradingSnapshot := do
  checkDeployment abi node manifest inventory block
  checkImmutables node manifest inventory
  checkBacking node manifest inventory
  (List.finRange 3).forM (checkStock node manifest inventory)
  checkAccounting node inventory
  ensure (node.blockHash block.number = some block.hash) "TRADING_REORG"
  return tradingSnapshot node manifest inventory block

end Reading

end Indexer
end AlphaForge
