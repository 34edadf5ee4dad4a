/-
The permits of the risk engine, `security-model/index.ts`.

A user grants a strategy a policy, the strategy's runtime signs a decision, and the
engine turns the decision into orders on a snapshot of the account.  It signs a
permit for them when every check of the source passes.  Amounts are decimal text, as
in the source, and `bigInt` is the number a text names.  Signatures, digests and the
order of keys are the caller's, and a date may be invalid.
-/
import AlphaForge.Data.Canonical
import AlphaForge.Data.OrderedMap
import AlphaForge.Evm.Exec
import AlphaForge.Machine.Commit
import AlphaForge.Text.Timestamp
import Mathlib.Algebra.Order.Group.Unbundled.Int

namespace AlphaForge
namespace Security

open Evm Commit Text

structure Signature where
  algorithm : String
  keyId : String
  value : String
  deriving DecidableEq

structure Signed (α : Type) where
  payload : α
  signature : Signature

structure ExecutionPermissions where
  readAccount : Bool
  readMarketData : Bool
  placeOrders : Bool
  withdraw : Bool
  transfer : Bool
  deriving DecidableEq

structure RiskPolicy where
  schemaVersion : Int
  allowedVenues : List String
  allowedInstruments : List String
  maxPositionNotionalUsdMicros : String
  maxOrderNotionalUsdMicros : String
  maxGrossNotionalUsdMicros : String
  maxLeverageBps : Int
  maxDailyLossUsdMicros : String
  maxDecisionAgeMs : Int
  maxAccountSnapshotAgeMs : Int
  maxClockSkewMs : Int
  executionPermitTtlMs : Int
  deriving DecidableEq

structure AuthorizationGrant where
  grantId : String
  userId : String
  strategyFamilyId : String
  validFrom : String
  validUntil : String
  permissions : ExecutionPermissions
  policy : RiskPolicy
  deriving DecidableEq

structure PositionTarget where
  instrument : String
  targetNotionalUsdMicros : String
  deriving DecidableEq

structure StrategyDecision where
  decisionId : String
  nonce : String
  grantId : String
  strategyFamilyId : String
  strategyVersionId : String
  codeMeasurement : String
  policyHash : String
  venue : String
  targets : List PositionTarget
  issuedAt : String
  expiresAt : String
  deriving DecidableEq

structure TrustedStrategyRelease where
  strategyFamilyId : String
  strategyVersionId : String
  codeMeasurement : String
  signerKeyId : String
  runtimePublicKeyPem : String
  deriving DecidableEq

/-- An object with text values: its keys are distinct. -/
structure TextRecord where
  entries : OrderedMap String String
  nodup : entries.keys.Nodup

structure AccountSnapshot where
  snapshotId : String
  userId : String
  venue : String
  capturedAt : String
  equityUsdMicros : String
  dailyPnlUsdMicros : String
  positionNotionalUsdMicros : TextRecord

structure ExecutionOrder where
  instrument : String
  deltaNotionalUsdMicros : String
  deriving DecidableEq

/-- Its `schemaVersion` and `capabilityProfile` are fixed. -/
structure ExecutionPermit where
  permitId : String
  grantId : String
  userId : String
  venue : String
  orders : List ExecutionOrder
  decisionCommitment : String
  policyHash : String
  accountSnapshotHash : String
  issuedAt : String
  expiresAt : String
  deriving DecidableEq

structure RiskSigner where
  keyId : String
  privateKeyPem : String

/-- A date is invalid or a time that is not too far away. -/
structure Date where
  getTime : Option Int
  clipped : ∀ t ∈ getTime, -maxTime ≤ t ∧ t ≤ maxTime

inductive Failure where
  | securityModelError (code message : String)
  | other (message : String)
  deriving DecidableEq

/-- A replay store with state `σ`. -/
structure ReplayStore (σ : Type) where
  consume : (scope nonce : String) → (expiresAtEpochMs nowEpochMs : Int) → EStateM Failure σ Bool

structure IssueExecutionPermitInput (σ : Type) where
  grant : Signed AuthorizationGrant
  expectedUserSigningKeyId : String
  userPublicKeyPem : String
  decision : Signed StrategyDecision
  release : TrustedStrategyRelease
  account : AccountSnapshot
  replayStore : ReplayStore σ
  riskSigner : RiskSigner
  now : Option Date

/-! ## Checks of single values -/

def check (p : Prop) [Decidable p] (code message : String) : Except Failure Unit :=
  ensure p (.securityModelError code message)

def isAlphanumeric (d : Char) : Bool :=
  ('A' ≤ d && d ≤ 'Z') || ('a' ≤ d && d ≤ 'z') || ('0' ≤ d && d ≤ '9')

/-- A letter or a digit, and at most 127 more characters that may also be punctuation. -/
def isIdentifier (v : String) : Bool :=
  match v.toList with
  | [] => false
  | d :: ds =>
      isAlphanumeric d && ds.length ≤ 127 &&
        ds.all fun d => isAlphanumeric d || [':', '.', '_', '/', '-'].contains d

/-- `/^(0|[1-9]\d*)$/`. -/
def isUnsigned : List Char → Bool
  | [] => false
  | d :: ds => (d = '0' && ds.isEmpty) || ('1' ≤ d && d ≤ '9' && ds.all Char.isDigit)

/-- `/^-?(0|[1-9]\d*)$/`. -/
def isAmount (v : String) : Bool :=
  match v.toList with
  | '-' :: ds => isUnsigned ds
  | ds => isUnsigned ds

/-- `BigInt` of such a text. -/
def bigInt (v : String) : Int :=
  match v.toList with
  | '-' :: ds => -(Nat.ofDigitChars 10 ds 0 : Int)
  | ds => Nat.ofDigitChars 10 ds 0

def parseAmount (name value : String) : Except Failure Int := do
  check (isAmount value = true) "INVALID_AMOUNT" (name ++ " must be a canonical integer string")
  return bigInt value

def parsePositiveAmount (name value : String) : Except Failure Int := do
  let amount ← parseAmount name value
  check (0 < amount) "INVALID_AMOUNT" (name ++ " must be positive")
  return amount

def parseTimestamp (name value : String) : Except Failure Int :=
  match dateParse value with
  | none => .error (.securityModelError "INVALID_TIMESTAMP" (name ++ " must be a canonical ISO timestamp"))
  | some parsed => do
      check (toISOString parsed = value) "INVALID_TIMESTAMP"
        (name ++ " must be a canonical ISO timestamp")
      return parsed

def assertIdentifier (name value : String) : Except Failure Unit :=
  check (isIdentifier value = true) "INVALID_IDENTIFIER" (name ++ " is invalid")

def assertUniqueIdentifiers (name : String) (values : List String) (limit : Nat) :
    Except Failure Unit := do
  check (values ≠ [] ∧ values.length ≤ limit) "INVALID_ALLOWLIST"
    (name ++ " must contain between 1 and " ++ toString limit ++ " entries")
  let _ ← values.foldlM (fun unique value => do
    assertIdentifier name value
    check (value ∉ unique) "INVALID_ALLOWLIST" (name ++ " contains a duplicate entry")
    return unique ++ [value]) []

/-- `/^[0-9a-f]{64}$/`. -/
def isHash (ds : List Char) : Bool := ds.length = 64 && ds.all isHexDigit

/-- `/^sha256:[0-9a-f]{64}$/`. -/
def isMeasurement (v : String) : Bool :=
  v.toList.take 7 = ['s', 'h', 'a', '2', '5', '6', ':'] && isHash (v.toList.drop 7)

def assertMeasurement (name value : String) : Except Failure Unit :=
  check (isMeasurement value = true) "INVALID_MEASUREMENT" (name ++ " must be a sha256 measurement")

def assertHash (name value : String) : Except Failure Unit :=
  check (isHash value.toList = true) "INVALID_HASH" (name ++ " must be a lowercase sha256 hash")

def assertBoundedInteger (name : String) (value minimum maximum : Int) : Except Failure Unit :=
  check (-Json.maxSafeInteger ≤ value ∧ value ≤ Json.maxSafeInteger ∧ minimum ≤ value ∧ value ≤ maximum)
    "INVALID_INTEGER" (name ++ " must be an integer between " ++ toString minimum ++ " and " ++
      toString maximum)

/-! ## Checks of the parts -/

def validatePolicy (policy : RiskPolicy) : Except Failure Unit := do
  check (policy.schemaVersion = 1) "UNSUPPORTED_POLICY" "Unsupported risk policy version"
  assertUniqueIdentifiers "policy.allowedVenues" policy.allowedVenues 16
  assertUniqueIdentifiers "policy.allowedInstruments" policy.allowedInstruments 128
  let _ ← parsePositiveAmount "policy.maxPositionNotionalUsdMicros" policy.maxPositionNotionalUsdMicros
  let _ ← parsePositiveAmount "policy.maxOrderNotionalUsdMicros" policy.maxOrderNotionalUsdMicros
  let _ ← parsePositiveAmount "policy.maxGrossNotionalUsdMicros" policy.maxGrossNotionalUsdMicros
  let _ ← parsePositiveAmount "policy.maxDailyLossUsdMicros" policy.maxDailyLossUsdMicros
  assertBoundedInteger "policy.maxLeverageBps" policy.maxLeverageBps 1 100000
  assertBoundedInteger "policy.maxDecisionAgeMs" policy.maxDecisionAgeMs 100 3600000
  assertBoundedInteger "policy.maxAccountSnapshotAgeMs" policy.maxAccountSnapshotAgeMs 100 60000
  assertBoundedInteger "policy.maxClockSkewMs" policy.maxClockSkewMs 0 60000
  assertBoundedInteger "policy.executionPermitTtlMs" policy.executionPermitTtlMs 100 60000
  check (policy.executionPermitTtlMs ≤ policy.maxDecisionAgeMs) "INVALID_POLICY"
    "Execution permit TTL cannot exceed decision age"

def validateGrant (grant : AuthorizationGrant) (nowMs : Int) : Except Failure Unit := do
  assertIdentifier "grant.grantId" grant.grantId
  assertIdentifier "grant.userId" grant.userId
  assertIdentifier "grant.strategyFamilyId" grant.strategyFamilyId
  let validFromMs ← parseTimestamp "grant.validFrom" grant.validFrom
  let validUntilMs ← parseTimestamp "grant.validUntil" grant.validUntil
  check (validFromMs < validUntilMs) "INVALID_GRANT_WINDOW" "The grant validity window is invalid"
  check (validFromMs ≤ nowMs ∧ nowMs < validUntilMs) "GRANT_INACTIVE"
    "The authorization grant is not active"
  check (grant.permissions = ⟨true, true, true, false, false⟩) "UNSAFE_PERMISSIONS"
    "Only the non-custodial trade-only permission profile is accepted"
  validatePolicy grant.policy

def validateReleaseBinding (decision : StrategyDecision) (release : TrustedStrategyRelease) :
    Except Failure Unit := do
  assertIdentifier "release.strategyFamilyId" release.strategyFamilyId
  assertIdentifier "release.strategyVersionId" release.strategyVersionId
  assertIdentifier "release.signerKeyId" release.signerKeyId
  assertMeasurement "release.codeMeasurement" release.codeMeasurement
  check (decision.strategyFamilyId = release.strategyFamilyId ∧
      decision.strategyVersionId = release.strategyVersionId ∧
      decision.codeMeasurement = release.codeMeasurement) "UNTRUSTED_RELEASE"
    "The decision does not match a trusted strategy release"

def validateDecisionBinding (decision : StrategyDecision) (grant : AuthorizationGrant)
    (nowMs : Int) : Except Failure Unit := do
  assertIdentifier "decision.decisionId" decision.decisionId
  assertIdentifier "decision.nonce" decision.nonce
  assertIdentifier "decision.grantId" decision.grantId
  assertIdentifier "decision.strategyFamilyId" decision.strategyFamilyId
  assertIdentifier "decision.strategyVersionId" decision.strategyVersionId
  assertMeasurement "decision.codeMeasurement" decision.codeMeasurement
  assertIdentifier "decision.venue" decision.venue
  assertHash "decision.policyHash" decision.policyHash
  check (decision.grantId = grant.grantId ∧ decision.strategyFamilyId = grant.strategyFamilyId)
    "DECISION_GRANT_MISMATCH" "The strategy decision is not bound to this authorization grant"
  check (decision.venue ∈ grant.policy.allowedVenues) "VENUE_NOT_ALLOWED"
    "The requested venue is outside the authorization policy"
  let issuedAtMs ← parseTimestamp "decision.issuedAt" decision.issuedAt
  let expiresAtMs ← parseTimestamp "decision.expiresAt" decision.expiresAt
  check (issuedAtMs ≤ nowMs + grant.policy.maxClockSkewMs) "DECISION_FROM_FUTURE"
    "The strategy decision timestamp is ahead of the accepted clock skew"
  check (nowMs - issuedAtMs ≤ grant.policy.maxDecisionAgeMs ∧ nowMs < expiresAtMs) "STALE_DECISION"
    "The strategy decision is stale or expired"
  check (issuedAtMs < expiresAtMs ∧ expiresAtMs - issuedAtMs ≤ grant.policy.maxDecisionAgeMs)
    "INVALID_DECISION_WINDOW" "The strategy decision validity window is invalid"
  check (decision.targets.length ≤ 128) "TOO_MANY_TARGETS" "The strategy decision has too many targets"

def validateAccount (account : AccountSnapshot) (grant : AuthorizationGrant) (nowMs : Int) :
    Except Failure Unit := do
  assertIdentifier "account.snapshotId" account.snapshotId
  assertIdentifier "account.userId" account.userId
  assertIdentifier "account.venue" account.venue
  check (account.userId = grant.userId) "ACCOUNT_USER_MISMATCH"
    "The account snapshot belongs to another user"
  check (account.venue ∈ grant.policy.allowedVenues) "ACCOUNT_VENUE_NOT_ALLOWED"
    "The account venue is outside the authorization policy"
  let capturedAtMs ← parseTimestamp "account.capturedAt" account.capturedAt
  check (capturedAtMs ≤ nowMs + grant.policy.maxClockSkewMs) "ACCOUNT_SNAPSHOT_FROM_FUTURE"
    "The account snapshot timestamp is invalid"
  check (nowMs - capturedAtMs ≤ grant.policy.maxAccountSnapshotAgeMs) "STALE_ACCOUNT_SNAPSHOT"
    "The account snapshot is stale"
  let _ ← parsePositiveAmount "account.equityUsdMicros" account.equityUsdMicros
  let _ ← parseAmount "account.dailyPnlUsdMicros" account.dailyPnlUsdMicros
  let positions := account.positionNotionalUsdMicros.entries
  check (positions.length ≤ 1000) "TOO_MANY_POSITIONS" "The account snapshot has too many positions"
  positions.forM fun e => do
    assertIdentifier "account.position.instrument" e.1
    let _ ← parseAmount ("account.position." ++ e.1) e.2

/-! ## Risk -/

def grossNotional (values : List Int) : Int := values.foldl (fun total value => total + |value|) 0

/-- What the loop over the targets has seen, ordered and set so far. -/
structure Progress where
  seenTargets : List String
  orders : List ExecutionOrder
  resultingPositions : OrderedMap String Int

/-- One target. -/
def takeTarget (policy : RiskPolicy) (currentPositions : OrderedMap String Int)
    (maxPosition maxOrder : Int) (p : Progress) (target : PositionTarget) :
    Except Failure Progress := do
  assertIdentifier "decision.target.instrument" target.instrument
  check (target.instrument ∉ p.seenTargets) "DUPLICATE_TARGET"
    "The strategy decision repeats an instrument"
  check (target.instrument ∈ policy.allowedInstruments) "INSTRUMENT_NOT_ALLOWED"
    "A target instrument is outside the authorization policy"
  let targetAmount ← parseAmount "decision.target.targetNotionalUsdMicros" target.targetNotionalUsdMicros
  check (|targetAmount| ≤ maxPosition) "POSITION_LIMIT_EXCEEDED"
    "A target position exceeds the per-instrument limit"
  let currentAmount := (currentPositions.get? target.instrument).getD 0
  let delta := targetAmount - currentAmount
  check (|delta| ≤ maxOrder) "ORDER_LIMIT_EXCEEDED" "A requested order exceeds the order limit"
  return {
    seenTargets := p.seenTargets ++ [target.instrument]
    orders := if delta = 0 then p.orders else p.orders ++ [⟨target.instrument, toString delta⟩]
    resultingPositions := p.resultingPositions.set target.instrument targetAmount }

/-- `currentPositions`. -/
def readPositions (account : AccountSnapshot) : Except Failure (OrderedMap String Int) :=
  account.positionNotionalUsdMicros.entries.foldlM (fun positions e => do
    let amount ← parseAmount ("account.position." ++ e.1) e.2
    return positions.set e.1 amount) []

def isReductionOnly (targets : List PositionTarget) (current : OrderedMap String Int) :
    Except Failure Bool :=
  match targets with
  | [] => .ok true
  | target :: rest => do
      let before := (current.get? target.instrument).getD 0
      let after ← parseAmount "decision.target.targetNotionalUsdMicros" target.targetNotionalUsdMicros
      if |after| ≤ |before| ∧ (after = 0 ∨ (before ≠ 0 ∧ (0 < after ↔ 0 < before))) then
        isReductionOnly rest current
      else
        return false

def evaluateRisk (decision : StrategyDecision) (account : AccountSnapshot) (policy : RiskPolicy) :
    Except Failure (List ExecutionOrder) := do
  check (decision.venue = account.venue) "VENUE_MISMATCH" "The decision and account venue do not match"
  let currentPositions ← readPositions account
  let maxPosition ← parsePositiveAmount "policy.maxPositionNotionalUsdMicros"
    policy.maxPositionNotionalUsdMicros
  let maxOrder ← parsePositiveAmount "policy.maxOrderNotionalUsdMicros" policy.maxOrderNotionalUsdMicros
  let p ← decision.targets.foldlM (takeTarget policy currentPositions maxPosition maxOrder)
    ⟨[], [], currentPositions⟩
  let currentGross := grossNotional (currentPositions.map Prod.snd)
  let resultingGross := grossNotional (p.resultingPositions.map Prod.snd)
  let maxGross ← parsePositiveAmount "policy.maxGrossNotionalUsdMicros" policy.maxGrossNotionalUsdMicros
  check (resultingGross ≤ maxGross) "GROSS_LIMIT_EXCEEDED"
    "The resulting portfolio exceeds the gross limit"
  let equity ← parsePositiveAmount "account.equityUsdMicros" account.equityUsdMicros
  check (resultingGross * 10000 ≤ equity * policy.maxLeverageBps) "LEVERAGE_LIMIT_EXCEEDED"
    "The resulting portfolio exceeds the leverage limit"
  let dailyPnl ← parseAmount "account.dailyPnlUsdMicros" account.dailyPnlUsdMicros
  let maxDailyLoss ← parsePositiveAmount "policy.maxDailyLossUsdMicros" policy.maxDailyLossUsdMicros
  if dailyPnl ≤ -maxDailyLoss then
    check (resultingGross < currentGross) "DAILY_LOSS_KILL_SWITCH"
      "The daily loss limit permits exposure reduction only"
    let reduces ← isReductionOnly decision.targets currentPositions
    check (reduces = true) "DAILY_LOSS_KILL_SWITCH"
      "The daily loss limit permits exposure reduction only"
  return p.orders

/-! ## Signed values -/

/-- What the engine does not compute itself.  A key or a signature that cannot be read is
a signature that does not verify, and a key that cannot be read signs nothing. -/
structure Crypto where
  localeCompare : String → String → Ordering
  sha256 : String → String
  sign : (privateKeyPem text : String) → Except Failure String
  verify : (publicKeyPem text value : String) → Bool

def texts (values : List String) : Json := .array (values.map .string)

def RiskPolicy.json (policy : RiskPolicy) : Json :=
  .object [("schemaVersion", .number policy.schemaVersion),
    ("allowedVenues", texts policy.allowedVenues),
    ("allowedInstruments", texts policy.allowedInstruments),
    ("maxPositionNotionalUsdMicros", .string policy.maxPositionNotionalUsdMicros),
    ("maxOrderNotionalUsdMicros", .string policy.maxOrderNotionalUsdMicros),
    ("maxGrossNotionalUsdMicros", .string policy.maxGrossNotionalUsdMicros),
    ("maxLeverageBps", .number policy.maxLeverageBps),
    ("maxDailyLossUsdMicros", .string policy.maxDailyLossUsdMicros),
    ("maxDecisionAgeMs", .number policy.maxDecisionAgeMs),
    ("maxAccountSnapshotAgeMs", .number policy.maxAccountSnapshotAgeMs),
    ("maxClockSkewMs", .number policy.maxClockSkewMs),
    ("executionPermitTtlMs", .number policy.executionPermitTtlMs)]

def ExecutionPermissions.json (permissions : ExecutionPermissions) : Json :=
  .object [("readAccount", .bool permissions.readAccount),
    ("readMarketData", .bool permissions.readMarketData),
    ("placeOrders", .bool permissions.placeOrders), ("withdraw", .bool permissions.withdraw),
    ("transfer", .bool permissions.transfer)]

def AuthorizationGrant.json (grant : AuthorizationGrant) : Json :=
  .object [("grantId", .string grant.grantId), ("userId", .string grant.userId),
    ("strategyFamilyId", .string grant.strategyFamilyId), ("validFrom", .string grant.validFrom),
    ("validUntil", .string grant.validUntil), ("permissions", grant.permissions.json),
    ("policy", grant.policy.json)]

def PositionTarget.json (target : PositionTarget) : Json :=
  .object [("instrument", .string target.instrument),
    ("targetNotionalUsdMicros", .string target.targetNotionalUsdMicros)]

def StrategyDecision.json (decision : StrategyDecision) : Json :=
  .object [("decisionId", .string decision.decisionId), ("nonce", .string decision.nonce),
    ("grantId", .string decision.grantId), ("strategyFamilyId", .string decision.strategyFamilyId),
    ("strategyVersionId", .string decision.strategyVersionId),
    ("codeMeasurement", .string decision.codeMeasurement),
    ("policyHash", .string decision.policyHash), ("venue", .string decision.venue),
    ("targets", .array (decision.targets.map PositionTarget.json)),
    ("issuedAt", .string decision.issuedAt), ("expiresAt", .string decision.expiresAt)]

def Signature.json (signature : Signature) : Json :=
  .object [("algorithm", .string signature.algorithm), ("keyId", .string signature.keyId),
    ("value", .string signature.value)]

def AccountSnapshot.json (account : AccountSnapshot) : Json :=
  .object [("snapshotId", .string account.snapshotId), ("userId", .string account.userId),
    ("venue", .string account.venue), ("capturedAt", .string account.capturedAt),
    ("equityUsdMicros", .string account.equityUsdMicros),
    ("dailyPnlUsdMicros", .string account.dailyPnlUsdMicros),
    ("positionNotionalUsdMicros", .object (account.positionNotionalUsdMicros.entries.map fun e =>
      (e.1, .string e.2)))]

def ExecutionOrder.json (order : ExecutionOrder) : Json :=
  .object [("instrument", .string order.instrument),
    ("deltaNotionalUsdMicros", .string order.deltaNotionalUsdMicros)]

def ExecutionPermit.json (permit : ExecutionPermit) : Json :=
  .object [("schemaVersion", .number 1), ("permitId", .string permit.permitId),
    ("grantId", .string permit.grantId), ("userId", .string permit.userId),
    ("venue", .string permit.venue), ("orders", .array (permit.orders.map ExecutionOrder.json)),
    ("decisionCommitment", .string permit.decisionCommitment),
    ("policyHash", .string permit.policyHash),
    ("accountSnapshotHash", .string permit.accountSnapshotHash),
    ("issuedAt", .string permit.issuedAt), ("expiresAt", .string permit.expiresAt),
    ("capabilityProfile", .string "trade-only-v1")]

section Signatures

variable (crypto : Crypto)

/-- The only values without a text here are numbers that are too large. -/
def canonicalJson (value : Json) : Except Failure String := do
  check (value.text.isSome = true) "INVALID_CANONICAL_NUMBER"
    "Signed numeric fields must be safe integers"
  return value.canonical crypto.localeCompare

def hashPayload (payload : Json) : Except Failure String := do
  return crypto.sha256 (← canonicalJson crypto payload)

def signPayload {α : Type} (json : α → Json) (payload : α) (keyId privateKey : String) :
    Except Failure (Signed α) := do
  assertIdentifier "keyId" keyId
  let value ← crypto.sign privateKey (← canonicalJson crypto (json payload))
  return { payload, signature := { algorithm := "Ed25519", keyId, value } }

def verifySignedPayload {α : Type} (json : α → Json) (signed : Signed α)
    (expectedKeyId publicKey : String) : Bool :=
  signed.signature.algorithm = "Ed25519" && signed.signature.keyId = expectedKeyId &&
    match canonicalJson crypto (json signed.payload) with
    | .ok text => crypto.verify publicKey text signed.signature.value
    | .error _ => false

variable {σ : Type}

/-- Everything before the nonce is consumed: the orders, the hash of the policy and the time
at which the decision expires. -/
def assess (input : IssueExecutionPermitInput σ) (nowMs : Int) :
    Except Failure (List ExecutionOrder × String × Int) := do
  check (verifySignedPayload crypto AuthorizationGrant.json input.grant input.expectedUserSigningKeyId
      input.userPublicKeyPem = true) "INVALID_USER_SIGNATURE"
    "The authorization grant signature is invalid"
  validateGrant input.grant.payload nowMs
  let decision := input.decision
  check (verifySignedPayload crypto StrategyDecision.json decision input.release.signerKeyId
      input.release.runtimePublicKeyPem = true) "INVALID_RUNTIME_SIGNATURE"
    "The strategy runtime signature is invalid"
  validateReleaseBinding decision.payload input.release
  validateDecisionBinding decision.payload input.grant.payload nowMs
  validateAccount input.account input.grant.payload nowMs
  let expectedPolicyHash ← hashPayload crypto input.grant.payload.policy.json
  check (decision.payload.policyHash = expectedPolicyHash) "POLICY_HASH_MISMATCH"
    "The strategy decision is not bound to the active risk policy"
  let orders ← evaluateRisk decision.payload input.account input.grant.payload.policy
  let decisionExpiryMs ← parseTimestamp "decision.expiresAt" decision.payload.expiresAt
  return (orders, expectedPolicyHash, decisionExpiryMs)

/-- Everything after it. -/
def makePermit (input : IssueExecutionPermitInput σ) (nowMs : Int) (orders : List ExecutionOrder)
    (expectedPolicyHash : String) (decisionExpiryMs : Int) :
    Except Failure (Signed ExecutionPermit) := do
  let grant := input.grant.payload
  let validUntilMs ← parseTimestamp "grant.validUntil" grant.validUntil
  let expiresAtMs := min decisionExpiryMs (min validUntilMs (nowMs + grant.policy.executionPermitTtlMs))
  let issuedAt := toISOString nowMs
  let decisionCommitment ← hashPayload crypto (.object [("payload", input.decision.payload.json),
    ("signature", input.decision.signature.json)])
  let accountSnapshotHash ← hashPayload crypto input.account.json
  let permitId ← hashPayload crypto (.object [("accountSnapshotHash", .string accountSnapshotHash),
    ("decisionCommitment", .string decisionCommitment), ("grantId", .string grant.grantId),
    ("issuedAt", .string issuedAt)])
  let permit : ExecutionPermit := {
    permitId, grantId := grant.grantId, userId := grant.userId, venue := input.decision.payload.venue
    orders, decisionCommitment, policyHash := expectedPolicyHash, accountSnapshotHash, issuedAt
    expiresAt := toISOString expiresAtMs }
  signPayload crypto ExecutionPermit.json permit input.riskSigner.keyId input.riskSigner.privateKeyPem

/-- `clock` is what `new Date()` gives. -/
def issueExecutionPermit (clock : Date) (input : IssueExecutionPermitInput σ) :
    EStateM Failure σ (Signed ExecutionPermit) :=
  match (input.now.getD clock).getTime with
  | none => throw (.securityModelError "INVALID_TIME" "The risk-engine clock is invalid")
  | some nowMs => do
      let (orders, expectedPolicyHash, decisionExpiryMs) ← await (assess crypto input nowMs)
      let consumed ← input.replayStore.consume
        (input.grant.payload.grantId ++ ":" ++ input.release.strategyVersionId)
        input.decision.payload.nonce decisionExpiryMs nowMs
      await (check (consumed = true) "REPLAYED_DECISION"
        "The strategy decision nonce has already been consumed")
      await (makePermit crypto input nowMs orders expectedPolicyHash decisionExpiryMs)

end Signatures

/-! ## The store in memory -/

/-- `MemoryReplayStore`, with the expiries by key. -/
def memoryReplayStore : ReplayStore (OrderedMap String Int) where
  consume scope nonce expiresAtEpochMs nowEpochMs := fun seen =>
    let kept : OrderedMap String Int := seen.filter fun e => decide (nowEpochMs ≤ e.2)
    let key := scope ++ ":" ++ nonce
    if (kept.get? key).isSome then .ok false kept
    else .ok true (kept.set key expiresAtEpochMs)

end Security
end AlphaForge
