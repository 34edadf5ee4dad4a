/-
Accounts, wallets and claim vouchers, `LaunchMarketStore` of
`packages/launch-market`.

Each table is a map from its primary key, and the unique columns are checked where
a row is written.  What the store draws at random is an argument of the call.  A
message to sign is kept as the values it spells out.
-/
import AlphaForge.Data.OrderedMap
import AlphaForge.Machine.Commit
import AlphaForge.Market.Types

namespace AlphaForge
namespace MarketStore

open Evm Market
open Commit (await atomic)

/-! ## Tables -/

inductive Identity where
  | google (email subject : String) (verifiedAt : Int)
  | walletTest
  deriving DecidableEq

def Identity.email : Identity → Option String
  | .google email _ _ => some email
  | .walletTest => none

def Identity.subject : Identity → Option String
  | .google _ subject _ => some subject
  | .walletTest => none

structure AccountRow where
  accountKey : Bytes32
  identity : Identity
  wallet : Option Address
  createdAt : Int
  deriving DecidableEq

/-- The text that a wallet signs, for an account to link or for a session of its
own. -/
structure Message where
  accountId : Option String
  wallet : Address
  nonce : BitVec 192
  issuedAt : Int
  expiresAt : Int
  deriving DecidableEq

structure ChallengeRow where
  accountId : String
  wallet : Address
  message : Message
  expiresAt : Int
  consumed : Bool
  deriving DecidableEq

structure TestChallengeRow where
  wallet : Address
  message : Message
  issuedAt : Int
  expiresAt : Int
  consumed : Bool
  deriving DecidableEq

structure SessionRow where
  accountId : String
  wallet : Address
  csrfToken : String
  createdAt : Int
  expiresAt : Int
  deriving DecidableEq

inductive VoucherStatus where
  | issued
  | submitted
  | included
  | completed
  | reorged
  | reverted
  | expired
  deriving DecidableEq

structure VoucherRow where
  accountKey : Bytes32
  wallet : Address
  nonce : Bytes32
  issuedAt : Int
  deadline : Int
  status : VoucherStatus
  transactionHash : Option Bytes32
  deriving DecidableEq

inductive QuoteOperation where
  | mint
  | buy
  | sell
  | claim
  | createVault
  | deposit
  | withdraw
  | close
  deriving DecidableEq

structure QuoteRow where
  accountId : String
  owner : Address
  operation : QuoteOperation
  deriving DecidableEq

inductive OperationState where
  | created
  | quoted
  | awaitingWallet
  | submitted
  | included
  | confirmedL2
  | completed
  | expired
  | rejected
  | reverted
  | dropped
  | reorged
  deriving DecidableEq

structure TrackedOperation where
  id : String
  quoteId : String
  owner : Address
  transactionHash : Bytes32
  state : OperationState
  confirmations : Nat
  location : Option ChainLocation
  error : Option String
  deriving DecidableEq

structure OperationRow where
  quoteId : String
  owner : Address
  transactionHash : Bytes32
  payload : TrackedOperation
  deriving DecidableEq

structure ClaimRow where
  blockNumber : Nat
  accountKey : Bytes32
  wallet : Address
  canonical : Bool
  deriving DecidableEq

structure Store where
  accounts : OrderedMap String AccountRow
  challenges : OrderedMap (BitVec 192) ChallengeRow
  vouchers : OrderedMap String VoucherRow
  quotes : OrderedMap String QuoteRow
  operations : OrderedMap String OperationRow
  claims : OrderedMap EventKey ClaimRow
  testIdentities : OrderedMap Address String
  testChallenges : OrderedMap (BitVec 192) TestChallengeRow
  sessions : OrderedMap Bytes32 SessionRow
  deriving DecidableEq

def Store.empty : Store :=
  { accounts := [], challenges := [], vouchers := [], quotes := [], operations := [], claims := [],
    testIdentities := [], testChallenges := [], sessions := [] }

/-- What the store uses of other packages, and its own normal form of an e-mail
address. -/
structure Config where
  chainId : Nat
  /-- `id` of a text. -/
  id : String → Bytes32
  verifyMessage : Message → BitVec 520 → Option Address
  normalizeEmail : String → Except String String

/-- A unique column, in which null values do not count. -/
def unique {κ ν β : Type} [DecidableEq κ] [DecidableEq β] (column : ν → Option β)
    (table : OrderedMap κ ν) (key : κ) (row : ν) : Bool :=
  column row = none || table.all (fun e => e.1 = key || column e.2 ≠ column row)

def putAccount (id : String) (row : AccountRow) (s : Store) : Except String Store := do
  ensure ((unique (fun r => some r.accountKey) s.accounts id row &&
    unique (fun r => r.identity.email) s.accounts id row &&
    unique (fun r => r.identity.subject) s.accounts id row &&
    unique (fun r => r.wallet) s.accounts id row) = true)
    "UNIQUE constraint failed: market_accounts"
  return { s with accounts := s.accounts.set id row }

def insertAccount (id : String) (row : AccountRow) (s : Store) : Except String Store := do
  ensure (s.accounts.get? id = none) "UNIQUE constraint failed: market_accounts.id"
  putAccount id row s

def putVoucher (accountId : String) (row : VoucherRow) (s : Store) : Except String Store := do
  ensure ((unique (fun r => some r.accountKey) s.vouchers accountId row &&
    unique (fun r => some r.nonce) s.vouchers accountId row &&
    unique (fun r => r.transactionHash) s.vouchers accountId row) = true)
    "UNIQUE constraint failed: market_claim_vouchers"
  return { s with vouchers := s.vouchers.set accountId row }

/-! ## Accounts -/

def seconds (value : Int) : Except String Unit :=
  ensure (0 ≤ value ∧ value ≤ maxSafeInteger) "INVALID_TIME"

def account (s : Store) (accountId : String) : Except String AccountRow :=
  match s.accounts.get? accountId with
  | none => .error "ACCOUNT_REQUIRED"
  | some row => .ok row

structure TrustedEmailIdentity where
  email : String
  subject : String
  emailVerified : Bool

def trustedAccount (c : Config) (identity : TrustedEmailIdentity) (now : Int) (accountId : String)
    (s : Store) : Except String (String × Store) := do
  seconds now
  ensure (identity.emailVerified = true ∧ identity.subject ≠ "" ∧ identity.subject.length ≤ 200)
    "VERIFIED_EMAIL_REQUIRED"
  let email ← c.normalizeEmail identity.email
  match s.accounts.find? (fun e => e.2.identity.email = some email) with
  | some existing => do
      ensure (existing.2.identity.subject = some identity.subject) "IDENTITY_CHANGED"
      return (existing.1, s)
  | none => do
      ensure (s.accounts.all (fun e => e.2.identity.subject ≠ some identity.subject) = true)
        "IDENTITY_EMAIL_CHANGED"
      let s ← insertAccount accountId
        { accountKey := c.id ("AlphaForge verified account:" ++ accountId),
          identity := .google email identity.subject now, wallet := none, createdAt := now } s
      return (accountId, s)

def bindingChallenge (accountId : String) (wallet : Address) (now : Int) (nonce : BitVec 192)
    (s : Store) : Except String (Message × Store) := do
  seconds now
  let row ← account s accountId
  let wallet ← address wallet
  ensure (row.identity ≠ .walletTest) "VERIFIED_EMAIL_REQUIRED"
  let kept : OrderedMap (BitVec 192) ChallengeRow :=
    s.challenges.filter (fun e => e.2.accountId ≠ accountId ∧ now < e.2.expiresAt)
  ensure (kept.length < 1000) "CHALLENGE_LIMIT"
  ensure (kept.get? nonce = none) "UNIQUE constraint failed: market_wallet_challenges.nonce"
  let message : Message :=
    { accountId := some accountId, wallet, nonce, issuedAt := now, expiresAt := now + 300 }
  let row : ChallengeRow :=
    { accountId, wallet, message, expiresAt := now + 300, consumed := false }
  return (message, { s with challenges := kept.set nonce row })

/-- The first transaction of `bindWallet`: a challenge is used up whether or not the
signature turns out right. -/
def consumeChallenge (accountId : String) (nonce : BitVec 192) (now : Int) (s : Store) :
    Except String (ChallengeRow × Store) :=
  match s.challenges.get? nonce with
  | none => .error "WALLET_CHALLENGE_EXPIRED"
  | some row => do
      ensure (row.accountId = accountId ∧ row.consumed = false ∧ now < row.expiresAt)
        "WALLET_CHALLENGE_EXPIRED"
      return (row, { s with challenges := s.challenges.set nonce { row with consumed := true } })

/-- The signer of a message, which must be the wallet it names. -/
def checkSigner (c : Config) (message : Message) (signature : BitVec 520) (wallet : Address) :
    Except String Unit :=
  ensure (c.verifyMessage message signature = some wallet ∧ wallet ≠ 0) "WALLET_SIGNATURE_REJECTED"

def hasHistory (s : Store) (accountId : String) : Bool :=
  (s.vouchers.get? accountId).isSome || s.quotes.any (fun e => e.2.accountId = accountId) ||
    s.sessions.any (fun e => e.2.accountId = accountId) ||
    s.testIdentities.any (fun e => e.2 = accountId) ||
    s.claims.any (fun e => (s.accounts.get? accountId).map (·.accountKey) = some e.2.accountKey)

/-- The second transaction of `bindWallet`.  A wallet whose own test account is there
brings that account along, and the account that asked is dropped if it is unused. -/
def linkWallet (accountId : String) (signer : Address) (s : Store) :
    Except String (String × Store) :=
  match s.accounts.find? (fun e => e.2.wallet = some signer ∧ e.1 ≠ accountId) with
  | some (otherId, other) =>
      match s.accounts.get? accountId with
      | some { identity := .google email subject verifiedAt, wallet := none, .. } => do
          ensure (other.identity = .walletTest ∧ hasHistory s accountId = false)
            "WALLET_ALREADY_BOUND"
          let s := { s with
            challenges := s.challenges.filter (fun e => e.2.accountId ≠ accountId),
            accounts := s.accounts.filter (fun e => e.1 ≠ accountId) }
          let s ← putAccount otherId { other with identity := .google email subject verifiedAt } s
          return (otherId, s)
      | _ => .error "WALLET_ALREADY_BOUND"
  | none => do
      let row ← account s accountId
      let s ← putAccount accountId { row with wallet := some signer } s
      return (accountId, s)

abbrev Program := EStateM String Store

def bindWallet (c : Config) (accountId : String) (nonce : BitVec 192) (signature : BitVec 520)
    (now : Int) : Program String := do
  await (seconds now)
  let row ← atomic (consumeChallenge accountId nonce now)
  await (checkSigner c row.message signature row.wallet)
  atomic (linkWallet accountId row.wallet)

def walletTestChallenge (wallet : Address) (now : Int) (nonce : BitVec 192) (s : Store) :
    Except String (Message × Store) := do
  seconds now
  let wallet ← address wallet
  let kept : OrderedMap (BitVec 192) TestChallengeRow :=
    s.testChallenges.filter (fun e => e.2.wallet ≠ wallet ∧ now < e.2.expiresAt)
  ensure (kept.length < 1000) "CHALLENGE_LIMIT"
  ensure (kept.get? nonce = none) "UNIQUE constraint failed: market_wallet_test_challenges.nonce"
  let message : Message :=
    { accountId := none, wallet, nonce, issuedAt := now, expiresAt := now + 300 }
  let row : TestChallengeRow :=
    { wallet, message, issuedAt := now, expiresAt := now + 300, consumed := false }
  return (message, { s with testChallenges := kept.set nonce row })

def consumeTestChallenge (nonce : BitVec 192) (now : Int) (s : Store) :
    Except String (TestChallengeRow × Store) :=
  match s.testChallenges.get? nonce with
  | none => .error "WALLET_CHALLENGE_EXPIRED"
  | some row => do
      ensure (row.consumed = false ∧ row.issuedAt ≤ now ∧ now < row.expiresAt)
        "WALLET_CHALLENGE_EXPIRED"
      return (row,
        { s with testChallenges := s.testChallenges.set nonce { row with consumed := true } })

/-- The account a wallet has had, by its session, its link or its voucher. -/
def walletAccount (s : Store) (signer : Address) : Option String :=
  (s.testIdentities.get? signer).or
    (((s.accounts.find? (fun e => e.2.wallet = some signer)).map (·.1)).or
      ((s.vouchers.find? (fun e => e.2.wallet = signer)).map (·.1)))

/-- What `openWalletTestSession` draws at random. -/
structure SessionSeed where
  accountId : String
  tokenHash : Bytes32
  csrfToken : String

/-- The account of a wallet, which is made when there is none. -/
def sessionAccount (c : Config) (signer : Address) (now : Int) (accountId : String) (s : Store) :
    Except String (String × Store) :=
  match walletAccount s signer with
  | some accountId => .ok (accountId, s)
  | none => do
      let s ← insertAccount accountId
        { accountKey := c.id ("AlphaForge wallet test account:" ++ accountId),
          identity := .walletTest, wallet := some signer, createdAt := now } s
      return (accountId, s)

def openSession (c : Config) (signer : Address) (now : Int) (seed : SessionSeed) (s : Store) :
    Except String (String × Store) := do
  let (accountId, s) ← sessionAccount c signer now seed.accountId s
  let row ← account s accountId
  ensure (row.wallet = some signer) "LINKED_WALLET_REQUIRED"
  let testIdentities := match s.testIdentities.get? signer with
    | some _ => s.testIdentities
    | none => s.testIdentities.set signer accountId
  let kept : OrderedMap Bytes32 SessionRow :=
    s.sessions.filter (fun e => e.2.accountId ≠ accountId ∧ now < e.2.expiresAt)
  ensure (kept.length < 10000) "WALLET_SESSION_LIMIT"
  ensure (kept.get? seed.tokenHash = none)
    "UNIQUE constraint failed: market_wallet_test_sessions.token_hash"
  let session : SessionRow :=
    { accountId, wallet := signer, csrfToken := seed.csrfToken, createdAt := now,
      expiresAt := now + 3600 }
  return (accountId, { s with testIdentities, sessions := kept.set seed.tokenHash session })

def openWalletTestSession (c : Config) (nonce : BitVec 192) (signature : BitVec 520) (now : Int)
    (seed : SessionSeed) : Program String := do
  await (seconds now)
  let row ← atomic (consumeTestChallenge nonce now)
  await (checkSigner c row.message signature row.wallet)
  atomic (openSession c row.wallet now seed)

def requireWallet (s : Store) (accountId : String) (owner : Address) : Except String AccountRow := do
  let row ← account s accountId
  let owner ← address owner
  ensure (row.wallet = some owner) "LINKED_WALLET_REQUIRED"
  return row

/-! ## Vouchers -/

def canonicalClaims (s : Store) : List (EventKey × ClaimRow) :=
  s.claims.filter (fun e => e.2.canonical)

/-- The vouchers that count against the limit although no claim was observed. -/
def unresolvedVoucher (now : Int) (row : VoucherRow) : Bool :=
  (row.status = .issued ∧ now < row.deadline) ∨
    row.status ∈ [.submitted, .reorged, .reverted, .expired]

def unresolved (s : Store) (now : Int) : Nat :=
  s.vouchers.countP (fun e => unresolvedVoucher now e.2)

/-- A canonical claim whose account and voucher are there. -/
def registered (s : Store) (e : EventKey × ClaimRow) : Bool :=
  s.vouchers.any (fun v => v.2.accountKey = e.2.accountKey ∧ v.2.wallet = e.2.wallet ∧
    v.2.transactionHash = some e.1.transactionHash ∧
    (v.2.status = .included ∨ v.2.status = .completed) ∧
    ((s.accounts.get? v.1).map (·.accountKey) = some e.2.accountKey))

/-- The checks of `reserveClaim` before it looks at the account's own voucher. -/
def claimAllowed (s : Store) (accountId : String) (wallet : Address)
    (chainSuccessfulClaims : Nat) : Except String Unit := do
  ensure ((canonicalClaims s).length = chainSuccessfulClaims) "CLAIM_RECONCILIATION_REQUIRED"
  ensure ((canonicalClaims s).all (registered s) = true) "CLAIM_IDENTITY_RECOVERY_REQUIRED"
  ensure ((canonicalClaims s).all (fun e => e.2.wallet ≠ wallet) = true) "ALREADY_CLAIMED"
  match s.vouchers.find? (fun e => e.2.wallet = wallet ∧ e.1 ≠ accountId) with
  | some other =>
      .error (if other.2.status = .completed then "ALREADY_CLAIMED" else "CLAIM_RECOVERY_REQUIRED")
  | none => .ok ()

/-- `reserveClaim` of an account that has a voucher. -/
def renewVoucher (accountId : String) (wallet : Address) (now deadline : Int)
    (chainSuccessfulClaims : Nat) (existing : VoucherRow) (s : Store) :
    Except String (VoucherRow × Store) := do
  ensure (existing.wallet = wallet) "CLAIM_BOUND_TO_ORIGINAL_WALLET"
  ensure (existing.status ≠ .completed) "ALREADY_CLAIMED"
  ensure (existing.transactionHash = none ∧ existing.status ∉ [.included, .reorged, .reverted])
    "CLAIM_RECOVERY_REQUIRED"
  if existing.deadline ≤ now then do
    ensure (chainSuccessfulClaims + unresolved s now < 100) "CLAIM_LIMIT_REACHED"
    let row := { existing with issuedAt := now, deadline, status := .issued }
    return (row, { s with vouchers := s.vouchers.set accountId row })
  else return (existing, s)

/-- `reserveClaim` of an account that has none. -/
def issueVoucher (accountId : String) (accountKey : Bytes32) (wallet : Address) (now deadline : Int)
    (chainSuccessfulClaims : Nat) (nonce : Bytes32) (s : Store) :
    Except String (VoucherRow × Store) := do
  ensure ((canonicalClaims s).all (fun e => e.2.accountKey ≠ accountKey) = true) "ALREADY_CLAIMED"
  ensure (chainSuccessfulClaims + unresolved s now < 100) "CLAIM_LIMIT_REACHED"
  let row : VoucherRow :=
    { accountKey, wallet, nonce, issuedAt := now, deadline, status := .issued,
      transactionHash := none }
  let s ← putVoucher accountId row s
  return (row, s)

def reserveClaim (accountId : String) (owner : Address) (now deadline : Int)
    (chainSuccessfulClaims : Nat) (nonce : Bytes32) (s : Store) :
    Except String (VoucherRow × Store) := do
  seconds now
  seconds deadline
  ensure (now < deadline ∧ deadline - now ≤ 300 ∧ chainSuccessfulClaims ≤ 100)
    "INVALID_CLAIM_POLICY"
  let row ← requireWallet s accountId owner
  claimAllowed s accountId owner chainSuccessfulClaims
  match s.vouchers.get? accountId with
  | some existing => renewVoucher accountId owner now deadline chainSuccessfulClaims existing s
  | none => issueVoucher accountId row.accountKey owner now deadline chainSuccessfulClaims nonce s

def saveQuote (quoteId : String) (row : QuoteRow) (s : Store) : Except String Store := do
  let _ ← requireWallet s row.accountId row.owner
  ensure (s.quotes.get? quoteId = none) "UNIQUE constraint failed: market_quotes.id"
  return { s with quotes := s.quotes.set quoteId row }

/-- An update of the vouchers that satisfy a condition, under the unique column of
their transactions. -/
def updateVouchers (p : String → VoucherRow → Bool) (f : VoucherRow → VoucherRow) (s : Store) :
    Except String Store := do
  let vouchers : OrderedMap String VoucherRow :=
    s.vouchers.mapValues (fun id row => if p id row = true then f row else row)
  ensure (vouchers.all (fun e => unique (fun r => r.transactionHash) vouchers e.1 e.2) = true)
    "UNIQUE constraint failed: market_claim_vouchers.transaction_hash"
  return { s with vouchers }

def submit (accountId quoteId : String) (transactionHash : Bytes32) (operationId : String)
    (s : Store) : Except String (TrackedOperation × Store) :=
  match s.quotes.get? quoteId with
  | none => .error "QUOTE_NOT_FOUND"
  | some quote => do
      ensure (quote.accountId = accountId) "QUOTE_NOT_FOUND"
      let _ ← requireWallet s accountId quote.owner
      match s.operations.find? (fun e => e.2.quoteId = quoteId) with
      | some existing => do
          ensure (existing.2.payload.transactionHash = transactionHash) "QUOTE_ALREADY_SUBMITTED"
          return (existing.2.payload, s)
      | none => do
          ensure (s.operations.all (fun e => e.2.transactionHash ≠ transactionHash) = true)
            "TRANSACTION_ALREADY_TRACKED"
          ensure (s.operations.get? operationId = none)
            "UNIQUE constraint failed: market_operations.id"
          let operation : TrackedOperation :=
            { id := operationId, quoteId, owner := quote.owner, transactionHash, state := .submitted,
              confirmations := 0, location := none, error := none }
          let row : OperationRow :=
            { quoteId, owner := quote.owner, transactionHash, payload := operation }
          let s := { s with operations := s.operations.set operationId row }
          let s ← (if quote.operation = .claim then
              updateVouchers (fun id row => id = accountId ∧ row.transactionHash = none)
                (fun row => { row with status := .submitted,
                                       transactionHash := some transactionHash }) s
            else .ok s)
          return (operation, s)

/-- The status of a voucher whose transaction is in a state. -/
def OperationState.voucherStatus : OperationState → VoucherStatus
  | .completed => .completed
  | .reorged => .reorged
  | .reverted => .reverted
  | .included | .confirmedL2 => .included
  | _ => .submitted

def updateOperation (operation : TrackedOperation) (s : Store) : Store :=
  let operations : OrderedMap String OperationRow := s.operations.mapValues (fun id row =>
    if id = operation.id ∧ row.transactionHash = operation.transactionHash then
      { row with payload := operation } else row)
  let vouchers : OrderedMap String VoucherRow := s.vouchers.mapValues (fun _ row =>
    if row.transactionHash = some operation.transactionHash then
      { row with status := operation.state.voucherStatus } else row)
  { s with operations, vouchers }

/-! ## Claims on the chain -/

structure IndexedMarketClaim where
  accountKey : Bytes32
  wallet : Address
  location : ChainLocation

/-- The claim's row, under the index of one canonical claim to an account. -/
def putClaim (key : EventKey) (blockNumber : Nat) (accountKey : Bytes32) (wallet : Address)
    (table : OrderedMap EventKey ClaimRow) : Except String (OrderedMap EventKey ClaimRow) := do
  let row : ClaimRow := match table.get? key with
    | some row => { row with canonical := true }
    | none => { blockNumber, accountKey, wallet, canonical := true }
  ensure (table.all (fun e => e.1 = key ∨ e.2.accountKey ≠ row.accountKey ∨
    e.2.canonical = false) = true) "UNIQUE constraint failed: market_claim_events.account_key"
  return table.set key row

def observeClaim (chainId : Nat) (claim : IndexedMarketClaim) (s : Store) : Except String Store :=
  match claim.location.transactionHash, claim.location.logIndex with
  | some transactionHash, some logIndex => do
      ensure (claim.location.chainId = chainId ∧ logIndex ≤ maxSafeInteger ∧
        1 ≤ claim.location.confirmations ∧ claim.location.confirmations ≤ maxSafeInteger ∧
        claim.location.blockNumber ≤ maxSafeInteger) "INVALID_CLAIM_EVENT"
      let wallet ← address claim.wallet
      let claims ← putClaim ⟨transactionHash, logIndex, claim.location.blockHash⟩
        claim.location.blockNumber claim.accountKey wallet s.claims
      updateVouchers (fun _ row => row.accountKey = claim.accountKey)
        (fun row => { row with
          status := if 3 ≤ claim.location.confirmations then .completed else .included,
          transactionHash := some transactionHash }) { s with claims }
  | _, _ => .error "INVALID_CLAIM_EVENT"

/-- The key of a claim's row. -/
def claimKey (claim : IndexedMarketClaim) : Option EventKey :=
  claim.location.transactionHash.bind fun transactionHash =>
    claim.location.logIndex.map fun logIndex => ⟨transactionHash, logIndex, claim.location.blockHash⟩

/-- A canonical claim from a height on. -/
def displacedClaim (fromBlock : Nat) (row : ClaimRow) : Bool :=
  row.canonical ∧ fromBlock ≤ row.blockNumber

def rollbackClaims (fromBlock : Nat) (s : Store) : Store :=
  { s with
    vouchers := s.vouchers.mapValues (fun _ row =>
      if s.claims.any (fun e => displacedClaim fromBlock e.2 ∧
          row.transactionHash = some e.1.transactionHash) = true then
        { row with status := .reorged } else row)
    claims := s.claims.mapValues (fun _ row =>
      if fromBlock ≤ row.blockNumber then { row with canonical := false } else row) }

/-! ## What an observed claim leaves -/

theorem updateVouchers_eq_ok {p : String → VoucherRow → Bool} {f : VoucherRow → VoucherRow}
    {s s' : Store} (h : updateVouchers p f s = .ok s') :
    s' = { s with vouchers := s.vouchers.mapValues (fun id row =>
      if p id row = true then f row else row) } := by
  simp only [updateVouchers, bind_eq_ok, ensure_eq_ok, pure_eq_ok] at h
  obtain ⟨_, _, rfl⟩ := h
  rfl

/-- An observed claim is canonical, in the row it had before if there is one. -/
theorem putClaim_eq_ok {key : EventKey} {blockNumber : Nat} {accountKey : Bytes32}
    {wallet : Address} {table table' : OrderedMap EventKey ClaimRow}
    (h : putClaim key blockNumber accountKey wallet table = .ok table') :
    ∃ row, table' = table.set key row ∧ row.canonical = true ∧
      (table.get? key = none → row = ⟨blockNumber, accountKey, wallet, true⟩) ∧
      (∀ old, table.get? key = some old → row = { old with canonical := true }) ∧
      ∀ e ∈ table, e.1 = key ∨ e.2.accountKey ≠ row.accountKey ∨ e.2.canonical = false := by
  simp only [putClaim, bind_eq_ok, ensure_eq_ok, pure_eq_ok, List.all_eq_true,
    decide_eq_true_eq] at h
  obtain ⟨_, hunique, rfl⟩ := h
  refine ⟨_, rfl, ?_, ?_, ?_, hunique⟩
  · cases table.get? key <;> rfl
  · intro hnone
    rw [hnone]
  · intro old hold
    rw [hold]

theorem observeClaim_eq_ok {chainId : Nat} {claim : IndexedMarketClaim} {s s' : Store}
    (h : observeClaim chainId claim s = .ok s') :
    ∃ key claims, claimKey claim = some key ∧ claim.wallet ≠ 0 ∧
      putClaim key claim.location.blockNumber claim.accountKey claim.wallet s.claims = .ok claims ∧
      s' = { s with
        claims
        vouchers := s.vouchers.mapValues (fun _ row =>
          if row.accountKey = claim.accountKey then
            { row with
              status := if 3 ≤ claim.location.confirmations then .completed else .included
              transactionHash := some key.transactionHash }
          else row) } := by
  unfold observeClaim at h
  split at h
  · next transactionHash logIndex htransaction hlog =>
      simp only [bind_eq_ok, ensure_eq_ok, address_eq_ok] at h
      obtain ⟨_, _, wallet, ⟨hwallet, rfl⟩, claims, hclaims, hvouchers⟩ := h
      refine ⟨_, claims, ?_, hwallet, hclaims, ?_⟩
      · rw [claimKey, htransaction, hlog]
        rfl
      · rw [updateVouchers_eq_ok hvouchers]
        simp only [decide_eq_true_eq]
  · cases h

end MarketStore
end AlphaForge
