/-
`connect` and `refresh`: the calls that say who is connected.

Each has a revision of its own, and the later one takes the authority of the earlier:
a read goes on only while its revision is the current one, and what it shows of a
connected wallet it has seen there again.  An event of the wallet ends the current read
and closes what it had opened.
-/
import AlphaForge.Client.M3BrowserRuntime.Reads

namespace AlphaForge
namespace M3BrowserRuntime

open Evm
open M3SubmissionJournal (PendingWalletSubmission chainId)

/-! ## `#withSessionRead` -/

def noteShown (entry : ShowNote) (p : Page) : Page := { p with shown := entry :: p.shown }

/-- A new revision, of the call with this number. -/
def beginRead (n : Nat) : Runtime Nat :=
  .update
    (fun p => {
      p with
      readRevision := p.readRevision + 1
      reader := n
      shown := .began (p.readRevision + 1) :: p.shown })
    fun p => .done (.ok (p.readRevision + 1))

def assertCurrent (revision : Nat) : Runtime Unit := do
  ensure ((← Async.read).readRevision = revision) (.wallet .sessionChanged)

/-- Nothing may be written. -/
def closed (onchain : OnchainPresentation) : OnchainPresentation :=
  { onchain with
    owner := .unknown
    writeMode := .disabled
    passTransferMode := some .disabled }

def sessionLost (p : Page) : Presentation :=
  { p.snapshot with
    wallet := ⟨.disconnected, none, none, some (WalletFailureCode.text .sessionChanged)⟩
    network := ⟨.unavailable, none⟩
    onchain := {
      closed p.snapshot.onchain with
      health := .unavailable
      passBalanceBaseUnits := none } }

def invalidate (revision : Nat) (p : Page) : Page :=
  if p.readRevision = revision then
    publish .read sessionLost {
      p with
      readRevision := p.readRevision + 1
      session := none
      actionReviews := []
      approvalReviews := []
      passTransferReviews := [] }
  else p

def invalidateEach : List Nat → Runtime Unit
  | [] => pure ()
  | revision :: rest => do
      Async.modify (invalidate revision)
      invalidateEach rest

/-- The wallet sends an event to every read that listens. -/
def walletEvent : Runtime Unit := do
  Async.modify fun p => { p with walletEvents := p.walletEvents + 1 }
  let p ← Async.read
  invalidateEach p.listening

/-- A session is seen by the read of this revision. -/
def observedBy (revision : Nat) (session : Option WalletSession) : Runtime Unit :=
  if session.isSome then Async.modify (noteShown (.observed revision)) else pure ()

def ShowsConnected (s : Presentation) : Prop :=
  s.wallet.status = .connected ∧ s.network.status = .correct

instance : DecidablePred ShowsConnected := fun _ => by unfold ShowsConnected; infer_instance

/-- The wallet has the account and the chain that are shown. -/
def sameWallet (snapshot : Presentation) (observed : Option WalletSession) : Prop :=
  observed.isSome = true ∧ observed.map WalletSession.account = snapshot.wallet.address ∧
    observed.map WalletSession.chainId = snapshot.network.chainId

instance (snapshot : Presentation) : DecidablePred (sameWallet snapshot) := fun _ => by
  unfold sameWallet; infer_instance

/-- A wallet that is shown as connected has to be so still. -/
def seeAgain (revision : Nat) (snapshot : Presentation) : Runtime Unit := do
  if ShowsConnected snapshot then
    let observed ← observe
    observedBy revision observed
    assertCurrent revision
    if sameWallet snapshot observed then pure ()
    else
      Async.modify (invalidate revision)
      Async.throw (.wallet .sessionChanged)

/-- `publish` of a read. -/
def publishRead (revision : Nat) (snapshot : Presentation) : Runtime Unit := do
  assertCurrent revision
  seeAgain revision snapshot
  assertCurrent revision
  Async.modify (publish .read fun _ => snapshot)
  turn

/-- What is left of an authority that a read failed with. -/
def openAuthority (p : Page) : Prop :=
  p.snapshot.wallet.status = .connecting ∨ p.snapshot.onchain.writeMode ≠ .disabled ∨
    p.snapshot.onchain.passTransferMode = some .liveAuthorized

instance : DecidablePred openAuthority := fun _ => by unfold openAuthority; infer_instance

def closeAuthority (revision : Nat) (e : Failure) : Runtime Unit := do
  Async.modify fun p => if openAuthority p then invalidate revision p else p
  Async.throw e

section Session

variable (c : Options)

/-- `provider.on` for the three events. -/
def listen (revision : Nat) : Runtime Unit := do
  if c.provider then
    let listening : Bool ← Async.input Request.listen
    ensure (listening = true) (.error "WALLET_EVENTS_UNAVAILABLE")
    Async.modify fun p => { p with listening := p.listening ++ [revision] }

def withSessionRead (n : Nat) (run : Nat → Runtime Unit) : Runtime Unit := do
  let revision ← beginRead n
  Async.finally_
    (Async.recover (do listen c revision; run revision) (closeAuthority revision))
    (fun p => { p with listening := p.listening.filter (· ≠ revision) })

/-! ## `refresh` -/

/-- `registerSubmission`, once for each operation. -/
def register (revision : Nat) (item : PendingWalletSubmission) : Runtime Unit := do
  let p ← Async.read
  if item.operationId ∉ p.registeredOperations then
    ensure (c.registerSubmission = true) (.error "M3_SUBMISSION_REGISTRATION_UNAVAILABLE")
    let registered : Bool ← Async.request (Request.registerSubmission item)
    ensure (registered = true) (.error "M3_SUBMISSION_REGISTRATION_FAILED")
    assertCurrent revision
    Async.modify fun p =>
      { p with registeredOperations := item.operationId :: p.registeredOperations }

variable (d : Deployment)

/-- The journal forgets a submission that has ended. -/
def settle (item : PendingWalletSubmission) (evidence : OperationEvidence) : Runtime Unit := do
  if terminal evidence then
    let p ← Async.read
    let storage ← journaled (M3SubmissionJournal.remove d.context item p.storage)
    Async.modify fun p => note (.settled item.operationId) { p with storage }

/-- An older submission; whatever fails, it is kept. -/
def recoverOlder (revision : Nat) (previous : PendingWalletSubmission) : Runtime Unit :=
  Async.recover
    (do
      let p ← Async.read
      if previous.operationId ∈ p.registeredOperations ∨ c.registerSubmission = true then
        register c revision previous
        if c.readOperationEvidence then
          let answer ← Async.request
            (Request.readOperationEvidence previous.operationId previous.owner)
          let evidence ← Async.ofExcept answer
          assertCurrent revision
          settle d previous evidence
        else
          turn
          assertCurrent revision)
    (fun _ => assertCurrent revision)

/-- The submission that is watched is not an older one. -/
def recoverUnlessPending (revision : Nat) (pending : Option PendingWalletSubmission)
    (previous : PendingWalletSubmission) : Runtime Unit :=
  if some previous.operationId = pending.map PendingWalletSubmission.operationId then pure ()
  else recoverOlder c d revision previous

def recoverSaved (revision : Nat) (pending : Option PendingWalletSubmission) :
    List PendingWalletSubmission → Runtime Unit
  | [] => pure ()
  | previous :: rest => do
      recoverUnlessPending c d revision pending previous
      recoverSaved revision pending rest

def submittedAs (status : TransactionStatus) (pending : PendingWalletSubmission) :
    TransactionPresentation :=
  ⟨status, some pending.txHash, none⟩

/-- Where the indexer is behind, the vault is read from the chain. -/
def readDegraded (session : WalletSession) (snapshot : RuntimeSnapshot) (shown : Presentation)
    (evidence : OperationEvidence) : Runtime Presentation := do
  if evidence.indexerStatus = .degraded ∧ snapshot.source ≠ .liveExit then
    let snapshot ← readLiveExitSnapshot c d
    let fresh ← connectedPresentation c d session snapshot
    turn
    return fresh
  else return shown

/-- What the evidence about a registered submission shows, unless nothing more is read. -/
def observePending (revision : Nat) (session : WalletSession) (snapshot : RuntimeSnapshot)
    (shown : Presentation) (pending : PendingWalletSubmission) : Runtime (Option Presentation) := do
  if c.readOperationEvidence then
    let answer ← Async.request (Request.readOperationEvidence pending.operationId pending.owner)
    let evidence ← Async.ofExcept answer
    assertCurrent revision
    settle d pending evidence
    let shown ← readDegraded c d session snapshot shown evidence
    return some {
      shown with
      transaction := transactionPresentationFromEvidence evidence pending.txHash
      onchain := {
        shown.onchain with
        health := if evidence.indexerStatus = .degraded then .degraded else shown.onchain.health
        readiness :=
          if evidence.chainStatus = .softReady then .softReady
          else if evidence.chainStatus = .reorged then .reorged
          else .finalityUnknown } }
  else
    publishRead revision shown
    return none

def showAmbiguous (revision : Nat) (shown : Presentation) (pending : PendingWalletSubmission) :
    Runtime Presentation := do
  if pending.operationId ∉ (← Async.read).registeredOperations then
    let ambiguous : Presentation :=
      { shown with transaction := submittedAs .submissionAmbiguous pending }
    publishRead revision ambiguous
    return ambiguous
  else return shown

/-- The evidence cannot be had: the vault is shown as the chain has it. -/
def showLive (revision : Nat) (session : WalletSession) (shown : Presentation)
    (pending : PendingWalletSubmission) : Runtime (Option Presentation) := do
  assertCurrent revision
  let shown ← showAmbiguous revision shown pending
  Async.recover
    (do
      let snapshot ← readLiveExitSnapshot c d
      let live ← connectedPresentation c d session snapshot
      turn
      let p ← Async.read
      return some { live with transaction := p.snapshot.transaction })
    (fun _ => do
      assertCurrent revision
      return some { shown with onchain := { shown.onchain with health := .degraded } })

def showPending (revision : Nat) (session : WalletSession) (snapshot : RuntimeSnapshot)
    (shown : Presentation) (pending : PendingWalletSubmission) : Runtime (Option Presentation) := do
  let registered ← Async.recover
    (do
      register c revision pending
      return true)
    (fun _ => return false)
  if registered then
    let submitted : Presentation := { shown with transaction := submittedAs .submitted pending }
    Async.recover
      (observePending c d revision session snapshot submitted pending)
      (fun _ => showLive c d revision session submitted pending)
  else showLive c d revision session shown pending

/-- The last submission of the journal, unless the owner has another. -/
def restore (account : Address) (restored : Option PendingWalletSubmission) (p : Page) : Page :=
  match restored with
  | some item =>
      if ∀ pending ∈ p.pendingOperation, pending.owner ≠ account then
        { p with pendingOperation := some item }
      else p
  | none => p

def refreshVault (revision : Nat) (session : WalletSession) : Runtime Unit := do
  let snapshot ← readFlowSnapshot c d session.account
  assertCurrent revision
  let shown ← connectedPresentation c d session snapshot
  turn
  assertCurrent revision
  let p ← Async.read
  let saved ← journaled (M3SubmissionJournal.read d.context session.account p.storage)
  Async.modify (restore session.account saved.getLast?)
  let p ← Async.read
  recoverSaved c d revision p.pendingOperation saved
  match p.pendingOperation with
  | some pending =>
      if pending.owner = session.account then
        match ← showPending c d revision session snapshot shown pending with
        | some shown => publishRead revision shown
        | none => pure ()
      else publishRead revision shown
  | none => publishRead revision shown

/-- Balances of an owner who may have changed are not shown. -/
def hideBalances (p : Page) : Presentation :=
  { p.snapshot with
    wallet := { p.snapshot.wallet with ethBalanceWei := none }
    onchain := { p.snapshot.onchain with passBalanceBaseUnits := none } }

def networkOf (observed : WalletSession) : NetworkPresentation :=
  ⟨if observed.chainId = chainId then .correct else .wrong, some observed.chainId⟩

def showDisconnected (revision : Nat) : Runtime Unit := do
  Async.modify fun p => { p with session := none }
  let p ← Async.read
  publishRead revision {
    p.snapshot with
    wallet := ⟨.disconnected, none, none, some (WalletFailureCode.text .disconnected)⟩
    network := ⟨.unavailable, none⟩
    onchain := { closed p.snapshot.onchain with passBalanceBaseUnits := none } }

def showAccountChanged (revision : Nat) (observed : WalletSession) : Runtime Unit := do
  Async.modify fun p => { p with session := none }
  let p ← Async.read
  publishRead revision {
    p.snapshot with
    wallet := ⟨.accountChanged, some observed.account, none, none⟩
    network := networkOf observed
    onchain := closed p.snapshot.onchain }

def showWrongNetwork (revision : Nat) (observed : WalletSession) : Runtime Unit := do
  let p ← Async.read
  publishRead revision {
    p.snapshot with
    wallet := ⟨.connected, some observed.account, none, none⟩
    network := ⟨.wrong, some observed.chainId⟩
    onchain := closed p.snapshot.onchain }

/-- Without a vault there is the wallet to show. -/
def showWallet (revision : Nat) (observed : WalletSession) : Runtime Unit := do
  let ethBalanceWei ← readEthBalance c observed
  let p ← Async.read
  publishRead revision {
    p.snapshot with
    wallet := ⟨.connected, some observed.account, ethBalanceWei, none⟩
    network := networkOf observed }

/-- The session is of another account. -/
def accountChanged (session : Option WalletSession) (observed : WalletSession) : Prop :=
  ∃ s ∈ session, s.account ≠ observed.account

instance (session : Option WalletSession) : DecidablePred (accountChanged session) := fun _ => by
  unfold accountChanged; infer_instance

def refreshObserved (revision : Nat) (observed : WalletSession) : Runtime Unit := do
  let p ← Async.read
  if accountChanged p.session observed then showAccountChanged revision observed
  else if observed.chainId ≠ chainId then showWrongNetwork revision observed
  else match c.deployment, p.session with
    | some d, some session => refreshVault c d revision session
    | _, _ => showWallet c revision observed

def refresh (n : Nat) : Runtime Unit :=
  withSessionRead c n fun revision => do
    if c.provider then
      Async.modify (publish .kept hideBalances)
      let observed ← observe
      observedBy revision observed
      assertCurrent revision
      match observed with
      | none => showDisconnected revision
      | some observed => refreshObserved c revision observed

/-! ## `connect` -/

/-- `Eip1193WalletConnection.connect`. -/
def connectWallet (revision : Nat) : Runtime WalletSession := do
  let session ← sessionOf (← Async.request Request.requestAccounts)
  observedBy revision session
  match session with
  | none => Async.throw (.wallet .disconnected)
  | some session => do
      ensure (session.chainId = chainId) (.wallet .wrongChain)
      return session

/-- `M3ChainActionFlow.connect`. -/
def flowConnect (revision : Nat) : Runtime (WalletSession × RuntimeSnapshot) := do
  Async.modify fun p => { p with flowSession := none }
  let session ← connectWallet revision
  assertCurrent revision
  let snapshot ← readFlowSnapshot c d session.account
  assertCurrent revision
  Async.modify fun p => { p with flowSession := some session }
  turn
  return (session, snapshot)

def bindSession (session : WalletSession) (p : Page) : Page := { p with session := some session }

/-- The last submission of the journal, or none, unless the owner has one. -/
def restoreOrForget (account : Address) (restored : Option PendingWalletSubmission) (p : Page) :
    Page :=
  if ∀ pending ∈ p.pendingOperation, pending.owner ≠ account then
    { p with pendingOperation := restored }
  else p

def connectVault (n revision : Nat) : Runtime Unit := do
  let (session, snapshot) ← flowConnect c d revision
  assertCurrent revision
  Async.modify (bindSession session)
  let shown ← connectedPresentation c d session snapshot
  turn
  publishRead revision shown
  let p ← Async.read
  let saved ← journaled (M3SubmissionJournal.read d.context session.account p.storage)
  Async.modify (restoreOrForget session.account saved.getLast?)
  let p ← Async.read
  match p.pendingOperation with
  | some pending => do
      publishRead revision {
        p.snapshot with transaction := submittedAs .submissionAmbiguous pending }
      refresh c n
      turn
  | none => publishRead revision { p.snapshot with transaction := ⟨.idle, none, none⟩ }

def connectPlain (revision : Nat) : Runtime Unit := do
  let session ← connectWallet revision
  assertCurrent revision
  Async.modify (bindSession session)
  let ethBalanceWei ← readEthBalance c session
  let p ← Async.read
  publishRead revision {
    p.snapshot with
    wallet := ⟨.connected, some session.account, ethBalanceWei, none⟩
    network := ⟨.correct, some session.chainId⟩ }

def Failure.code : Failure → WalletFailureCode
  | .wallet code => code
  | .error _ => .requestFailed

def connectFailed (revision : Nat) (e : Failure) : Runtime Unit := do
  assertCurrent revision
  let observed ← Async.recover observe (fun _ => return none)
  let p ← Async.read
  publishRead revision {
    p.snapshot with
    wallet := {
      status := if e.code = .rejected then .connectionRejected else .disconnected
      address := observed.map WalletSession.account
      ethBalanceWei := none
      errorCode := some e.code.text }
    network :=
      match observed with
      | some observed => networkOf observed
      | none => ⟨if e.code = .wrongChain then .wrong else .unavailable, none⟩ }
  Async.throw e

def connecting (p : Page) : Presentation :=
  { p.snapshot with
    wallet := ⟨.connecting, none, none, none⟩
    onchain := closed p.snapshot.onchain }

def connect (n : Nat) : Runtime Unit :=
  withSessionRead c n fun revision => do
    if c.provider then
      Async.modify fun p => { p with session := none }
      let p ← Async.read
      publishRead revision (connecting p)
      Async.recover
        (match c.deployment with
        | some d => connectVault c d n revision
        | none => connectPlain c revision)
        (connectFailed revision)
    else
      let p ← Async.read
      publishRead revision {
        p.snapshot with
        wallet := ⟨.disconnected, none, none, some "WALLET_PROVIDER_UNAVAILABLE"⟩
        network := ⟨.unavailable, none⟩ }
      Async.throw (.error "WALLET_PROVIDER_UNAVAILABLE")

end Session

end M3BrowserRuntime
end AlphaForge
