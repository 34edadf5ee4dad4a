/-
Which operations the reconciliation accepts.

The events of an accepted call are always those the reconciliation looks for.  The
state it looks at is that of the end of the block, when other transactions may have
changed the vault, and one change undoes what the check looks for: a new grant lifts
the latch that `stop` or `revokeExecutor` set.
-/
import AlphaForge.Indexer.Reconcile
import AlphaForge.Vault.TradingVault.Events

namespace AlphaForge
namespace Indexer

open Evm Machine Lifecycle
open TradingVault (Action Config State Swap Working Funded Emits Lifted step)

/-! ## Events that tell of their call -/

variable {c : Config} {s s' u : State} {a : Action} {call : TradingCall}
  {manifest : DeploymentManifest} {inventory : TradingInventory} {block : Block} {node : Node}
  {abi : AbiHashes} {receipt : ChainReceipt} {es : List TradingVault.Event}

/-- The call a transaction makes. -/
def callOf : Action → Option TradingCall
  | .deposit _ amount => some (.deposit amount)
  | .allocate _ _ amount => some (.allocate amount)
  | .deallocate _ _ amount => some (.deallocate amount)
  | .withdraw _ amount => some (.withdraw amount)
  | .authorizeExecutor _ next => some (.authorizeExecutor next)
  | .revokeExecutor _ => some .revokeExecutor
  | .stop _ => some .stop
  | .setBounds _ _ lower upper priceLower priceUpper =>
      some (.setBounds lower upper priceLower priceUpper)
  | .checkRisk _ _ => some .checkRisk
  | .execute _ _ _ action => some (.execute action)
  | .close _ => some .close
  | .rescueUntrackedToken _ token => some (.rescueUntrackedToken token)
  | .rescueNative _ _ => some .rescueNative
  | .receive _ | .outside _ => none

/-- An event of the vault as it was indexed for the transaction of `receipt`. -/
def canonicalEvent (manifest : DeploymentManifest) (block : Block) (receipt : ChainReceipt)
    (e : TradingVault.Event) : CanonicalContractEvent :=
  { chainId := testnetChainId, address := manifest.contractAddress, blockNumber := block.number
    blockHash := receipt.blockHash, transactionHash := receipt.transactionHash
    transactionIndex := receipt.transactionIndex, removed := false
    eventName := (performanceEvent e).eventName
    normalizedData := (performanceEvent e).normalizedData }

theorem bigInt_repr (n : Nat) : bigInt (some (.text n.repr)) = .ok n := by
  have hdecimal : Text.isDecimal n.repr.length n.repr = true := by
    refine Text.isDecimal_repr ?_
    have hlength : (Nat.toDigits 10 n).length ≤ n.repr.length + 1 := by
      rw [← String.length_toList, Nat.toList_repr]
      exact Nat.le_succ _
    exact (Nat.length_toDigits_le_iff (by decide) (Nat.succ_pos _)).mp hlength
  simp only [bigInt, hdecimal, if_true, Text.ofDecimal_repr]

/-- What the reader compares with the deployment the manifest and the inventory
describe: all but the vault's books, which it compares with one another. -/
structure Qualified (abi : AbiHashes) (node : Node) (manifest : DeploymentManifest)
    (inventory : TradingInventory) (block : Block) : Prop where
  deployment : checkDeployment abi node manifest inventory block = .ok ()
  immutables : checkImmutables node manifest inventory = .ok ()
  vault : node.vault.self = manifest.contractAddress
  usdcDecimals : node.decimals inventory.usdc = 6
  passDecimals : node.decimals manifest.strategyPassAddress = 18
  venue : node.factory inventory.router = inventory.factory ∧
    node.factory inventory.quoter = inventory.factory
  assets : ∀ i, node.vault.stocks i = (inventory.stocks i).token ∧
    node.vault.feeds i = (inventory.stocks i).feed ∧
    node.keeper (inventory.stocks i).feed = (inventory.stocks i).keeper ∧
    node.referenceIdentity (inventory.stocks i).feed = (inventory.stocks i).referenceIdentity
  pools : ∀ i, node.getPool inventory.usdc (inventory.stocks i).token 3000 = (inventory.stocks i).pool ∧
    node.factory (inventory.stocks i).pool = inventory.factory ∧
    node.fee (inventory.stocks i).pool = 3000 ∧
    ((node.token0 (inventory.stocks i).pool = (inventory.stocks i).token ∧
        node.token1 (inventory.stocks i).pool = inventory.usdc) ∨
      (node.token0 (inventory.stocks i).pool = inventory.usdc ∧
        node.token1 (inventory.stocks i).pool = (inventory.stocks i).token))
  stockDecimals : ∀ i, node.decimals (inventory.stocks i).token = 18
  canonical : node.blockHash block.number = some block.hash

theorem Qualified.identities (h : Qualified abi node manifest inventory block) :
    node.vault.owner = inventory.owner ∧ node.vault.pass = manifest.strategyPassAddress ∧
      node.vault.afUsdc = inventory.usdc ∧ node.vault.router = inventory.router ∧
      node.vault.locker.self = inventory.passLocker := by
  have himmutables := h.immutables
  simp only [checkImmutables, bind_eq_ok, ensure_eq_ok] at himmutables
  obtain ⟨_, hids, _⟩ := himmutables
  exact hids

theorem heldCount_eq (h : Qualified abi node manifest inventory block) :
    heldCount node inventory = TradingVault.openPositions node.vault node.state := by
  have hstock : ∀ i, (inventory.stocks i).token = node.vault.stocks i := fun i => (h.assets i).1.symm
  have hrange : List.finRange 3 = [0, 1, 2] := rfl
  simp only [heldCount, TradingVault.openPositions, Fin.sum_univ_three, hstock, hrange,
    List.filter_cons, List.filter_nil, Nat.pos_iff_ne_zero, decide_eq_true_eq]
  split <;> split <;> split <;> simp_all

/-- A reachable state passes every check of the reader on a qualified deployment. -/
theorem readTradingSnapshot_of (h : Qualified abi node manifest inventory block)
    (hw : Working node.vault node.state) (hf : Funded node.vault node.state) :
    readTradingSnapshot abi node manifest inventory block =
      .ok (tradingSnapshot node manifest inventory block) := by
  obtain ⟨_, hpass, husdc, hrouter, hlocker⟩ := h.identities
  have hself : node.vault.self ∈ TradingVault.own node.vault := by simp [TradingVault.own]
  have hquiet : ∀ token, node.state.tokens.allowance token manifest.contractAddress
      inventory.router = 0 := by
    intro token
    rw [← h.vault]
    exact hf.quiet token _ hself _
  have hbacking : checkBacking node manifest inventory = .ok () := by
    simp only [checkBacking, bind_eq_ok, ensure_eq_ok]
    refine ⟨(), ⟨h.usdcDecimals, h.passDecimals, hf.locked, ?_, ?_, hquiet _⟩, h.venue⟩
    · rw [← husdc, ← h.vault]
      exact hf.cash
    · rw [← hpass, ← hlocker]
      exact hf.escrow
  have hstocks : (List.finRange 3).forM (checkStock node manifest inventory) = .ok () := by
    refine forM_eq_ok.mpr fun i _ => ?_
    simp only [checkStock, bind_eq_ok, ensure_eq_ok]
    refine ⟨(), h.assets i, (), h.pools i, h.stockDecimals i, ?_, hquiet _⟩
    rw [← h.vault]
    exact hf.positions _
  have haccounting : checkAccounting node inventory = .ok () := by
    simp only [checkAccounting, ensure_eq_ok, heldCount_eq h]
    refine ⟨hw.count, ?_⟩
    rintro ⟨hclosed, hleft⟩
    obtain ⟨hprincipal, hidle, hunits⟩ := hf.settled hclosed
    obtain ⟨hcash, hflat⟩ := hw.empty hunits
    have hnone : TradingVault.openPositions node.vault node.state = 0 := by
      simp [TradingVault.openPositions, hflat]
    simp [hprincipal, hidle, hunits, hcash, hnone] at hleft
  simp only [readTradingSnapshot, h.deployment, h.immutables, hbacking, hstocks, haccounting,
    ensure_of h.canonical, ok_bind]
  rfl

theorem normalized_word {n : Nat} (h : n < 2 ^ 256) : normalized (word n) = .text n.repr := by
  rw [word, Nat.mod_eq_of_lt h]
  rfl

theorem normalized_word64 {n : Nat} (h : n < 2 ^ 64) : normalized (word64 n) = .text n.repr := by
  rw [word64, Nat.mod_eq_of_lt h]
  rfl

/-- The events of setting the latch are all of that kind. -/
theorem mayLiquidate_all (h : TradingVault.MayLiquidate es) :
    ((es.map (canonicalEvent manifest block receipt)).all
      fun e => e.eventName = "LiquidationStarted") = true := by
  rcases h with rfl | ⟨until_, version, rfl⟩
  · rfl
  · rfl

theorem one_boundsChanged {version : Nat} (h : TradingVault.MayLiquidate es) :
    one ((.boundsChanged version :: es).map (canonicalEvent manifest block receipt))
        "BoundsChanged" = some (canonicalEvent manifest block receipt (.boundsChanged version)) := by
  rcases h with rfl | ⟨until_, version', rfl⟩
  · rfl
  · rfl

theorem swapExecuted_fields (manifest : DeploymentManifest) (block : Block)
    (receipt : ChainReceipt) (version grantVersion : Nat) (stock : Address) (buy : Bool)
    (input output : Nat) :
    let e := canonicalEvent manifest block receipt
      (.swapExecuted version grantVersion stock buy input output)
    field e "stateVersion" = some (normalized (word version)) ∧
      field e "stock" = some (.text (addressText stock)) ∧ field e "buy" = some (.flag buy) ∧
      field e "input" = some (normalized (word input)) ∧
      field e "output" = some (normalized (word output)) :=
  ⟨rfl, rfl, rfl, rfl, rfl⟩

theorem find_stock (hstocks : ∀ i, c.stocks i = (inventory.stocks i).token) (i : Fin 3) :
    ∃ j, (List.finRange 3).find? (fun j => (inventory.stocks j).token = c.stocks i) = some j := by
  rw [← Option.isSome_iff_exists, List.find?_isSome]
  exact ⟨i, List.mem_finRange i, by simp [hstocks]⟩

section Execute

variable {action : Swap} (husdc : c.afUsdc = inventory.usdc)
  (hstocks : ∀ i, c.stocks i = (inventory.stocks i).token)
  (hversion : action.expectedVersion + 1 ≤ maxUint256)

include husdc hstocks hversion

theorem matchedExecute_filled (hfits : (TradingCall.execute action).Fits) (h : TradingVault.Filled c action s' es) :
    matchedExecute inventory (es.map (canonicalEvent manifest block receipt)) action =
      .ok true := by
  obtain ⟨grantVersion, i, output, rfl, hmin, hout, hroute, _⟩ := h
  have hmax := maxUint256_lt
  have hversionFits : action.expectedVersion + 1 < 2 ^ 256 := by omega
  have houtFits : output < 2 ^ 256 := by omega
  have htraded : (if action.tokenIn = inventory.usdc then action.tokenOut else action.tokenIn) =
      c.stocks i := by
    rw [← husdc]
    split at hroute
    · next hbuy => rw [if_pos hbuy, hroute]
    · next hsell => rw [if_neg hsell, hroute.1]
  have hside : action.tokenIn = inventory.usdc ∨ action.tokenOut = inventory.usdc := by
    rw [← husdc]
    split at hroute
    · next hbuy => exact Or.inl hbuy
    · exact Or.inr hroute.2
  obtain ⟨j, hj⟩ := find_stock hstocks i
  obtain ⟨hstate, hstock, hbuy, hinput, houtput⟩ := swapExecuted_fields manifest block
    receipt (action.expectedVersion + 1) grantVersion (c.stocks i)
    (decide (action.tokenIn = c.afUsdc)) action.amountIn output
  rw [normalized_word hversionFits] at hstate
  rw [normalized_word hfits.1] at hinput
  rw [normalized_word houtFits] at houtput
  rw [husdc] at hstate hstock hbuy hinput houtput ⊢
  simp only [matchedExecute, decide_eq_true_eq, htraded, hj, ensure_of hside, ok_bind]
  have hone : one ([TradingVault.Event.swapExecuted (action.expectedVersion + 1) grantVersion
      (c.stocks i) (decide (action.tokenIn = inventory.usdc)) action.amountIn output].map
        (canonicalEvent manifest block receipt)) "SwapExecuted" =
      some (canonicalEvent manifest block receipt (.swapExecuted (action.expectedVersion + 1)
        grantVersion (c.stocks i) (decide (action.tokenIn = inventory.usdc)) action.amountIn
        output)) := rfl
  have hnone : one ([TradingVault.Event.swapExecuted (action.expectedVersion + 1) grantVersion
      (c.stocks i) (decide (action.tokenIn = inventory.usdc)) action.amountIn output].map
        (canonicalEvent manifest block receipt)) "RiskOrderCancelled" = none := rfl
  simp only [hone, hnone, carries, List.all_cons, List.all_nil, hstock, hbuy, hinput, houtput,
    hstate, bigInt_repr, decide_true, Bool.and_true, if_true, ok_bind, if_pos hmin]
  rfl

theorem matchedExecute_cancelled (h : TradingVault.Cancelled c action s' es) :
    matchedExecute inventory (es.map (canonicalEvent manifest block receipt)) action =
      .ok true := by
  obtain ⟨hbuy, ⟨i, hi⟩, _, until_, rfl⟩ := h
  have hmax := maxUint256_lt
  have hversionFits : action.expectedVersion + 1 < 2 ^ 256 := by omega
  rw [husdc] at hbuy
  obtain ⟨j, hj⟩ := find_stock hstocks i
  have hstate : field (canonicalEvent manifest block receipt
      (.riskOrderCancelled (action.expectedVersion + 1))) "stateVersion" =
        some (.text (action.expectedVersion + 1).repr) := by
    rw [← normalized_word hversionFits]
    rfl
  have hone : one ([.liquidationStarted until_ (action.expectedVersion + 1),
      .riskOrderCancelled (action.expectedVersion + 1)].map (canonicalEvent manifest block receipt))
        "RiskOrderCancelled" = some (canonicalEvent manifest block receipt
          (.riskOrderCancelled (action.expectedVersion + 1))) := rfl
  have hnone : one ([.liquidationStarted until_ (action.expectedVersion + 1),
      .riskOrderCancelled (action.expectedVersion + 1)].map (canonicalEvent manifest block receipt))
        "SwapExecuted" = none := rfl
  simp only [matchedExecute, hbuy, decide_true, if_true, hi, hj, true_or, ensure_of trivial, ok_bind,
    hone, hnone, hstate, bigInt_repr]
  rfl

end Execute

/-- A call whose only event has the values it is checked for. -/
theorem carries_only {e : TradingVault.Event} {name : String} {values : List (String × Datum)}
    (hname : (fragment e).name = name)
    (hvalues : ∀ v ∈ values, field (canonicalEvent manifest block receipt e) v.1 = some v.2) :
    (return carries (one ([e].map (canonicalEvent manifest block receipt)) name) values :
      Except MismatchCode Bool) = .ok true := by
  have hone : one ([e].map (canonicalEvent manifest block receipt)) name =
      some (canonicalEvent manifest block receipt e) := by
    have hkept : (canonicalEvent manifest block receipt e).eventName = name := hname
    simp [one, hkept]
  have hall : (values.all fun v =>
      field (canonicalEvent manifest block receipt e) v.1 = some v.2) = true := by
    rw [List.all_eq_true]
    intro v hv
    exact decide_eq_true (hvalues v hv)
  rw [hone, carries, hall]
  rfl

/-- The events of an accepted call are those its reconciliation looks for. -/
theorem matched_emitted (husdc : c.afUsdc = inventory.usdc)
    (hstocks : ∀ i, c.stocks i = (inventory.stocks i).token) (hcall : callOf a = some call)
    (hfits : call.Fits) (h : Emits c s' es a) :
    matched inventory (es.map (canonicalEvent manifest block receipt)) call = .ok true := by
  cases a with
  | deposit m amount =>
      cases hcall
      obtain ⟨principal, locked, rfl⟩ := h
      refine carries_only rfl ?_
      simp only [List.mem_singleton, forall_eq, ← normalized_word hfits]
      rfl
  | allocate m feeds amount =>
      cases hcall
      obtain ⟨units, version, rfl⟩ := h
      refine carries_only rfl ?_
      simp only [List.forall_mem_cons, ← normalized_word hfits]
      exact ⟨rfl, rfl, fun _ h => nomatch h⟩
  | deallocate m feeds amount =>
      cases hcall
      obtain ⟨units, version, rfl⟩ := h
      refine carries_only rfl ?_
      simp only [List.forall_mem_cons, ← normalized_word hfits]
      exact ⟨rfl, rfl, fun _ h => nomatch h⟩
  | withdraw m amount =>
      cases hcall
      obtain ⟨exited, principal, rfl⟩ := h
      refine carries_only rfl ?_
      simp only [List.mem_singleton, forall_eq, ← normalized_word hfits]
      rfl
  | authorizeExecutor m next =>
      cases hcall
      obtain ⟨version, rfl⟩ := h
      refine carries_only rfl ?_
      simp only [List.forall_mem_cons, ← normalized_word64 hfits.1]
      exact ⟨rfl, rfl, fun _ h => nomatch h⟩
  | revokeExecutor m =>
      cases hcall
      exact congrArg Except.ok (mayLiquidate_all h.1)
  | stop m =>
      cases hcall
      exact congrArg Except.ok (mayLiquidate_all h.1)
  | checkRisk m feeds =>
      cases hcall
      exact congrArg Except.ok (mayLiquidate_all h)
  | setBounds m feeds lower upper priceLower priceUpper =>
      cases hcall
      obtain ⟨version, later, rfl, hlater⟩ := h
      simp only [matched, one_boundsChanged hlater, carries]
      rfl
  | execute m feeds r action =>
      cases hcall
      rcases h with ⟨hversion, hfilled | hcancelled⟩
      · exact matchedExecute_filled husdc hstocks hversion hfits hfilled
      · exact matchedExecute_cancelled husdc hstocks hversion hcancelled
  | close m =>
      cases hcall
      obtain ⟨⟨returned, unlocked, rfl⟩, _⟩ := h
      exact carries_only rfl (fun _ h => nomatch h)
  | rescueUntrackedToken m token =>
      cases hcall
      obtain ⟨amount, rfl⟩ := h
      refine carries_only rfl ?_
      simp only [List.mem_singleton, forall_eq]
      rfl
  | rescueNative m x =>
      cases hcall
      obtain ⟨amount, rfl⟩ := h
      refine carries_only rfl ?_
      simp only [List.mem_singleton, forall_eq]
      rfl
  | receive m => cases hcall
  | outside calls => cases hcall

/-! ## The state at the end of the block -/

/-- The two calls after which the latch must be set. -/
def halts : Action → Bool
  | .stop _ | .revokeExecutor _ => true
  | _ => false

theorem exec_version_le (as : List Action) :
    s.stateVersion ≤ (exec (step c) s as).stateVersion :=
  exec_invariant (P := fun w : State => s.stateVersion ≤ w.stateVersion)
    (fun _ _ _ hle h => Nat.le_trans hle (TradingVault.step_emits h).1) (Nat.le_refl _) as

theorem exec_closed (hs : s.closed = true) (as : List Action) :
    (exec (step c) s as).closed = true :=
  exec_invariant (P := fun w : State => w.closed = true)
    (fun _ _ _ hclosed h => TradingVault.step_closed hclosed h) hs as

/-- Whatever follows in the block, only the latch can look otherwise than the call
left it. -/
theorem settled_iff {later : List Action} (hend : node.state = exec (step c) u later)
    (hcall : callOf a = some call) (h : Emits c u es a) :
    settled (tradingSnapshot node manifest inventory block) call ↔
      ¬ (halts a = true ∧ Lifted (history (step c) u later)) := by
  have hlatch : u.liquidating = true →
      ((exec (step c) u later).liquidating = true ↔ ¬ Lifted (history (step c) u later)) := by
    intro hset
    rw [← Bool.not_eq_false, not_iff_not, TradingVault.exec_open_iff, hset]
    simp
  cases a with
  | revokeExecutor m =>
      cases hcall
      simp only [settled, tradingSnapshot, hend, hlatch h.2, halts, true_and]
  | stop m =>
      cases hcall
      simp only [settled, tradingSnapshot, hend, hlatch h.2, halts, true_and]
  | close m =>
      cases hcall
      simp only [settled, tradingSnapshot, hend, exec_closed h.2, halts, Bool.false_eq_true,
        false_and, not_false_eq_true]
  | execute m feeds r action =>
      cases hcall
      have hversion : u.stateVersion = action.expectedVersion + 1 := by
        rcases h.2 with ⟨_, _, _, _, _, _, _, hnext⟩ | ⟨_, _, hnext, _⟩
        · exact hnext
        · exact hnext
      have hle := exec_version_le (c := c) (s := u) later
      simp only [settled, tradingSnapshot, hend, Text.ofDecimal_repr, halts, Bool.false_eq_true,
        false_and, not_false_eq_true, iff_true]
      omega
  | receive m => cases hcall
  | outside calls => cases hcall
  | _ =>
      cases hcall
      simp [settled, halts]

/-! ## Whole blocks -/

section Block

variable {codec : Codec} {transaction : Option (Bytes32 → Option ChainTransaction)}
  {op : ChainOperation} {allEvents : List CanonicalContractEvent}

/-- The operation, the receipt and the transaction of a call that `caller` made. -/
structure Submitted (codec : Codec) (transaction : Option (Bytes32 → Option ChainTransaction))
    (manifest : DeploymentManifest) (block : Block) (op : ChainOperation) (receipt : ChainReceipt)
    (caller : Address) (call : TradingCall) : Prop where
  calldata : op.calldata = some (codec.encodeFunctionData call)
  chainId : op.chainId = testnetChainId
  owner : op.owner = caller
  target : op.target = manifest.contractAddress
  txHash : op.txHash = some receipt.transactionHash
  status : receipt.status = .success
  blockNumber : receipt.blockNumber = block.number
  blockHash : receipt.blockHash = block.hash
  sender : receipt.sender = caller
  recipient : receipt.recipient = some manifest.contractAddress
  transaction : ∃ lookup, transaction = some lookup ∧ lookup receipt.transactionHash = some
    { chainId := testnetChainId, sender := caller, recipient := some manifest.contractAddress
      data := codec.encodeFunctionData call, value := 0, blockHash := receipt.blockHash
      blockNumber := receipt.blockNumber, transactionIndex := receipt.transactionIndex }

theorem reconcile_of_submitted {caller : Address}
    (hop : Submitted codec transaction manifest block op receipt caller call)
    (hcodec : codec.parseTransaction (codec.encodeFunctionData call) = some call)
    (hcaller : caller = inventory.owner ∨ call.open = true)
    (hevents : ownEvents manifest receipt allEvents =
      es.map (canonicalEvent manifest block receipt))
    (hmatched : matched inventory (es.map (canonicalEvent manifest block receipt)) call = .ok true)
    (hread : readTradingSnapshot abi node manifest inventory block =
      .ok (tradingSnapshot node manifest inventory block)) :
    reconcile codec abi node transaction manifest inventory block op receipt allEvents =
      ensure (settled (tradingSnapshot node manifest inventory block) call)
        .contractStateMismatch := by
  have hreceipt : checkReceipt manifest block op receipt =
      .ok (codec.encodeFunctionData call) := by
    simp only [checkReceipt, hop.calldata]
    rw [ensure_of ⟨hop.chainId, hop.target, hop.txHash, hop.status, hop.blockNumber.symm,
      hop.blockHash.symm, hop.sender.trans hop.owner.symm, hop.recipient⟩]
    rfl
  have htransaction : checkTransaction transaction manifest op receipt
      (codec.encodeFunctionData call) = .ok () := by
    obtain ⟨lookup, rfl, htx⟩ := hop.transaction
    simp only [checkTransaction, htx]
    exact ensure_of (by simp [hop.owner]) _
  have hparse : parseCall codec inventory op (codec.encodeFunctionData call) = .ok call := by
    simp only [parseCall, hcodec, ensure_of trivial, ok_bind]
    rw [hop.owner, ensure_of hcaller]
    rfl
  have hcheck : checkEvents block receipt (es.map (canonicalEvent manifest block receipt)) =
      .ok () := by
    refine ensure_of ?_ _
    simp [canonicalEvent]
  simp only [reconcile, hreceipt, htransaction, hparse, hevents, hcheck, hmatched, ok_bind,
    ensure_of trivial, hread]

variable {m mc : Msg} {x : View} {self lockerSelf owner strategyCreator : Address}
  {strategyId strategyRef : Bytes32} {pass usdc router : Address} {stocks feeds : Fin 3 → Address}
  {maxPriceAge : Nat} {tokens : Tokens} {balance : Nat}

theorem caller_allowed (hm : a.msg = some m) (hcall : callOf a = some call)
    (howner : c.owner = inventory.owner) (h : step c a s = .ok u) :
    m.sender = inventory.owner ∨ call.open = true := by
  cases ha : a.open with
  | false => exact Or.inl ((TradingVault.step_owner hm ha h).trans howner)
  | true =>
      right
      cases a with
      | checkRisk _ _ =>
          cases hcall
          rfl
      | execute _ _ _ _ =>
          cases hcall
          rfl
      | receive _ => cases hcall
      | _ => cases ha

section Run

variable (hnew : TradingVault.constructor mc x self lockerSelf owner strategyCreator strategyId
    strategyRef pass usdc router stocks feeds maxPriceAge tokens balance = .ok (c, s))
  (hquiet : s.tokens.Quiet (TradingVault.own c)) {before later : List Action}
  (hstep : step c a (exec (step c) s before) = .ok u) (hm : a.msg = some m)
  (hcall : callOf a = some call) (hfits : call.Fits) (hvault : node.vault = c)
  (hend : node.state = exec (step c) u later)
  (hq : Qualified abi node manifest inventory block)
  (hcodec : codec.parseTransaction (codec.encodeFunctionData call) = some call)
  (hop : Submitted codec transaction manifest block op receipt m.sender call)
  (hlog : u.log = (exec (step c) s before).log ++ es)
  (hevents : ownEvents manifest receipt allEvents = es.map (canonicalEvent manifest block receipt))

include hnew hquiet hstep hm hcall hfits hvault hend hq hcodec hop hlog hevents

/-- Only the look at the end of the block can turn a transaction of the vault down. -/
theorem reconcile_settled :
    reconcile codec abi node transaction manifest inventory block op receipt allEvents =
      ensure (settled (tradingSnapshot node manifest inventory block) call)
        .contractStateMismatch := by
  obtain ⟨hid, hworking, hfunded, _⟩ := TradingVault.constructor_ok hnew
  have hkeep : ∀ a w w', Working c w ∧ Funded c w → step c a w = .ok w' →
      Working c w' ∧ Funded c w' := fun a _ _ hb h =>
    ⟨TradingVault.step_working hid a hb.1 h, TradingVault.step_funded hid a hb.1 hb.2 h⟩
  have hbooks : Working node.vault node.state ∧ Funded node.vault node.state := by
    rw [hvault, hend]
    exact exec_invariant hkeep
      (hkeep a _ _ (exec_invariant hkeep ⟨hworking, hfunded hquiet⟩ before) hstep) later
  obtain ⟨howner, _, husdc, _, _⟩ := hq.identities
  rw [hvault] at howner husdc
  have hstocks : ∀ i, c.stocks i = (inventory.stocks i).token := by
    intro i
    rw [← hvault]
    exact (hq.assets i).1
  obtain ⟨_, es', hlog', hemits⟩ := TradingVault.step_emits hstep
  have hsame : es' = es := List.append_cancel_left (hlog'.symm.trans hlog)
  subst hsame
  exact reconcile_of_submitted hop hcodec (caller_allowed hm hcall howner hstep) hevents
    (matched_emitted husdc hstocks hcall hfits hemits)
    (readTradingSnapshot_of hq hbooks.1 hbooks.2)

/-- A transaction of the vault, with any transactions before it and any after it in
its block, is reconciled exactly when it did not set the latch, or no grant that
followed it in the block lifted the latch for good. -/
theorem reconciled_iff_latch_kept :
    reconcileOperation codec abi node transaction manifest inventory block op receipt allEvents =
        .match_ ↔ ¬ (halts a = true ∧ Lifted (history (step c) u later)) := by
  obtain ⟨_, es', _, hemits⟩ := TradingVault.step_emits hstep
  have hiff : settled (tradingSnapshot node manifest inventory block) call ↔
      ¬ (halts a = true ∧ Lifted (history (step c) u later)) := settled_iff hend hcall hemits
  rw [reconcileOperation, reconcile_settled hnew hquiet hstep hm hcall hfits hvault hend hq hcodec
    hop hlog hevents, ← hiff]
  by_cases hsettled : settled (tradingSnapshot node manifest inventory block) call
  · rw [ensure_of hsettled]
    exact iff_of_true rfl hsettled
  · rw [ensure, if_neg hsettled]
    exact iff_of_false (fun h => nomatch h) hsettled

end Run

end Block

theorem ownEvents_canonical (es : List TradingVault.Event) :
    ownEvents manifest receipt (es.map (canonicalEvent manifest block receipt)) =
      es.map (canonicalEvent manifest block receipt) := by
  rw [ownEvents, List.filter_eq_self]
  intro e he
  obtain ⟨event, _, rfl⟩ := List.mem_map.mp he
  simp [canonicalEvent]

/-! ## A stop, alone in its block and before a new grant -/

def exampleInventory : TradingInventory :=
  { deploymentManifestDigest := 9, owner := 3, passLocker := 2, usdc := 6, router := 10
    quoter := 20, factory := 21, maxPriceAge := 60
    stocks := ![⟨"MSFT", 7, 17, 27, 1, 30⟩, ⟨"NVDA", 8, 18, 28, 2, 30⟩, ⟨"AAPL", 9, 19, 29, 3, 30⟩]
    codeHashes := [2, 6, 10, 20, 21, 7, 17, 27, 8, 18, 28, 9, 19, 29].map fun a => (a, 1) }

def exampleManifest : DeploymentManifest :=
  { contractName := "AlphaForgeTradingVault", contractType := "vault"
    abiVersion := tradingAbiVersion, abiHash := 11, strategyPassAbiHash := 12, manifestDigest := 9
    contractAddress := 1, deploymentBlock := 5, runtimeBytecodeHash := 1, strategyPassAddress := 5
    strategyPassDeploymentBlock := 4, strategyPassRuntimeBytecodeHash := 1 }

def exampleBlock : Block := ⟨16, 0xab, 110⟩

/-- A node that sees the vault `c` in the state `s`. -/
def exampleNode (c : Config) (s : State) : Node :=
  { chainId := testnetChainId, blockHash := fun n => if n = 16 then some 0xab else none
    codeHash := fun a => if a = 3 then none else some 1, vault := c, state := s
    decimals := fun a => if a = 6 then 6 else 18, strategyId := fun _ => 1
    factory := fun _ => 21, getPool := fun _ token _ => token + 20, token0 := fun _ => 6
    token1 := fun pool => pool - 20, fee := fun _ => 3000, price := TradingVault.exampleFeeds
    keeper := fun _ => 30, referenceIdentity := fun feed => feed.setWidth 256 - 16 }

/-- `stop()` has no arguments, so its calldata is its selector. -/
def exampleCodec : Codec :=
  { encodeFunctionData := fun call => match call with
      | .stop => [0x07, 0xda, 0x68, 0xf5]
      | _ => []
    parseTransaction := fun data => if data = [0x07, 0xda, 0x68, 0xf5] then some .stop else none }

def exampleReceipt : ChainReceipt := ⟨0xcd, 16, 0xab, 0, 3, some 1, .success⟩

def exampleTransaction : Bytes32 → Option ChainTransaction := fun hash =>
  if hash = 0xcd then some ⟨testnetChainId, 3, some 1, [0x07, 0xda, 0x68, 0xf5], 0, 0xab, 16, 0⟩
  else none

def exampleOperation : ChainOperation :=
  { operationId := "stop", chainId := testnetChainId, owner := 3, target := 1
    calldata := some [0x07, 0xda, 0x68, 0xf5], state := .mined, txHash := some 0xcd
    submittedAt := some "2026-10-02T00:00:00Z", blockNumber := some 16, blockHash := some 0xab
    transactionIndex := some 0, receiptStatus := some .success, confirmations := 0
    replacementTxHash := none, canonical := true, reconciled := false, confirmedAt := none
    errorCode := none }

theorem example_submitted : Submitted exampleCodec (some exampleTransaction) exampleManifest
    exampleBlock exampleOperation exampleReceipt 3 .stop :=
  ⟨rfl, rfl, rfl, rfl, rfl, rfl, rfl, rfl, rfl, rfl, exampleTransaction, rfl, rfl⟩

def exampleConfig : Config :=
  { self := 1, owner := 3, strategyCreator := 4, strategyId := 1, strategyRef := 1, pass := 5
    afUsdc := 6, router := 10, locker := ⟨2, 1, 3, 5⟩, maxPriceAge := 60, stocks := ![7, 8, 9]
    feeds := ![17, 18, 19] }

def exampleFresh : State :=
  { tokens := TradingVault.exampleTokens, locker := ⟨0, []⟩, balance := 0
    grant := ⟨0, 0, 0, 0, 0, 0⟩, grantVersion := 0, stateVersion := 0, principalBasis := 0
    idleCash := 0, runtimeCash := 0, runtimeUnits := 0, totalBuyUsdc := 0
    trackedPosition := fun _ => 0, openTrackedPositionCount := 0, closed := false
    liquidating := false, liquidationUntil := 0, lowerUnitNav := 0, upperUnitNav := 0
    lowerPrice := fun _ => 0, upperPrice := fun _ => 0, log := [] }

theorem example_constructed :
    TradingVault.constructor (TradingVault.exampleMsg 3 99) TradingVault.exampleView 1 2 3 4 1 1 5 6
      10 ![7, 8, 9] ![17, 18, 19] 60 TradingVault.exampleTokens 0 =
        .ok (exampleConfig, exampleFresh) := rfl

theorem example_qualified (s : State) :
    Qualified ⟨11, 12⟩ (exampleNode exampleConfig s) exampleManifest exampleInventory
      exampleBlock := by
  have hpinned : ∀ e ∈ pinned exampleManifest exampleInventory, e.1 ≠ 3 ∧ e.2 = 1 := by
    simp [pinned, exampleManifest, exampleInventory]
  refine ⟨?_, ?_, rfl, rfl, rfl, ⟨rfl, rfl⟩, fun i => ?_, fun i => ?_, fun i => ?_, rfl⟩
  · simp only [checkDeployment, bind_eq_ok, ensure_eq_ok]
    refine ⟨(), ⟨rfl, rfl, rfl, rfl, rfl, rfl⟩, (), rfl, (), ⟨by decide, by decide⟩, (), rfl, (),
      by decide, List.all_eq_true.mpr fun e he => decide_eq_true ?_⟩
    rw [(hpinned e he).2]
    exact if_neg (hpinned e he).1
  · simp only [checkImmutables, bind_eq_ok, ensure_eq_ok]
    exact ⟨(), ⟨rfl, rfl, rfl, rfl, rfl⟩, (), rfl, rfl⟩
  · rcases TradingVault.stock_cases i with rfl | rfl | rfl
    all_goals exact ⟨rfl, rfl, rfl, rfl⟩
  · rcases TradingVault.stock_cases i with rfl | rfl | rfl
    all_goals exact ⟨rfl, rfl, rfl, Or.inr ⟨rfl, rfl⟩⟩
  · rcases TradingVault.stock_cases i with rfl | rfl | rfl
    all_goals rfl

theorem example_quiet : TradingVault.exampleTokens.Quiet [1, 2] := by
  intro token account hown spender
  simp only [List.mem_cons, List.not_mem_nil, or_false] at hown
  rcases hown with rfl | rfl <;> simp [TradingVault.exampleTokens]

/-- Cash at work and an executor, but nothing bought yet. -/
def exampleStart : List Action := TradingVault.exampleRun.take 3

def exampleStop : Action := .stop (TradingVault.exampleMsg 3 110)

/-- The grant is given again in the block of the stop. -/
def exampleRegrant : List Action :=
  [.authorizeExecutor (TradingVault.exampleMsg 3 110) ⟨12, 150, 20, 500, 600, 100⟩]

/-- The vault after the stop. -/
def exampleStopped : State :=
  apply (step exampleConfig) (exec (step exampleConfig) exampleFresh exampleStart) exampleStop

theorem example_stops : step exampleConfig exampleStop
    (exec (step exampleConfig) exampleFresh exampleStart) = .ok exampleStopped := rfl

theorem stop_reconciled : ∃ es,
    exampleStopped.log = (exec (step exampleConfig) exampleFresh exampleStart).log ++ es ∧
    reconcileOperation exampleCodec ⟨11, 12⟩ (exampleNode exampleConfig exampleStopped)
      (some exampleTransaction) exampleManifest exampleInventory exampleBlock exampleOperation
      exampleReceipt (es.map (canonicalEvent exampleManifest exampleBlock exampleReceipt)) =
        .match_ := by
  obtain ⟨_, es, hlog, _⟩ := TradingVault.step_emits example_stops
  have hend : (exampleNode exampleConfig exampleStopped).state =
    exec (step exampleConfig) exampleStopped [] := rfl
  refine ⟨es, hlog, (reconciled_iff_latch_kept example_constructed example_quiet example_stops rfl
    rfl trivial rfl hend (example_qualified _) rfl example_submitted hlog
    (ownEvents_canonical es)).mpr ?_⟩
  rintro ⟨_, before, t, after, hnil, _⟩
  simp [history] at hnil

/-- A stop that is followed, in its own block, by a new grant. -/
theorem stop_before_grant_not_reconciled : ∃ es,
    exampleStopped.log = (exec (step exampleConfig) exampleFresh exampleStart).log ++ es ∧
    (history (step exampleConfig) exampleStopped exampleRegrant).length = 1 ∧
    Qualified ⟨11, 12⟩
      (exampleNode exampleConfig (exec (step exampleConfig) exampleStopped exampleRegrant))
      exampleManifest exampleInventory exampleBlock ∧
    Submitted exampleCodec (some exampleTransaction) exampleManifest exampleBlock exampleOperation
      exampleReceipt 3 .stop ∧
    reconcileOperation exampleCodec ⟨11, 12⟩
      (exampleNode exampleConfig (exec (step exampleConfig) exampleStopped exampleRegrant))
      (some exampleTransaction) exampleManifest exampleInventory exampleBlock exampleOperation
      exampleReceipt (es.map (canonicalEvent exampleManifest exampleBlock exampleReceipt)) =
        .mismatch .contractStateMismatch := by
  obtain ⟨_, es, hlog, _⟩ := TradingVault.step_emits example_stops
  have hend : (exampleNode exampleConfig
    (exec (step exampleConfig) exampleStopped exampleRegrant)).state =
      exec (step exampleConfig) exampleStopped exampleRegrant := rfl
  refine ⟨es, hlog, rfl, example_qualified _, example_submitted, ?_⟩
  rw [reconcileOperation, reconcile_settled example_constructed example_quiet example_stops rfl rfl
    trivial rfl hend (example_qualified _) rfl example_submitted hlog (ownEvents_canonical es)]
  rfl

end Indexer
end AlphaForge
