/-
The trading vault's events as the indexer reads them.

`decodeTradingEvent` of `trading-vault-integration.ts` over the ABI of
`trading-abi.ts`: a log of a known event is decoded, encoded again, compared, and
turned into named values.  Hexadecimal text of any case stands for the words it
spells, so the comparison is one of words.
-/
import AlphaForge.Evm.Abi
import AlphaForge.Vault.TradingVault

namespace AlphaForge
namespace Indexer

open Evm

/-- The part of a log that decoding reads. -/
structure ChainLog where
  topics : List Bytes32
  data : List Bytes32

/-- A value of the decoded record: integers and addresses are text. -/
inductive Datum where
  | text (v : String)
  | flag (b : Bool)
  deriving DecidableEq

structure DecodedContractEvent where
  eventSignature : Bytes32
  eventName : String
  normalizedData : List (String × Datum)

/-! ## The ABI -/

def uint256 (name : String) : Param := ⟨name, .uint 256, false⟩

def deposited : Fragment :=
  ⟨"Deposited", 0x1ca606821992e3b34613b5b29c0bbade3a907b2969d7f9f2927f726fa4baccfb,
    [uint256 "amountUsdc", uint256 "principalBasis", uint256 "lockedPass"]⟩

def capitalChanged : Fragment :=
  ⟨"CapitalChanged", 0x27c033c5fdc6e6584e6181993a1d048b9f1243a37721cd98c0a097af4a17fb58,
    [⟨"allocated", .bool, false⟩, uint256 "amountUsdc", uint256 "units", uint256 "stateVersion"]⟩

def withdrawn : Fragment :=
  ⟨"Withdrawn", 0xabd2ab552bc04cdbfa4a54107fa44ac8c9cb06f6d21da11933ac05a653be19e9,
    [uint256 "amountUsdc", uint256 "principalExited", uint256 "principalBasis"]⟩

def grantAuthorized : Fragment :=
  ⟨"GrantAuthorized", 0xcc71c298d76c43e65ed1c74479beaa4cabc44e09c4a1cfae2fd1be7f702caa8c,
    [⟨"grantVersion", .uint 256, true⟩, ⟨"executor", .address, true⟩, ⟨"expiresAt", .uint 64, false⟩]⟩

def liquidationStarted : Fragment :=
  ⟨"LiquidationStarted", 0x28fe42f05f2c7a487a101dc747df9629f2fd3db695ebd4d6bb69fd5a1598a762,
    [⟨"until", .uint 64, false⟩, uint256 "stateVersion"]⟩

def riskOrderCancelled : Fragment :=
  ⟨"RiskOrderCancelled", 0x07fd148785d39d53757709679573ad9c00f4fbbc0f5c1a01e4df722dcad897a9,
    [⟨"stateVersion", .uint 256, true⟩]⟩

def swapExecuted : Fragment :=
  ⟨"SwapExecuted", 0x45b8260d220e54f8ba51b8c4d6695ce4281b1e11677ac522d4d6da0adc7823e5,
    [⟨"stateVersion", .uint 256, true⟩, ⟨"grantVersion", .uint 256, true⟩, ⟨"stock", .address, true⟩,
      ⟨"buy", .bool, false⟩, uint256 "input", uint256 "output"]⟩

def boundsChanged : Fragment :=
  ⟨"BoundsChanged", 0x3ed29df95820c4325e8dc4eba0e3a8ea91f214ebfa751102f56b2817cf119438,
    [uint256 "stateVersion"]⟩

def closed : Fragment :=
  ⟨"Closed", 0xbb1c869dafbabf53b7b5a50e7864066365b4c5d1bcfa0220f75cc2a2acfb44f6,
    [uint256 "returnedUsdc", uint256 "unlockedPass"]⟩

def dustRescued : Fragment :=
  ⟨"DustRescued", 0x901b2762e786156052759ef70507075ec1df246433029e6ab92228bb22c8edb3,
    [⟨"token", .address, true⟩, uint256 "amount"]⟩

/-- The events of `tradingInterface`. -/
def tradingEvents : List Fragment :=
  [deposited, capitalChanged, withdrawn, grantAuthorized, liquidationStarted, riskOrderCancelled,
    swapExecuted, boundsChanged, closed, dustRescued]

def getEvent (topic : Bytes32) : Option Fragment :=
  tradingEvents.find? (fun f => f.topicHash = topic)

/-! ## Decoding -/

def normalized : AbiValue → Datum
  | .uint n => .text n.repr
  | .bool b => .flag b
  | .address a => .text (addressText a)

def normalizedData (f : Fragment) (values : List AbiValue) : List (String × Datum) :=
  f.inputs.zipWith (fun input value => (input.name, normalized value)) values

def decodeTradingEvent (log : ChainLog) : Except String (Option DecodedContractEvent) :=
  match log.topics with
  | [] => .ok none
  | topic :: _ =>
      match getEvent topic with
      | none => .ok none
      | some fragment => do
          let decoded ← decodeEventLog fragment log.data log.topics
          let (topics, data) := encodeEventLog fragment decoded
          if data ≠ log.data ∨ topics ≠ log.topics then .error "TRADING_EVENT_ENCODING"
          else .ok (some ⟨topic, fragment.name, normalizedData fragment decoded⟩)

/-- The logs of an account in order, without those of events that are not known. -/
def decodeLogs (logs : List ChainLog) : Except String (List DecodedContractEvent) := do
  return (← logs.mapM decodeTradingEvent).filterMap id

/-! ## What the vault emits -/

def fragment : TradingVault.Event → Fragment
  | .deposited _ _ _ => deposited
  | .capitalChanged _ _ _ _ => capitalChanged
  | .withdrawn _ _ _ => withdrawn
  | .grantAuthorized _ _ _ => grantAuthorized
  | .liquidationStarted _ _ => liquidationStarted
  | .riskOrderCancelled _ => riskOrderCancelled
  | .swapExecuted _ _ _ _ _ _ => swapExecuted
  | .boundsChanged _ => boundsChanged
  | .closed _ _ => closed
  | .dustRescued _ _ => dustRescued

def word (n : Nat) : AbiValue := .uint (n % 2 ^ 256)

def word64 (n : Nat) : AbiValue := .uint (n % 2 ^ 64)

/-- The arguments of an event as words of the machine. -/
def arguments : TradingVault.Event → List AbiValue
  | .deposited amountUsdc principalBasis lockedPass =>
      [word amountUsdc, word principalBasis, word lockedPass]
  | .capitalChanged allocated amountUsdc units stateVersion =>
      [.bool allocated, word amountUsdc, word units, word stateVersion]
  | .withdrawn amountUsdc principalExited principalBasis =>
      [word amountUsdc, word principalExited, word principalBasis]
  | .grantAuthorized grantVersion executor expiresAt =>
      [word grantVersion, .address executor, word64 expiresAt]
  | .liquidationStarted until_ stateVersion => [word64 until_, word stateVersion]
  | .riskOrderCancelled stateVersion => [word stateVersion]
  | .swapExecuted stateVersion grantVersion stock buy input output =>
      [word stateVersion, word grantVersion, .address stock, .bool buy, word input, word output]
  | .boundsChanged stateVersion => [word stateVersion]
  | .closed returnedUsdc unlockedPass => [word returnedUsdc, word unlockedPass]
  | .dustRescued token amount => [.address token, word amount]

def emitted (e : TradingVault.Event) : ChainLog :=
  let (topics, data) := encodeEventLog (fragment e) (arguments e)
  ⟨topics, data⟩

/-- What an event reads as. -/
def performanceEvent (e : TradingVault.Event) : DecodedContractEvent :=
  ⟨(fragment e).topicHash, (fragment e).name, normalizedData (fragment e) (arguments e)⟩

theorem getEvent_fragment (e : TradingVault.Event) :
    getEvent (fragment e).topicHash = some (fragment e) := by
  cases e <;> rfl

theorem word_holds (n : Nat) : (AbiType.uint 256).Holds (word n) :=
  ⟨Nat.le_refl _, Nat.mod_lt _ (by decide)⟩

theorem word64_holds (n : Nat) : (AbiType.uint 64).Holds (word64 n) :=
  ⟨by decide, Nat.mod_lt _ (by decide)⟩

theorem arguments_hold (e : TradingVault.Event) :
    List.Forall₂ (fun p v => p.type.Holds v) (fragment e).inputs (arguments e) := by
  cases e <;>
    simp [fragment, arguments, deposited, capitalChanged, withdrawn, grantAuthorized,
      liquidationStarted, riskOrderCancelled, swapExecuted, boundsChanged, closed, dustRescued,
      uint256, word_holds, word64_holds]

/-- Every event the vault can emit is read as itself. -/
theorem decodeTradingEvent_emitted (e : TradingVault.Event) :
    decodeTradingEvent (emitted e) = .ok (some (performanceEvent e)) := by
  have htopics : (emitted e).topics = (fragment e).topicHash ::
      (encodeWords (fragment e).inputs (arguments e)).1 := rfl
  have hdecoded : decodeEventLog (fragment e) (emitted e).data (emitted e).topics =
      .ok (arguments e) := decodeEventLog_encodeEventLog (arguments_hold e)
  unfold decodeTradingEvent
  split
  · next hnil =>
    rw [htopics] at hnil
    cases hnil
  · next topic rest hcons =>
    rw [htopics] at hcons
    obtain ⟨rfl, _⟩ := List.cons.inj hcons
    rw [getEvent_fragment e]
    simp only [hdecoded, bind, Except.bind]
    exact if_neg (fun h => h.elim (fun hdata => hdata rfl) (fun htopic => htopic rfl))

theorem decodeLogs_emitted (events : List TradingVault.Event) :
    decodeLogs (events.map emitted) = .ok (events.map performanceEvent) := by
  have hall : (events.map emitted).mapM decodeTradingEvent =
      .ok (events.map (fun e => some (performanceEvent e))) := by
    induction events with
    | nil => rfl
    | cons e rest ih =>
        rw [List.map_cons, List.mapM_cons, decodeTradingEvent_emitted, ih]
        rfl
  rw [decodeLogs, hall]
  simp [bind, Except.bind, pure, Except.pure, List.filterMap_map]

end Indexer
end AlphaForge
