/-
Values that the packages of the launch market share, `types.ts` and `config.ts`.

Hexadecimal text of any case stands for the bytes it spells.
-/
import AlphaForge.Evm.Exec

namespace AlphaForge
namespace Market

open Evm

/-- `Number.MAX_SAFE_INTEGER`. -/
def maxSafeInteger : Nat := 2 ^ 53 - 1

structure ChainLocation where
  chainId : Nat
  blockNumber : Nat
  blockHash : Bytes32
  transactionHash : Option Bytes32
  logIndex : Option Nat
  version : Nat
  confirmations : Int
  deriving DecidableEq

/-- The key of a log in the tables of events. -/
structure EventKey where
  transactionHash : Bytes32
  logIndex : Nat
  blockHash : Bytes32
  deriving DecidableEq

/-- `address`. -/
def address (value : Address) : Except String Address := do
  ensure (value ≠ 0) "INVALID_ADDRESS"
  return value

theorem address_eq_ok {value r : Address} : address value = .ok r ↔ value ≠ 0 ∧ value = r := by
  simp only [address, bind_eq_ok, ensure_eq_ok, pure_eq_ok, exists_and_left, exists_const]

end Market
end AlphaForge
