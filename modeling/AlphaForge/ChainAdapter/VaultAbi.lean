/-
The calldata of the vault, `vault-abi.ts`, as text.

A call is `0x`, a selector of eight digits and a word of 64 digits for each argument.
The encoder writes lower case; the decoder takes either case, and it takes nothing else
that the encoder would not have written.
-/
import AlphaForge.Evm.Exec
import AlphaForge.Text.Hex

namespace AlphaForge
namespace VaultAbi

open Text
open Evm (ensure toOption_eq_some)

/-! ## Checked texts, `types.ts` -/

/-- The regular expression `^0x[0-9a-fA-F]{...}$`. -/
def isHexOf (bytes : Nat) : List Char → Bool
  | '0' :: 'x' :: ds => ds.all isHexChar && decide (ds.length = bytes * 2)
  | _ => false

/-- The regular expression `^0x(?:[0-9a-fA-F]{2})*$`. -/
def isHexData : List Char → Bool
  | '0' :: 'x' :: ds => ds.all isHexChar && decide (ds.length % 2 = 0)
  | _ => false

structure Address where
  text : List Char
  valid : isHexOf 20 text = true

structure HexData where
  text : List Char
  valid : isHexData text = true

def asAddress (value : List Char) : Except String Address :=
  if h : isHexOf 20 value = true then .ok ⟨value, h⟩ else .error "INVALID_ADDRESS"

def asHexData (value : List Char) : Except String HexData :=
  if h : isHexData value = true then .ok ⟨value, h⟩ else .error "INVALID_HEX_DATA"

def toLowerCase (text : List Char) : List Char := text.map Char.toLower

def sameAddress (left right : Address) : Prop := toLowerCase left.text = toLowerCase right.text

/-! ## The functions of the vault -/

inductive AbiArgument where
  | address
  | uint256

structure FunctionDefinition where
  selector : String
  arguments : List AbiArgument

def functionDefinitions : List (String × FunctionDefinition) :=
  [("afBtc()", ⟨"0xa8d937e9", []⟩),
    ("afEth()", ⟨"0xf20173bc", []⟩),
    ("afUsdc()", ⟨"0x8b5a851f", []⟩),
    ("close()", ⟨"0x43d726d6", []⟩),
    ("closed()", ⟨"0x597e1fb5", []⟩),
    ("deposit(uint256)", ⟨"0xb6b55f25", [.uint256]⟩),
    ("openTrackedPositionCount()", ⟨"0x34dda870", []⟩),
    ("owner()", ⟨"0x8da5cb5b", []⟩),
    ("pass()", ⟨"0xa7a1ed72", []⟩),
    ("passLocker()", ⟨"0xab88dc4b", []⟩),
    ("passToUsdcRaw(uint256)", ⟨"0x18ba7fe2", [.uint256]⟩),
    ("principalBasis()", ⟨"0xad587035", []⟩),
    ("realizedProfit()", ⟨"0x738b74f0", []⟩),
    ("rescueNative()", ⟨"0xfc82f084", []⟩),
    ("rescueUntrackedToken(address)", ⟨"0x45f5030f", [.address]⟩),
    ("reservedTrackedBalance(address)", ⟨"0xc0bdb971", [.address]⟩),
    ("strategyCreator()", ⟨"0x499bb2ab", []⟩),
    ("strategyId()", ⟨"0x492f4e18", []⟩),
    ("strategyRef()", ⟨"0xc288f3de", []⟩),
    ("trackedPosition(address)", ⟨"0xb31ede63", [.address]⟩),
    ("trackedUsdcBalance()", ⟨"0x0510ca51", []⟩),
    ("untrackedExcess(address)", ⟨"0x21f38bbd", [.address]⟩),
    ("usdcToPassRaw(uint256)", ⟨"0x643456f6", [.uint256]⟩),
    ("withdraw(uint256)", ⟨"0x2e1a7d4d", [.uint256]⟩),
    ("withdrawableUsdc()", ⟨"0x442ad6a0", []⟩)]

def selectorOf (signature : String) : List Char :=
  ((functionDefinitions.lookup signature).map fun definition => definition.selector.toList).getD []

/-! ## Encoding -/

/-- A value of unknown type. -/
inductive Value where
  | bigint (n : Int)
  | string (text : List Char)
  | other

def maximumUint256 : Int := 2 ^ 256 - 1

def uintWord : Value → Except String (List Char)
  | .bigint n =>
      if n < 0 ∨ n > maximumUint256 then .error "INVALID_M3_VAULT_CALL"
      else .ok (List.leftpad 64 '0' (Nat.toDigits 16 n.toNat))
  | _ => .error "INVALID_M3_VAULT_CALL"

def addressWord : Value → Except String (List Char)
  | .string text => do
      let address ← asAddress text
      return List.leftpad 64 '0' (toLowerCase (address.text.drop 2))
  | _ => .error "INVALID_M3_VAULT_CALL"

def argumentWord : AbiArgument × Value → Except String (List Char)
  | (.uint256, value) => uintWord value
  | (.address, value) => addressWord value

def encodeM3VaultCall (signature : String) (values : List Value) : Except String HexData :=
  match functionDefinitions.lookup signature with
  | none => .error "INVALID_M3_VAULT_CALL"
  | some definition => do
      ensure (values.length = definition.arguments.length) "INVALID_M3_VAULT_CALL"
      let encoded ← (definition.arguments.zip values).mapM argumentWord
      asHexData (definition.selector.toList ++ encoded.flatten)

/-! ## Decoding -/

def parseUintWord (value : List Char) : Except String Int := do
  ensure (value.all isHexChar = true ∧ value.length = 64) "INVALID_M3_VAULT_ABI_WORD"
  return ofHexWord value

def parseAddressWord (value : List Char) : Except String Address := do
  ensure (value.take 24 = List.replicate 24 '0' ∧ (value.drop 24).all isHexChar = true ∧
    (value.drop 24).length = 40) "INVALID_M3_VAULT_ABI_WORD"
  asAddress ('0' :: 'x' :: value.drop 24)

inductive M3VaultCalldata where
  | deposit (usdcAmount : Int)
  | withdraw (usdcAmount : Int)
  | close
  | rescueUntrackedToken (token : Address)
  | rescueNative

def decodeM3VaultCalldata (data : HexData) : Option M3VaultCalldata :=
  let selector := toLowerCase (data.text.take 10)
  if selector = selectorOf "deposit(uint256)" ∧ data.text.length = 74 then
    (parseUintWord (data.text.drop 10)).toOption.map .deposit
  else if selector = selectorOf "withdraw(uint256)" ∧ data.text.length = 74 then
    (parseUintWord (data.text.drop 10)).toOption.map .withdraw
  else if selector = selectorOf "close()" ∧ data.text.length = 10 then some .close
  else if selector = selectorOf "rescueUntrackedToken(address)" ∧ data.text.length = 74 then
    (parseAddressWord (data.text.drop 10)).toOption.map .rescueUntrackedToken
  else if selector = selectorOf "rescueNative()" ∧ data.text.length = 10 then some .rescueNative
  else none

/-! ## The calldata of an action -/

namespace M3VaultCalldata

def signature : M3VaultCalldata → String
  | deposit _ => "deposit(uint256)"
  | withdraw _ => "withdraw(uint256)"
  | close => "close()"
  | rescueUntrackedToken _ => "rescueUntrackedToken(address)"
  | rescueNative => "rescueNative()"

def values : M3VaultCalldata → List Value
  | deposit usdcAmount => [.bigint usdcAmount]
  | withdraw usdcAmount => [.bigint usdcAmount]
  | rescueUntrackedToken token => [.string token.text]
  | _ => []

/-- An amount is a `uint256`. -/
def Encodable : M3VaultCalldata → Prop
  | deposit usdcAmount => 0 ≤ usdcAmount ∧ usdcAmount ≤ maximumUint256
  | withdraw usdcAmount => 0 ≤ usdcAmount ∧ usdcAmount ≤ maximumUint256
  | _ => True

/-- The same action with the same argument; an address may differ in the case of its
letters. -/
def Same : M3VaultCalldata → M3VaultCalldata → Prop
  | deposit a, deposit b => a = b
  | withdraw a, withdraw b => a = b
  | close, close => True
  | rescueUntrackedToken a, rescueUntrackedToken b => sameAddress a b
  | rescueNative, rescueNative => True
  | _, _ => False

def word : M3VaultCalldata → List Char
  | deposit usdcAmount => hexDigits 64 usdcAmount.toNat
  | withdraw usdcAmount => hexDigits 64 usdcAmount.toNat
  | rescueUntrackedToken token => List.replicate 24 '0' ++ toLowerCase (token.text.drop 2)
  | _ => []

/-- The calldata in lower case. -/
def text (action : M3VaultCalldata) : List Char := selectorOf action.signature ++ action.word

theorem length_selector (action : M3VaultCalldata) : (selectorOf action.signature).length = 10 := by
  cases action <;> simp only [signature] <;> decide

theorem Same.text {action other : M3VaultCalldata} (h : Same action other) :
    action.text = other.text := by
  cases action <;> cases other <;> first | exact h.elim | skip
  case deposit.deposit => rw [show _ = _ from h]
  case withdraw.withdraw => rw [show _ = _ from h]
  case rescueUntrackedToken.rescueUntrackedToken token other =>
      have hsame : toLowerCase token.text = toLowerCase other.text := h
      rw [M3VaultCalldata.text, M3VaultCalldata.text, word, word, toLowerCase, toLowerCase,
        List.map_drop, List.map_drop]
      rw [toLowerCase, toLowerCase] at hsame
      rw [hsame]
      rfl
  all_goals rfl

end M3VaultCalldata

open M3VaultCalldata

variable {data : HexData} {action : M3VaultCalldata} {value : List Char}

theorem Address.digits (token : Address) : ∃ ds, token.text = '0' :: 'x' :: ds ∧
    ds.all isHexChar = true ∧ ds.length = 40 := by
  have h := token.valid
  unfold isHexOf at h
  split at h
  · next ds heq =>
    obtain ⟨hhex, hlength⟩ := Bool.and_eq_true_iff.mp h
    exact ⟨ds, heq, hhex, of_decide_eq_true hlength⟩
  · cases h

theorem HexData.digits (data : HexData) : ∃ ds, data.text = '0' :: 'x' :: ds ∧
    ds.all isHexChar = true := by
  have h := data.valid
  unfold isHexData at h
  split at h
  · next ds heq => exact ⟨ds, heq, (Bool.and_eq_true_iff.mp h).1⟩
  · cases h

theorem all_drop {ds : List Char} (h : ds.all isHexChar = true) (k : Nat) :
    (ds.drop k).all isHexChar = true := by
  rw [List.all_eq_true] at h ⊢
  exact fun d hd => h d (List.mem_of_mem_drop hd)

theorem HexData.argument (data : HexData) : (data.text.drop 10).all isHexChar = true := by
  obtain ⟨ds, htext, hhex⟩ := data.digits
  rw [htext]
  exact all_drop hhex 8

theorem all_toLowerCase {ds : List Char} (h : ds.all isHexChar = true) :
    (toLowerCase ds).all isHexChar = true := by
  rw [List.all_eq_true] at h ⊢
  intro d hd
  obtain ⟨c, hc, rfl⟩ := List.mem_map.mp hd
  exact (hexChar_spec (h c hc)).2.2.1

theorem toLowerCase_idem {ds : List Char} (h : ds.all isHexChar = true) :
    toLowerCase (toLowerCase ds) = toLowerCase ds := by
  obtain ⟨-, hdigits⟩ := hexDigits_ofHexWord h
  rw [show toLowerCase ds = _ from hdigits.symm]
  exact toLower_hexDigits

/-! ## Words -/

theorem uintWord_eq {n : Int} (h : 0 ≤ n ∧ n ≤ maximumUint256) :
    uintWord (.bigint n) = .ok (hexDigits 64 n.toNat) := by
  have hlt : n.toNat < 16 ^ 64 := by
    have := h.2
    unfold maximumUint256 at this
    omega
  rw [uintWord, if_neg (by omega), leftpad_toDigits (by decide) hlt]

theorem addressWord_eq (token : Address) : addressWord (.string token.text) =
    .ok (List.replicate 24 '0' ++ toLowerCase (token.text.drop 2)) := by
  obtain ⟨ds, htext, -, hlength⟩ := token.digits
  have hword : List.leftpad 64 '0' (toLowerCase (token.text.drop 2)) =
      List.replicate 24 '0' ++ toLowerCase (token.text.drop 2) := by
    rw [List.leftpad, toLowerCase, List.length_map, htext]
    show List.replicate (64 - ds.length) '0' ++ _ = _
    rw [hlength]
  rw [addressWord, asAddress, dif_pos token.valid, ← hword]
  rfl

theorem parseUintWord_eq (hhex : value.all isHexChar = true) (hlength : value.length = 64) :
    parseUintWord value = .ok (ofHexWord value : Int) := by
  rw [parseUintWord, ensure, if_pos ⟨hhex, hlength⟩]
  rfl

theorem parseAddressWord_eq {token : Address} (h : parseAddressWord value = .ok token) :
    value = List.replicate 24 '0' ++ token.text.drop 2 := by
  rw [parseAddressWord, ensure] at h
  split at h
  · next hchecks =>
    rw [asAddress] at h
    split at h
    · cases h
      show value = List.replicate 24 '0' ++ value.drop 24
      rw [← hchecks.1, List.take_append_drop]
    · cases h
  · cases h

theorem parseAddressWord_ok {ds : List Char} (hzeros : value.take 24 = List.replicate 24 '0')
    (hds : value.drop 24 = ds) (hhex : ds.all isHexChar = true) (hlength : ds.length = 40) :
    ∃ token, parseAddressWord value = .ok token ∧ token.text = '0' :: 'x' :: ds := by
  subst hds
  have hvalid : isHexOf 20 ('0' :: 'x' :: value.drop 24) = true := by
    rw [isHexOf, hhex, hlength]
    rfl
  refine ⟨⟨_, hvalid⟩, ?_, rfl⟩
  rw [parseAddressWord, ensure, if_pos ⟨hzeros, hhex, hlength⟩]
  show asAddress _ = _
  rw [asAddress, dif_pos hvalid]

/-! ## Encoding and decoding -/

theorem word_hex (action : M3VaultCalldata) : action.word.all isHexChar = true := by
  cases action with
  | deposit => exact isHexChar_hexDigits
  | withdraw => exact isHexChar_hexDigits
  | rescueUntrackedToken token =>
      obtain ⟨ds, htext, hhex, -⟩ := token.digits
      rw [word, htext, List.all_append]
      show (_ && (toLowerCase ds).all isHexChar) = true
      rw [all_toLowerCase hhex]
      decide
  | close => rfl
  | rescueNative => rfl

theorem length_word (action : M3VaultCalldata) :
    action.word.length = 64 ∨ action.word.length = 0 := by
  cases action with
  | deposit => exact Or.inl (length_hexDigits 64 _)
  | withdraw => exact Or.inl (length_hexDigits 64 _)
  | rescueUntrackedToken token =>
      obtain ⟨ds, htext, -, hlength⟩ := token.digits
      refine Or.inl ?_
      rw [word, htext, List.length_append, List.length_replicate, toLowerCase, List.length_map]
      show 24 + ds.length = 64
      rw [hlength]
  | close => exact Or.inr rfl
  | rescueNative => exact Or.inr rfl

theorem text_valid (action : M3VaultCalldata) : isHexData action.text = true := by
  have hdigits : ∃ sel, selectorOf action.signature = '0' :: 'x' :: sel ∧
      sel.all isHexChar = true ∧ sel.length = 8 := by
    cases action <;> exact ⟨_, rfl, by decide, by decide⟩
  obtain ⟨sel, hsel, hhex, hlength⟩ := hdigits
  rw [M3VaultCalldata.text, hsel, List.cons_append, List.cons_append, isHexData, List.all_append,
    hhex, word_hex, List.length_append, hlength]
  rcases length_word action with hword | hword <;> rw [hword] <;> rfl

theorem encode_word {signature : String} {definition : FunctionDefinition} {type : AbiArgument}
    {value : Value} {word : List Char} (hfunction : functionDefinitions.lookup signature = some definition)
    (htype : definition.arguments = [type]) (hword : argumentWord (type, value) = .ok word) :
    encodeM3VaultCall signature [value] = asHexData (selectorOf signature ++ word) := by
  have hencoded : [(type, value)].mapM argumentWord = .ok [word] := by
    rw [List.mapM_cons, hword]
    rfl
  rw [encodeM3VaultCall, hfunction, selectorOf, hfunction]
  simp only [htype, List.zip_cons_cons, List.zip_nil_left, hencoded]
  show asHexData (_ ++ (word ++ [])) = _
  rw [List.append_nil]
  rfl

/-- A `uint256` amount and any address are encoded. -/
theorem encode_text (h : action.Encodable) :
    encodeM3VaultCall action.signature action.values = .ok ⟨action.text, text_valid action⟩ := by
  have hdata : asHexData action.text = .ok ⟨action.text, text_valid action⟩ :=
    dif_pos (text_valid action)
  rw [← hdata]
  cases action with
  | deposit n => exact encode_word rfl rfl (uintWord_eq h)
  | withdraw n => exact encode_word rfl rfl (uintWord_eq h)
  | close => rfl
  | rescueUntrackedToken token => exact encode_word rfl rfl (addressWord_eq token)
  | rescueNative => rfl

theorem toLowerCase_split : toLowerCase data.text =
    toLowerCase (data.text.take 10) ++ toLowerCase (data.text.drop 10) := by
  rw [toLowerCase, toLowerCase, toLowerCase, ← List.map_append, List.take_append_drop]

theorem length_argument {k : Nat} (h : data.text.length = 10 + k) :
    (data.text.drop 10).length = k := by
  rw [List.length_drop, h, Nat.add_sub_cancel_left]

/-- The word of an amount that is read is the digits it was read from. -/
theorem parseUintWord_argument {n : Int} (hlength : data.text.length = 74)
    (h : (parseUintWord (data.text.drop 10)).toOption = some n) :
    (0 ≤ n ∧ n ≤ maximumUint256) ∧ hexDigits 64 n.toNat = toLowerCase (data.text.drop 10) := by
  have hword := length_argument (k := 64) hlength
  rw [parseUintWord_eq data.argument hword] at h
  cases h
  obtain ⟨hlt, hdigits⟩ := hexDigits_ofHexWord data.argument
  rw [hword] at hlt hdigits
  refine ⟨⟨Int.natCast_nonneg _, ?_⟩, ?_⟩
  · unfold maximumUint256
    omega
  · rw [Int.toNat_natCast, hdigits, toLowerCase]

/-- What is decoded is an action whose calldata it is, up to the case of the letters. -/
theorem decode_text (h : decodeM3VaultCalldata data = some action) :
    action.Encodable ∧ toLowerCase data.text = action.text := by
  rw [decodeM3VaultCalldata] at h
  rw [toLowerCase_split]
  split at h
  · next hdeposit =>
    obtain ⟨n, hn, rfl⟩ := Option.map_eq_some_iff.mp h
    obtain ⟨hrange, hword⟩ := parseUintWord_argument hdeposit.2 hn
    exact ⟨hrange, by rw [hdeposit.1, ← hword]; rfl⟩
  split at h
  · next hwithdraw =>
    obtain ⟨n, hn, rfl⟩ := Option.map_eq_some_iff.mp h
    obtain ⟨hrange, hword⟩ := parseUintWord_argument hwithdraw.2 hn
    exact ⟨hrange, by rw [hwithdraw.1, ← hword]; rfl⟩
  split at h
  · next hclose =>
    cases h
    rw [hclose.1, List.drop_eq_nil_of_le (Nat.le_of_eq hclose.2)]
    exact ⟨trivial, rfl⟩
  split at h
  · next hrescue =>
    obtain ⟨token, htoken, rfl⟩ := Option.map_eq_some_iff.mp h
    have hword := parseAddressWord_eq (toOption_eq_some.mp htoken)
    refine ⟨trivial, ?_⟩
    rw [hrescue.1, hword, toLowerCase, List.map_append]
    rfl
  split at h
  · next hnative =>
    cases h
    rw [hnative.1, List.drop_eq_nil_of_le (Nat.le_of_eq hnative.2)]
    exact ⟨trivial, rfl⟩
  · cases h

/-- The selector, the word and the length of data that is the calldata of an action. -/
theorem parts_of_text (h : toLowerCase data.text = action.text) :
    toLowerCase (data.text.take 10) = selectorOf action.signature ∧
      toLowerCase (data.text.drop 10) = action.word ∧
      data.text.length = 10 + action.word.length := by
  have hlength : data.text.length = 10 + action.word.length := by
    have hlengths := congrArg List.length h
    rwa [toLowerCase, List.length_map, M3VaultCalldata.text, List.length_append,
      length_selector] at hlengths
  rw [toLowerCase_split, M3VaultCalldata.text] at h
  obtain ⟨hselector, hword⟩ := List.append_inj h (by
    rw [toLowerCase, List.length_map, List.length_take, length_selector, hlength]
    omega)
  exact ⟨hselector, hword, hlength⟩

theorem amount_of_word {n : Int} (hrange : 0 ≤ n ∧ n ≤ maximumUint256)
    (hword : toLowerCase (data.text.drop 10) = hexDigits 64 n.toNat) :
    (parseUintWord (data.text.drop 10)).toOption = some n := by
  have hlength : (data.text.drop 10).length = 64 := by
    have hlengths := congrArg List.length hword
    rwa [toLowerCase, List.length_map, length_hexDigits] at hlengths
  have hlt : n.toNat < 16 ^ 64 := by
    have := hrange.2
    unfold maximumUint256 at this
    omega
  have hvalue : ofHexWord (data.text.drop 10) = n.toNat := by
    rw [← ofHexWord_toLower data.argument]
    rw [toLowerCase] at hword
    rw [hword, ofHexWord_hexDigits, Nat.mod_eq_of_lt hlt]
  rw [parseUintWord_eq data.argument hlength, hvalue, Int.toNat_of_nonneg hrange.1]
  rfl

theorem toLower_eq_zero {d : Char} (hd : isHexChar d = true) (h : d.toLower = '0') : d = '0' := by
  generalize hm : d.toNat = m
  obtain rfl := char_of_toNat hm
  rcases hexChar_cases hd with hrange | hrange | hrange <;> rw [hm] at hrange <;>
    obtain ⟨hlow, hhigh⟩ := hrange <;> clear hd hm <;> interval_cases m <;>
    first | rfl | exact absurd h (by decide)

/-- A zero has no other case. -/
theorem zeros_of_toLowerCase {ds : List Char} {k : Nat} (hhex : ds.all isHexChar = true)
    (h : toLowerCase ds = List.replicate k '0') : ds = List.replicate k '0' := by
  rw [List.eq_replicate_iff] at h ⊢
  obtain ⟨hlength, hzeros⟩ := h
  rw [toLowerCase, List.length_map] at hlength
  refine ⟨hlength, fun d hd => ?_⟩
  exact toLower_eq_zero (List.all_eq_true.mp hhex d hd) (hzeros _ (List.mem_map_of_mem hd))

theorem token_of_word {token : Address}
    (hword : toLowerCase (data.text.drop 10) =
      List.replicate 24 '0' ++ toLowerCase (token.text.drop 2)) :
    ∃ back, parseAddressWord (data.text.drop 10) = .ok back ∧ sameAddress back token := by
  obtain ⟨ds, htext, -, hlength⟩ := token.digits
  rw [htext] at hword
  have hhigh : toLowerCase ((data.text.drop 10).take 24) = List.replicate 24 '0' := by
    rw [toLowerCase, List.map_take, show List.map _ _ = _ from hword]
    rfl
  have hlow : toLowerCase ((data.text.drop 10).drop 24) = toLowerCase ds := by
    rw [toLowerCase, List.map_drop, show List.map _ _ = _ from hword]
    rfl
  have hdigits : ((data.text.drop 10).drop 24).length = 40 := by
    have hlengths := congrArg List.length hlow
    rwa [toLowerCase, toLowerCase, List.length_map, List.length_map, hlength] at hlengths
  have hzeros : ((data.text.drop 10).take 24).all isHexChar = true := by
    have hargument := data.argument
    rw [List.all_eq_true] at hargument ⊢
    exact fun d hd => hargument d (List.mem_of_mem_take hd)
  obtain ⟨back, hback, hbackText⟩ := parseAddressWord_ok (zeros_of_toLowerCase hzeros hhigh) rfl
    (all_drop data.argument 24) hdigits
  refine ⟨back, hback, ?_⟩
  rw [sameAddress, hbackText, htext]
  show _ :: _ :: toLowerCase _ = _ :: _ :: toLowerCase _
  rw [hlow]

/-- Data that is the calldata of an action, up to the case of the letters, is decoded to it. -/
theorem decode_of_text (hencodable : action.Encodable) (h : toLowerCase data.text = action.text) :
    ∃ back, decodeM3VaultCalldata data = some back ∧ Same back action := by
  obtain ⟨hselector, hword, hlength⟩ := parts_of_text h
  rw [decodeM3VaultCalldata, hselector]
  -- the selectors differ, so the branches before the action's own are not taken
  have hother : ∀ (signature : String) (k : Nat), selectorOf action.signature ≠ selectorOf signature →
      ¬ (selectorOf action.signature = selectorOf signature ∧ data.text.length = k) :=
    fun signature k hne hboth => hne hboth.1
  cases action with
  | deposit n =>
      rw [if_pos ⟨rfl, by rw [hlength, word, length_hexDigits]⟩, amount_of_word hencodable hword]
      exact ⟨_, rfl, rfl⟩
  | withdraw n =>
      rw [if_neg (hother _ _ (by simp only [signature]; decide)),
        if_pos ⟨rfl, by rw [hlength, word, length_hexDigits]⟩, amount_of_word hencodable hword]
      exact ⟨_, rfl, rfl⟩
  | close =>
      rw [if_neg (hother _ _ (by decide)), if_neg (hother _ _ (by decide)), if_pos ⟨rfl, hlength⟩]
      exact ⟨_, rfl, trivial⟩
  | rescueUntrackedToken token =>
      obtain ⟨back, hback, hsame⟩ := token_of_word hword
      have hwide : data.text.length = 74 := by
        rw [hlength, (length_word (.rescueUntrackedToken token)).resolve_right]
        rw [word, List.length_append, List.length_replicate]
        omega
      rw [if_neg (hother _ _ (by simp only [signature]; decide)),
        if_neg (hother _ _ (by simp only [signature]; decide)),
        if_neg (hother _ _ (by simp only [signature]; decide)), if_pos ⟨rfl, hwide⟩, hback]
      exact ⟨_, rfl, hsame⟩
  | rescueNative =>
      rw [if_neg (hother _ _ (by decide)), if_neg (hother _ _ (by decide)),
        if_neg (hother _ _ (by decide)), if_neg (hother _ _ (by decide)), if_pos ⟨rfl, hlength⟩]
      exact ⟨_, rfl, trivial⟩

/-! ## The codec -/

theorem toLowerCase_text (action : M3VaultCalldata) : toLowerCase action.text = action.text := by
  have hselector : toLowerCase (selectorOf action.signature) = selectorOf action.signature := by
    cases action <;> simp only [signature] <;> decide
  have hword : toLowerCase action.word = action.word := by
    cases action with
    | deposit => exact toLower_hexDigits
    | withdraw => exact toLower_hexDigits
    | rescueUntrackedToken token =>
        obtain ⟨ds, htext, hhex, -⟩ := token.digits
        rw [word, htext, toLowerCase, List.map_append]
        show _ ++ toLowerCase (toLowerCase ds) = _ ++ toLowerCase ds
        rw [toLowerCase_idem hhex]
        rfl
    | close => rfl
    | rescueNative => rfl
  rw [M3VaultCalldata.text, toLowerCase, List.map_append]
  exact congrArg₂ _ hselector hword

/-- Every action is encoded and decoded to itself; what is decoded is encoded to the same
data, up to the case of the letters; and only the same data decodes to the same action. -/
theorem vault_calldata_codec :
    (∀ action : M3VaultCalldata, action.Encodable → ∃ data back,
      encodeM3VaultCall action.signature action.values = .ok data ∧
      decodeM3VaultCalldata data = some back ∧ Same back action) ∧
    (∀ data action, decodeM3VaultCalldata data = some action → ∃ again,
      encodeM3VaultCall action.signature action.values = .ok again ∧
      again.text = toLowerCase data.text) ∧
    (∀ data other action back, decodeM3VaultCalldata data = some action →
      decodeM3VaultCalldata other = some back → Same action back →
      toLowerCase data.text = toLowerCase other.text) := by
  refine ⟨fun action hencodable => ?_, fun data action h => ?_, fun data other action back h hb hsame => ?_⟩
  · obtain ⟨back, hback, hsame⟩ := @decode_of_text ⟨action.text, text_valid action⟩ action hencodable
      (toLowerCase_text action)
    exact ⟨_, back, encode_text hencodable, hback, hsame⟩
  · obtain ⟨hencodable, htext⟩ := decode_text h
    exact ⟨_, encode_text hencodable, htext.symm⟩
  · rw [(decode_text h).2, (decode_text hb).2, hsame.text]

end VaultAbi
end AlphaForge
