/-
The text that signatures are made over, `security-model/index.ts` `canonicalJson`.

Strings are code units, so a surrogate may stand alone in them, and `JSON.stringify`
writes it as an escape.  `localeCompare` is the caller's.  Zero has one number here,
whose text is `0` whatever its sign.
-/
import AlphaForge.Data.Canonical
import AlphaForge.Security.Permit
import AlphaForge.Text.Utf16

namespace AlphaForge
namespace CanonicalJson

open Security (Failure check)
open Text

/-- `otherNumber` is a fraction, an infinity or no number, `record` a plain object with its
own entries, and `unsupported` everything else that is no JSON value. -/
inductive Value where
  | null
  | bool (b : Bool)
  | number (n : Int)
  | otherNumber
  | string (s : CodeUnits)
  | array (items : List Value)
  | record (fields : List (CodeUnits × Value))
  | unsupported

/-! ## Text -/

def escapePoint : CodePoint → List Char
  | .char d => Json.escape d
  | .lone u _ => '\\' :: 'u' :: hexDigits 4 u.toNat

/-- `JSON.stringify` of a string. -/
def quote (s : CodeUnits) : List Char := '"' :: ((codePoints s).flatMap escapePoint ++ ['"'])

def invalidNumber : Failure :=
  .securityModelError "INVALID_CANONICAL_NUMBER" "Signed numeric fields must be safe integers"

def invalidValue : Failure :=
  .securityModelError "INVALID_CANONICAL_VALUE" "Payload contains an unsupported value"

section Source

variable (localeCompare : CodeUnits → CodeUnits → Ordering)

/-- The entries in the order of their keys, and entries whose keys compare equal as they came. -/
def sortEntries {α : Type} (entries : List (CodeUnits × α)) : List (CodeUnits × α) :=
  entries.insertionSort (fun left right => (localeCompare left.1 right.1).isLE = true)

def entryText (e : CodeUnits × List Char) : List Char := quote e.1 ++ ':' :: e.2

mutual

/-- The items of a record are written in the order of keys, so that the first failure in
this order is the one thrown. -/
def canonicalJson : Value → Except Failure (List Char)
  | .null => .ok ['n', 'u', 'l', 'l']
  | .bool b => .ok (if b then ['t', 'r', 'u', 'e'] else ['f', 'a', 'l', 's', 'e'])
  | .string s => .ok (quote s)
  | .number n =>
      if -Json.maxSafeInteger ≤ n ∧ n ≤ Json.maxSafeInteger then .ok (toString n).toList
      else .error invalidNumber
  | .otherNumber => .error invalidNumber
  | .array items => do
      let texts ← canonicalItems items
      return '[' :: (Json.commas texts ++ [']'])
  | .record fields => do
      let texts ← (sortEntries localeCompare (canonicalEntries fields)).mapM fun e => do
        return entryText (e.1, ← e.2)
      return '{' :: (Json.commas texts ++ ['}'])
  | .unsupported => .error invalidValue

def canonicalItems : List Value → Except Failure (List (List Char))
  | [] => .ok []
  | v :: rest => do return (← canonicalJson v) :: (← canonicalItems rest)

def canonicalEntries : List (CodeUnits × Value) → List (CodeUnits × Except Failure (List Char))
  | [] => []
  | (k, v) :: rest => (k, canonicalJson v) :: canonicalEntries rest

end

/-- The digest of the text; `sha256` is the caller's. -/
def hashPayload (sha256 : List Char → String) (payload : Value) : Except Failure String := do
  return sha256 (← canonicalJson localeCompare payload)

/-- The value has a text. -/
def Accepted (v : Value) : Prop := ∃ text, canonicalJson localeCompare v = .ok text

end Source

/-! ## Values up to the order of keys -/

mutual

/-- The same JSON value, whatever the order of keys. -/
def Same : Value → Value → Prop
  | .array items, w => ∃ items', w = .array items' ∧ SameItems items items'
  | .record fields, w =>
      ∃ fields' fields'', w = .record fields' ∧ fields''.Perm fields' ∧ SameFields fields fields''
  | .null, w => w = .null
  | .bool b, w => w = .bool b
  | .number n, w => w = .number n
  | .otherNumber, w => w = .otherNumber
  | .string s, w => w = .string s
  | .unsupported, w => w = .unsupported

def SameItems : List Value → List Value → Prop
  | [], items => items = []
  | v :: rest, items => ∃ w rest', items = w :: rest' ∧ Same v w ∧ SameItems rest rest'

def SameFields : List (CodeUnits × Value) → List (CodeUnits × Value) → Prop
  | [], fields => fields = []
  | (k, v) :: rest, fields =>
      ∃ w rest', fields = (k, w) :: rest' ∧ Same v w ∧ SameFields rest rest'

end

section Separated

variable (localeCompare : CodeUnits → CodeUnits → Ordering)

mutual

/-- The keys of every record of the value are told apart. -/
def Separated : Value → Prop
  | .array items => SeparatedItems items
  | .record fields =>
      fields.Pairwise (fun a b => localeCompare a.1 b.1 ≠ .eq) ∧ SeparatedFields fields
  | .null | .bool _ | .number _ | .otherNumber | .string _ | .unsupported => True

def SeparatedItems : List Value → Prop
  | [] => True
  | v :: rest => Separated v ∧ SeparatedItems rest

def SeparatedFields : List (CodeUnits × Value) → Prop
  | [] => True
  | (_, v) :: rest => Separated v ∧ SeparatedFields rest

end

end Separated

theorem induction {P : Value → Prop} (hnull : P .null) (hbool : ∀ b, P (.bool b))
    (hnumber : ∀ n, P (.number n)) (hother : P .otherNumber) (hstring : ∀ s, P (.string s))
    (harray : ∀ items, (∀ v ∈ items, P v) → P (.array items))
    (hrecord : ∀ fields, (∀ e ∈ fields, P e.2) → P (.record fields))
    (hunsupported : P .unsupported) (v : Value) : P v :=
  @Value.rec P (fun items => ∀ v ∈ items, P v) (fun fields => ∀ e ∈ fields, P e.2)
    (fun e => P e.2) hnull hbool hnumber hother hstring harray hrecord hunsupported
    (fun _ h => absurd h List.not_mem_nil)
    (fun _ _ hv hrest => List.forall_mem_cons.mpr ⟨hv, hrest⟩)
    (fun _ h => absurd h List.not_mem_nil)
    (fun _ _ he hrest => List.forall_mem_cons.mpr ⟨he, hrest⟩)
    (fun _ _ hv => hv) v

/-! ## Strings -/

theorem lone_toNat {u : UInt16} (h : isHighSurrogate u ∨ isLowSurrogate u) : 0x20 ≤ u.toNat := by
  rcases h with ⟨hu, _⟩ | ⟨hu, _⟩ <;> omega

/-- The escape of a surrogate is that of no character. -/
theorem escape_ne_lone {d : Char} {u : UInt16} (h : isHighSurrogate u ∨ isLowSurrogate u)
    (x y : List Char) : Json.escape d ++ x ≠ '\\' :: 'u' :: hexDigits 4 u.toNat ++ y := by
  have hlone := lone_toNat h
  have hlt := u.toNat_lt
  intro heq
  rcases Json.escape_cases d with ⟨c, hd, hc⟩ | ⟨hd, hlow⟩ | ⟨hd, hslash, _⟩ <;>
    rw [hd] at heq <;>
    simp only [List.cons_append, List.nil_append, List.cons.injEq, true_and] at heq
  · exact Json.shortEscape_ne hc heq.1
  · obtain ⟨hdigits, _⟩ := List.append_inj heq (by rw [length_hexDigits, length_hexDigits])
    have hcode := hexDigits_injective (by omega) (by omega) hdigits
    omega
  · exact hslash heq.1

theorem escapePoint_append (c e : CodePoint) (x y : List Char)
    (h : escapePoint c ++ x = escapePoint e ++ y) : c = e ∧ x = y := by
  cases c with
  | char c =>
      cases e with
      | char e =>
          obtain ⟨rfl, hxy⟩ := Json.escape_append h
          exact ⟨rfl, hxy⟩
      | lone v hv => exact absurd h (escape_ne_lone hv x y)
  | lone u hu =>
      cases e with
      | char e => exact absurd h.symm (escape_ne_lone hu y x)
      | lone v hv =>
          have hut := u.toNat_lt
          have hvt := v.toNat_lt
          simp only [escapePoint, List.cons_append, List.cons.injEq, true_and] at h
          obtain ⟨hdigits, hxy⟩ := List.append_inj h (by rw [length_hexDigits, length_hexDigits])
          obtain rfl := UInt16.toNat_inj.mp (hexDigits_injective (by omega) (by omega) hdigits)
          exact ⟨rfl, hxy⟩

theorem escapePoint_ne_quote (c : CodePoint) (x y : List Char) : escapePoint c ++ x ≠ '"' :: y := by
  cases c with
  | char c => exact Json.escape_ne_quote c x y
  | lone u hu =>
      intro h
      exact absurd (List.cons.inj h).1 (by decide)

/-- A string is read back from its literal. -/
theorem quote_append {s t : CodeUnits} {x y : List Char} (h : quote s ++ x = quote t ++ y) :
    s = t ∧ x = y := by
  simp only [quote, List.cons_append, List.append_assoc, List.nil_append, List.cons.injEq,
    true_and] at h
  obtain ⟨hpoints, hxy⟩ := Json.quoted_append escapePoint_append escapePoint_ne_quote h
  exact ⟨codePoints_injective hpoints, hxy⟩

/-! ## Accepted values -/

section Accepted

variable (localeCompare : CodeUnits → CodeUnits → Ordering)

/-- The text of an accepted value. -/
def text (v : Value) : List Char := (canonicalJson localeCompare v).toOption.getD []

variable {localeCompare}

theorem text_eq {v : Value} {t : List Char} (h : canonicalJson localeCompare v = .ok t) :
    text localeCompare v = t := by
  rw [text, h]
  rfl

theorem Accepted.text {v : Value} (h : Accepted localeCompare v) :
    canonicalJson localeCompare v = .ok (text localeCompare v) := by
  obtain ⟨t, ht⟩ := h
  rw [ht, text_eq ht]

theorem canonicalItems_eq (items : List Value) :
    canonicalItems localeCompare items = items.mapM (canonicalJson localeCompare) := by
  induction items with
  | nil => rfl
  | cons v rest ih => rw [canonicalItems, ih, List.mapM_cons]

theorem canonicalEntries_eq (fields : List (CodeUnits × Value)) :
    canonicalEntries localeCompare fields =
      fields.map (fun e => (e.1, canonicalJson localeCompare e.2)) := by
  induction fields with
  | nil => rfl
  | cons e rest ih =>
      obtain ⟨k, v⟩ := e
      rw [canonicalEntries, ih, List.map_cons]

theorem sortEntries_map {α β : Type} (f : α → β) (entries : List (CodeUnits × α)) :
    sortEntries localeCompare (entries.map fun e => (e.1, f e.2)) =
      (sortEntries localeCompare entries).map fun e => (e.1, f e.2) := by
  have hsort : (sortEntries localeCompare entries).map (fun e => (e.1, f e.2)) =
      sortEntries localeCompare (entries.map fun e => (e.1, f e.2)) :=
    List.map_insertionSort _ _ _ _ (fun _ _ _ _ => Iff.rfl)
  exact hsort.symm

theorem mem_sortEntries {α : Type} {e : CodeUnits × α} {entries : List (CodeUnits × α)} :
    e ∈ sortEntries localeCompare entries ↔ e ∈ entries :=
  List.mem_insertionSort _

/-- The text of a field of an accepted record. -/
def fieldText (localeCompare : CodeUnits → CodeUnits → Ordering) (e : CodeUnits × Value) :
    List Char :=
  entryText (e.1, text localeCompare e.2)

theorem accepted_array {items : List Value} (h : Accepted localeCompare (.array items)) :
    (∀ v ∈ items, Accepted localeCompare v) ∧
      text localeCompare (.array items) =
        '[' :: (Json.commas (items.map (text localeCompare)) ++ [']']) := by
  obtain ⟨t, ht⟩ := h
  have htext := text_eq ht
  rw [canonicalJson, canonicalItems_eq, Evm.bind_eq_ok] at ht
  obtain ⟨texts, htexts, hpure⟩ := ht
  refine ⟨Evm.mapM_isOk.mp ⟨texts, htexts⟩, ?_⟩
  rw [Evm.pure_eq_ok] at hpure
  rw [htext, ← hpure, Evm.mapM_eq_map (fun v _ _ hv => text_eq hv) htexts]

theorem accepted_record {fields : List (CodeUnits × Value)}
    (h : Accepted localeCompare (.record fields)) :
    (∀ e ∈ fields, Accepted localeCompare e.2) ∧
      text localeCompare (.record fields) =
        '{' :: (Json.commas ((sortEntries localeCompare fields).map (fieldText localeCompare)) ++
          ['}']) := by
  obtain ⟨t, ht⟩ := h
  have htext := text_eq ht
  rw [canonicalJson, canonicalEntries_eq, sortEntries_map, List.mapM_map, Evm.bind_eq_ok] at ht
  obtain ⟨texts, htexts, hpure⟩ := ht
  rw [Evm.pure_eq_ok] at hpure
  constructor
  · intro e he
    obtain ⟨s, hs⟩ := Evm.mapM_isOk.mp ⟨texts, htexts⟩ e (mem_sortEntries.mpr he)
    simp only [Function.comp_apply, Evm.bind_eq_ok] at hs
    obtain ⟨item, hitem, -⟩ := hs
    exact ⟨item, hitem⟩
  · have hfield : ∀ e ∈ sortEntries localeCompare fields, ∀ s,
        (do return entryText (e.1, ← canonicalJson localeCompare e.2) : Except Failure _) = .ok s →
        fieldText localeCompare e = s := by
      intro e _ s hs
      simp only [Evm.bind_eq_ok, Evm.pure_eq_ok] at hs
      obtain ⟨item, hitem, rfl⟩ := hs
      rw [fieldText, text_eq hitem]
    rw [htext, ← hpure, Evm.mapM_eq_map hfield htexts]

end Accepted

/-! ## Reading back -/

/-- The kind of value that a first character tells. -/
def kind : Value → Nat
  | .null => 0
  | .bool b => if b then 1 else 2
  | .string _ => 3
  | .array _ => 4
  | .record _ => 5
  | .number _ => 7
  | .otherNumber | .unsupported => 9

/-- The second value is of the first one's kind. -/
def SameKind : Value → Value → Prop
  | .null, w => w = .null
  | .bool b, w => w = .bool b
  | .number _, w => ∃ n, w = .number n
  | .string _, w => ∃ s, w = .string s
  | .array _, w => ∃ items, w = .array items
  | .record _, w => ∃ fields, w = .record fields
  | .otherNumber, _ | .unsupported, _ => True

theorem sameKind {v w : Value} (h : kind v = kind w) : SameKind v w := by
  cases v with
  | bool b => cases b <;> cases w <;> simp_all [kind, SameKind]
  | _ =>
      cases w with
      | bool b => cases b <;> simp_all [kind]
      | _ => simp_all [kind, SameKind]

section Read

variable {localeCompare : CodeUnits → CodeUnits → Ordering}

theorem accepted_kind {v : Value} (h : Accepted localeCompare v) : kind v ≤ 7 := by
  obtain ⟨t, ht⟩ := h
  cases v with
  | bool b => cases b <;> decide
  | otherNumber | unsupported => cases ht
  | _ => simp [kind]

theorem number_text {n : Int} (h : Accepted localeCompare (.number n)) :
    text localeCompare (.number n) = (toString n).toList := by
  obtain ⟨t, ht⟩ := h
  rw [text_eq ht]
  by_cases hsafe : -Json.maxSafeInteger ≤ n ∧ n ≤ Json.maxSafeInteger
  · have hok : canonicalJson localeCompare (.number n) = .ok (toString n).toList := if_pos hsafe
    rw [hok] at ht
    exact (Except.ok.inj ht).symm
  · have herror : canonicalJson localeCompare (.number n) = .error invalidNumber := if_neg hsafe
    rw [herror] at ht
    cases ht

theorem text_cons {v : Value} (h : Accepted localeCompare v) :
    ∃ d rest, text localeCompare v = d :: rest ∧ Json.startKind d = kind v := by
  cases v with
  | null => exact ⟨'n', _, text_eq rfl, rfl⟩
  | bool b => cases b with
    | true => exact ⟨'t', _, text_eq rfl, rfl⟩
    | false => exact ⟨'f', _, text_eq rfl, rfl⟩
  | string s => exact ⟨'"', _, text_eq rfl, rfl⟩
  | array items => exact ⟨'[', _, (accepted_array h).2, rfl⟩
  | record fields => exact ⟨'{', _, (accepted_record h).2, rfl⟩
  | number n =>
      obtain ⟨d, rest, hrepr, hdigit⟩ := Json.repr_cons n.natAbs
      rw [number_text h, Json.toString_int]
      split
      · exact ⟨'-', _, rfl, rfl⟩
      · exact ⟨d, rest, hrepr, Json.startKind_digit hdigit⟩
  | otherNumber => exact absurd (accepted_kind h) (by decide)
  | unsupported => exact absurd (accepted_kind h) (by decide)

theorem kind_eq {v w : Value} (hv : Accepted localeCompare v) (hw : Accepted localeCompare w)
    {x y : List Char} (h : text localeCompare v ++ x = text localeCompare w ++ y) :
    kind v = kind w := by
  obtain ⟨d, rest, hvtext, hd⟩ := text_cons hv
  obtain ⟨d', rest', hwtext, hd'⟩ := text_cons hw
  rw [hvtext, hwtext, List.cons_append, List.cons_append, List.cons.injEq] at h
  rw [← hd, ← hd', h.1]

theorem text_ne {v : Value} (hv : Accepted localeCompare v) {d : Char}
    (hd : Json.startKind d = 8) (x y : List Char) : text localeCompare v ++ x ≠ d :: y := by
  intro h
  have hkind := accepted_kind hv
  obtain ⟨d', rest, hvtext, hd'⟩ := text_cons hv
  rw [hvtext, List.cons_append, List.cons.injEq] at h
  rw [← hd', h.1, hd] at hkind
  omega

theorem sameItems_iff {items items' : List Value} :
    SameItems items items' ↔ List.Forall₂ Same items items' := by
  induction items generalizing items' with
  | nil =>
      rw [SameItems, List.forall₂_nil_left_iff]
  | cons v rest ih =>
      rw [SameItems, List.forall₂_cons_left_iff]
      simp only [ih]
      constructor
      · rintro ⟨w, rest', rfl, hv, hrest⟩
        exact ⟨w, rest', hv, hrest, rfl⟩
      · rintro ⟨w, rest', hv, hrest, rfl⟩
        exact ⟨w, rest', rfl, hv, hrest⟩

/-- The same field. -/
def SameField (e e' : CodeUnits × Value) : Prop := e.1 = e'.1 ∧ Same e.2 e'.2

theorem sameFields_iff {fields fields' : List (CodeUnits × Value)} :
    SameFields fields fields' ↔ List.Forall₂ SameField fields fields' := by
  induction fields generalizing fields' with
  | nil =>
      rw [SameFields, List.forall₂_nil_left_iff]
  | cons e rest ih =>
      obtain ⟨k, v⟩ := e
      rw [SameFields, List.forall₂_cons_left_iff]
      simp only [ih]
      constructor
      · rintro ⟨w, rest', rfl, hv, hrest⟩
        exact ⟨(k, w), rest', ⟨rfl, hv⟩, hrest, rfl⟩
      · rintro ⟨⟨k', w⟩, rest', ⟨rfl, hv⟩, hrest, rfl⟩
        exact ⟨w, rest', rfl, hv, hrest⟩

theorem fieldText_append {e e' : CodeUnits × Value} {x y : List Char}
    (hread : text localeCompare e.2 ++ x = text localeCompare e'.2 ++ y → Same e.2 e'.2 ∧ x = y)
    (h : fieldText localeCompare e ++ x = fieldText localeCompare e' ++ y) :
    SameField e e' ∧ x = y := by
  rw [fieldText, fieldText, entryText, entryText, List.append_assoc, List.append_assoc] at h
  obtain ⟨hkey, hvalue⟩ := quote_append h
  rw [List.cons_append, List.cons_append, List.cons.injEq] at hvalue
  obtain ⟨hsame, hxy⟩ := hread hvalue.2
  exact ⟨⟨hkey, hsame⟩, hxy⟩

/-- An accepted value is read back from its text, up to the order of keys. -/
theorem text_append (v w : Value) (hv : Accepted localeCompare v) (hw : Accepted localeCompare w)
    {x y : List Char} (hx : Json.Ends x) (hy : Json.Ends y)
    (h : text localeCompare v ++ x = text localeCompare w ++ y) : Same v w ∧ x = y := by
  have hkind := sameKind (kind_eq hv hw h)
  induction v using induction generalizing w x y with
  | hnull =>
      obtain rfl : w = .null := hkind
      exact ⟨by rw [Same], List.append_cancel_left h⟩
  | hbool b =>
      obtain rfl : w = .bool b := hkind
      exact ⟨by rw [Same], List.append_cancel_left h⟩
  | hnumber n =>
      obtain ⟨m, rfl⟩ : ∃ m, w = .number m := hkind
      rw [number_text hv, number_text hw] at h
      obtain ⟨rfl, hxy⟩ := Json.int_append hx hy h
      exact ⟨by rw [Same], hxy⟩
  | hother =>
      exact absurd (accepted_kind hv) (by decide)
  | hstring s =>
      obtain ⟨t, rfl⟩ : ∃ t, w = .string t := hkind
      rw [text_eq (show canonicalJson localeCompare (.string s) = .ok (quote s) from rfl),
        text_eq (show canonicalJson localeCompare (.string t) = .ok (quote t) from rfl)] at h
      obtain ⟨rfl, hxy⟩ := quote_append h
      exact ⟨by rw [Same], hxy⟩
  | harray items ih =>
      obtain ⟨items', rfl⟩ : ∃ items', w = .array items' := hkind
      obtain ⟨hitems, htext⟩ := accepted_array hv
      obtain ⟨hitems', htext'⟩ := accepted_array hw
      rw [htext, htext', List.cons_append, List.cons_append, List.append_assoc,
        List.append_assoc, List.cons.injEq] at h
      obtain ⟨hsame, hxy⟩ := Json.commas_append (R := Same) (by decide) rfl
        (fun a ha b hb x y hx hy h => ih a ha b (hitems a ha) (hitems' b hb) hx hy h
          (sameKind (kind_eq (hitems a ha) (hitems' b hb) h)))
        (fun a ha => by
          rcases List.mem_append.mp ha with ha | hb
          · exact text_ne (hitems a ha) rfl
          · exact text_ne (hitems' a hb) rfl) h.2
      exact ⟨by rw [Same]; exact ⟨items', rfl, sameItems_iff.mpr hsame⟩, hxy⟩
  | hrecord fields ih =>
      obtain ⟨fields', rfl⟩ : ∃ fields', w = .record fields' := hkind
      obtain ⟨hfields, htext⟩ := accepted_record hv
      obtain ⟨hfields', htext'⟩ := accepted_record hw
      rw [htext, htext', List.cons_append, List.cons_append, List.append_assoc,
        List.append_assoc, List.cons.injEq] at h
      obtain ⟨hsame, hxy⟩ := Json.commas_append (R := SameField) (by decide) rfl
        (fun e he e' he' x y hx hy h => fieldText_append (fun hvalue =>
          ih e (mem_sortEntries.mp he) e'.2 (hfields e (mem_sortEntries.mp he))
            (hfields' e' (mem_sortEntries.mp he')) hx hy hvalue
            (sameKind (kind_eq (hfields e (mem_sortEntries.mp he))
              (hfields' e' (mem_sortEntries.mp he')) hvalue))) h)
        (fun e _ x y h => by simp [fieldText, entryText, quote] at h) h.2
      obtain ⟨fields₁, hsame₁, hperm₁⟩ :=
        List.perm_comp_forall₂ (List.perm_insertionSort _ fields).symm hsame
      refine ⟨?_, hxy⟩
      rw [Same]
      exact ⟨fields', fields₁, rfl, hperm₁.trans (List.perm_insertionSort _ fields'),
        sameFields_iff.mpr hsame₁⟩
  | hunsupported =>
      exact absurd (accepted_kind hv) (by decide)

end Read

/-! ## The order of keys -/

section Separated

variable (localeCompare : CodeUnits → CodeUnits → Ordering)

theorem separatedItems_iff {items : List Value} :
    SeparatedItems localeCompare items ↔ ∀ v ∈ items, Separated localeCompare v := by
  induction items with
  | nil => simp [SeparatedItems]
  | cons v rest ih => rw [SeparatedItems, ih, List.forall_mem_cons]

theorem separatedFields_iff {fields : List (CodeUnits × Value)} :
    SeparatedFields localeCompare fields ↔ ∀ e ∈ fields, Separated localeCompare e.2 := by
  induction fields with
  | nil => simp [SeparatedFields]
  | cons e rest ih =>
      obtain ⟨k, v⟩ := e
      rw [SeparatedFields, ih, List.forall_mem_cons]

variable {localeCompare}
variable [Std.TransCmp localeCompare]

/-- The order of keys does not matter for the text, if they are told apart. -/
theorem text_of_same (v w : Value) (hsame : Same v w) (hv : Accepted localeCompare v)
    (hw : Accepted localeCompare w) (hkeys : Separated localeCompare v) :
    text localeCompare v = text localeCompare w := by
  induction v using induction generalizing w with
  | harray items ih =>
      rw [Same] at hsame
      obtain ⟨items', rfl, hitems⟩ := hsame
      rw [Separated, separatedItems_iff] at hkeys
      obtain ⟨hv, htext⟩ := accepted_array hv
      obtain ⟨hw, htext'⟩ := accepted_array hw
      have htexts : items.map (text localeCompare) = items'.map (text localeCompare) :=
        Json.map_eq_of_forall₂ (sameItems_iff.mp hitems) fun v hmem w hmem' hvw =>
          ih v hmem w hvw (hv v hmem) (hw w hmem') (hkeys v hmem)
      rw [htext, htext', htexts]
  | hrecord fields ih =>
      rw [Same] at hsame
      obtain ⟨fields', fields₁, rfl, hperm, hfields⟩ := hsame
      rw [Separated, separatedFields_iff] at hkeys
      obtain ⟨hv, htext⟩ := accepted_record hv
      obtain ⟨hw, htext'⟩ := accepted_record hw
      have htexts : fields.map (fun e => (e.1, text localeCompare e.2)) =
          fields₁.map (fun e => (e.1, text localeCompare e.2)) := by
        refine Json.map_eq_of_forall₂ (sameFields_iff.mp hfields) fun e hmem e' hmem' hee' => ?_
        rw [hee'.1, ih e hmem e'.2 hee'.2 (hv e hmem) (hw e' (hperm.mem_iff.mp hmem'))
          (hkeys.2 e hmem)]
      have hsort : sortEntries localeCompare (fields.map fun e => (e.1, text localeCompare e.2)) =
          sortEntries localeCompare (fields'.map fun e => (e.1, text localeCompare e.2)) := by
        refine Json.insertionSort_perm localeCompare (fun e : CodeUnits × List Char => e.1) ?_ ?_
        · rw [htexts]
          exact hperm.map _
        · rw [List.pairwise_map]
          exact hkeys.1
      have hmap : ∀ entries : List (CodeUnits × Value),
          (sortEntries localeCompare entries).map (fieldText localeCompare) =
            (sortEntries localeCompare
              (entries.map fun e => (e.1, text localeCompare e.2))).map entryText := by
        intro entries
        rw [sortEntries_map, List.map_map]
        rfl
      rw [htext, htext', hmap, hmap, hsort]
  | hnull => rw [Same] at hsame; rw [hsame]
  | hbool b => rw [Same] at hsame; rw [hsame]
  | hnumber n => rw [Same] at hsame; rw [hsame]
  | hother => rw [Same] at hsame; rw [hsame]
  | hstring s => rw [Same] at hsame; rw [hsame]
  | hunsupported => rw [Same] at hsame; rw [hsame]

/-- Accepted values have one text exactly when they are the same up to the order of keys. -/
theorem canonicalJson_binds {a b : Value} (ha : Accepted localeCompare a)
    (hb : Accepted localeCompare b) (hkeys : Separated localeCompare a) :
    canonicalJson localeCompare a = canonicalJson localeCompare b ↔ Same a b := by
  rw [ha.text, hb.text, Except.ok.injEq]
  constructor
  · intro htext
    have hends : Json.Ends [] := fun d hd => by cases hd
    exact (text_append a b ha hb (x := []) (y := []) hends hends (by rw [htext])).1
  · intro hsame
    exact text_of_same a b hsame ha hb hkeys

end Separated

/-- A policy with one limit and one list, whose second item is half of a pair. -/
def policy : Value := .record [([108], .number 5), ([97], .array [.null, .string [0xD83D]])]

/-- The same policy with its keys in the other order. -/
def turnedPolicy : Value := .record [([97], .array [.null, .string [0xD83D]]), ([108], .number 5)]

theorem canonicalJson_binds_policy :
    canonicalJson compare policy = canonicalJson compare turnedPolicy ↔ Same policy turnedPolicy :=
  canonicalJson_binds ⟨_, rfl⟩ ⟨_, rfl⟩
    (by simp [policy, Separated, SeparatedItems, SeparatedFields])

end CanonicalJson
end AlphaForge
