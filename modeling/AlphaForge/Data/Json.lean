/-
JSON values, and the text with sorted keys that they are compared by.

Text is represented by the value it spells, with the keys of every object in
order: two values have the same text exactly when these are equal.  Keys are
ordered by their UTF-16 code units.  `byteLength` is the length of the text, with
its escapes.
-/
import Mathlib.Algebra.Ring.Int.Defs
import Mathlib.Algebra.Ring.Nat
import Mathlib.Data.List.Lex
import Mathlib.Data.List.Sort

/-- `unsupported` stands for everything that has no JSON text. -/
inductive Json where
  | null
  | bool (b : Bool)
  | number (n : Int)
  | string (s : String)
  | array (items : List Json)
  | object (fields : List (String × Json))
  | unsupported

namespace Json

mutual

def decEq : (a b : Json) → Decidable (a = b)
  | .null, .null => isTrue rfl
  | .bool a, .bool b => decidable_of_iff (a = b) (by rw [Json.bool.injEq])
  | .number a, .number b => decidable_of_iff (a = b) (by rw [Json.number.injEq])
  | .string a, .string b => decidable_of_iff (a = b) (by rw [Json.string.injEq])
  | .array a, .array b =>
      @decidable_of_iff _ (a = b) (by rw [Json.array.injEq]) (decEqItems a b)
  | .object a, .object b =>
      @decidable_of_iff _ (a = b) (by rw [Json.object.injEq]) (decEqFields a b)
  | .unsupported, .unsupported => isTrue rfl
  | .null, .bool _ | .null, .number _ | .null, .string _ | .null, .array _ | .null, .object _
  | .null, .unsupported | .bool _, .null | .bool _, .number _ | .bool _, .string _
  | .bool _, .array _ | .bool _, .object _ | .bool _, .unsupported | .number _, .null
  | .number _, .bool _ | .number _, .string _ | .number _, .array _ | .number _, .object _
  | .number _, .unsupported | .string _, .null | .string _, .bool _ | .string _, .number _
  | .string _, .array _ | .string _, .object _ | .string _, .unsupported | .array _, .null
  | .array _, .bool _ | .array _, .number _ | .array _, .string _ | .array _, .object _
  | .array _, .unsupported | .object _, .null | .object _, .bool _ | .object _, .number _
  | .object _, .string _ | .object _, .array _ | .object _, .unsupported | .unsupported, .null
  | .unsupported, .bool _ | .unsupported, .number _ | .unsupported, .string _
  | .unsupported, .array _ | .unsupported, .object _ => isFalse nofun

def decEqItems : (a b : List Json) → Decidable (a = b)
  | [], [] => isTrue rfl
  | [], _ :: _ | _ :: _, [] => isFalse nofun
  | v :: a, w :: b =>
      @decidable_of_iff _ (v = w ∧ a = b) (by rw [List.cons.injEq])
        (@instDecidableAnd _ _ (decEq v w) (decEqItems a b))

def decEqFields : (a b : List (String × Json)) → Decidable (a = b)
  | [], [] => isTrue rfl
  | [], _ :: _ | _ :: _, [] => isFalse nofun
  | (j, v) :: a, (k, w) :: b =>
      @decidable_of_iff _ (j = k ∧ v = w ∧ a = b) (by rw [List.cons.injEq, Prod.mk.injEq, and_assoc])
        (@instDecidableAnd _ _ _ (@instDecidableAnd _ _ (decEq v w) (decEqFields a b)))

end

instance : DecidableEq Json := decEq

/-! ## Text -/

def utf16 (s : String) : List Nat :=
  s.toList.flatMap fun d =>
    if d.toNat < 0x10000 then [d.toNat]
    else [0xD800 + (d.toNat - 0x10000) / 0x400, 0xDC00 + (d.toNat - 0x10000) % 0x400]

/-- The key of `a` does not come after that of `b`, by code units. -/
def keyOrder (a b : String × Json) : Prop := ¬ List.Lex (· < ·) (utf16 b.1) (utf16 a.1)

instance : DecidableRel keyOrder := fun a b => by unfold keyOrder; infer_instance

def sortKeys (fields : List (String × Json)) : List (String × Json) :=
  fields.insertionSort keyOrder

def maxSafeInteger : Int := 2 ^ 53 - 1

mutual

/-- The text of a value, if it has one. -/
def text : Json → Option Json
  | .null => some .null
  | .bool b => some (.bool b)
  | .number n => if -maxSafeInteger ≤ n ∧ n ≤ maxSafeInteger then some (.number n) else none
  | .string s => some (.string s)
  | .array items => do return .array (← textItems items)
  | .object fields => do return .object (sortKeys (← textFields fields))
  | .unsupported => none

def textItems : List Json → Option (List Json)
  | [] => some []
  | v :: rest => do return (← text v) :: (← textItems rest)

def textFields : List (String × Json) → Option (List (String × Json))
  | [] => some []
  | (k, v) :: rest => do return (k, ← text v) :: (← textFields rest)

end

/-- The bytes of one character inside a string literal. -/
def escapedLength (d : Char) : Nat :=
  if d = '"' ∨ d = '\\' ∨ d.toNat ∈ [8, 9, 10, 12, 13] then 2
  else if d.toNat < 0x20 then 6
  else d.utf8Size

def literalLength (s : String) : Nat := 2 + (s.toList.map escapedLength).sum

mutual

def byteLength : Json → Nat
  | .null => 4
  | .bool b => if b then 4 else 5
  | .number n => (toString n).length
  | .string s => literalLength s
  | .array items => 2 + (items.length - 1) + itemsLength items
  | .object fields => 2 + (fields.length - 1) + fieldsLength fields
  | .unsupported => 0

def itemsLength : List Json → Nat
  | [] => 0
  | v :: rest => byteLength v + itemsLength rest

def fieldsLength : List (String × Json) → Nat
  | [] => 0
  | (k, v) :: rest => literalLength k + 1 + byteLength v + fieldsLength rest

end

/-! ## The fields of an object's text -/

theorem mem_sortKeys {field : String × Json} {fields : List (String × Json)} :
    field ∈ sortKeys fields ↔ field ∈ fields :=
  (List.perm_insertionSort _ fields).mem_iff

theorem textFields_keys {fields texts : List (String × Json)} (h : textFields fields = some texts) :
    texts.map Prod.fst = fields.map Prod.fst := by
  induction fields generalizing texts with
  | nil =>
      rw [textFields, Option.some.injEq] at h
      rw [← h]
  | cons field rest ih =>
      obtain ⟨k, v⟩ := field
      simp only [textFields, Option.bind_eq_bind, Option.bind_eq_some_iff] at h
      obtain ⟨v', _, rest', hrest, htexts⟩ := h
      rw [← Option.some.inj htexts, List.map_cons, List.map_cons, ih hrest]

/-- Each field of an object has its text among those of the object. -/
theorem textFields_mem {fields texts : List (String × Json)} (h : textFields fields = some texts)
    {k : String} {v : Json} (hv : (k, v) ∈ fields) : ∃ v', text v = some v' ∧ (k, v') ∈ texts := by
  induction fields generalizing texts with
  | nil => cases hv
  | cons field rest ih =>
      obtain ⟨k', w⟩ := field
      simp only [textFields, Option.bind_eq_bind, Option.bind_eq_some_iff] at h
      obtain ⟨w', hw', rest', hrest, htexts⟩ := h
      have hcons := Option.some.inj htexts
      rcases List.mem_cons.mp hv with heq | hmem
      · obtain ⟨rfl, rfl⟩ := Prod.mk.inj heq
        exact ⟨w', hw', by rw [← hcons]; exact List.mem_cons_self⟩
      · obtain ⟨v', hv', hin⟩ := ih hrest hmem
        exact ⟨v', hv', by rw [← hcons]; exact List.mem_cons_of_mem _ hin⟩

theorem byteLength_le_fieldsLength {k : String} {v : Json} {fields : List (String × Json)}
    (h : (k, v) ∈ fields) : byteLength v ≤ fieldsLength fields := by
  induction fields with
  | nil => cases h
  | cons field rest ih =>
      obtain ⟨k', w⟩ := field
      show byteLength v ≤ literalLength k' + 1 + byteLength w + fieldsLength rest
      rcases List.mem_cons.mp h with heq | hmem
      · obtain ⟨rfl, rfl⟩ := Prod.mk.inj heq
        omega
      · have hle := ih hmem
        omega

theorem fieldsLength_eq_sum (fields : List (String × Json)) : fieldsLength fields =
    (fields.map (fun field => literalLength field.1 + 1 + byteLength field.2)).sum := by
  induction fields with
  | nil => rfl
  | cons field rest ih =>
      show literalLength field.1 + 1 + byteLength field.2 + fieldsLength rest = _
      rw [ih, List.map_cons, List.sum_cons]

/-- The order of the keys does not matter for the length. -/
theorem byteLength_sortKeys (fields : List (String × Json)) :
    byteLength (.object (sortKeys fields)) = byteLength (.object fields) := by
  have hperm : (sortKeys fields).Perm fields := List.perm_insertionSort _ fields
  show 2 + ((sortKeys fields).length - 1) + fieldsLength (sortKeys fields) =
    2 + (fields.length - 1) + fieldsLength fields
  rw [hperm.length_eq, fieldsLength_eq_sum, fieldsLength_eq_sum, (hperm.map _).sum_nat]

theorem textItems_string (items : List String) :
    textItems (items.map .string) = some (items.map .string) := by
  induction items with
  | nil => rfl
  | cons item rest ih =>
      show (do return Json.string item :: (← textItems (rest.map .string))) = _
      rw [ih]
      rfl

/-- Fields that are their own text. -/
theorem textFields_self {fields : List (String × Json)}
    (h : ∀ field ∈ fields, text field.2 = some field.2) : textFields fields = some fields := by
  induction fields with
  | nil => rfl
  | cons field rest ih =>
      rw [List.forall_mem_cons] at h
      show (do return (field.1, ← text field.2) :: (← textFields rest)) = _
      rw [h.1, ih h.2]
      rfl

theorem text_object_self {fields : List (String × Json)}
    (h : ∀ field ∈ fields, text field.2 = some field.2) :
    text (.object fields) = some (.object (sortKeys fields)) := by
  show (do return Json.object (sortKeys (← textFields fields))) = _
  rw [textFields_self h]
  rfl

theorem sortKeys_sortKeys (fields : List (String × Json)) :
    sortKeys (sortKeys fields) = sortKeys fields := by
  have htotal : Std.Total keyOrder := ⟨fun a b => List.le_total (utf16 a.1) (utf16 b.1)⟩
  have htrans : IsTrans (String × Json) keyOrder := ⟨fun _ _ _ hab hbc => List.le_trans hab hbc⟩
  exact (List.pairwise_insertionSort _ fields).insertionSort_eq

mutual

/-- Text is its own text: what is read back from it is written the same way. -/
theorem text_text : (j : Json) → ∀ {t : Json}, text j = some t → text t = some t
  | .null, t, h => by
      simp only [text, Option.some.injEq] at h
      rw [← h, text]
  | .bool b, t, h => by
      simp only [text, Option.some.injEq] at h
      rw [← h, text]
  | .number n, t, h => by
      have hn := h
      simp only [text, Option.ite_none_right_eq_some, Option.some.injEq] at hn
      rw [← hn.2, text, if_pos hn.1]
  | .string s, t, h => by
      simp only [text, Option.some.injEq] at h
      rw [← h, text]
  | .array items, t, h => by
      simp only [text, Option.bind_eq_bind, Option.bind_eq_some_iff] at h
      obtain ⟨texts, htexts, h⟩ := h
      rw [← Option.some.inj h, text, textItems_text items htexts]
      rfl
  | .object fields, t, h => by
      simp only [text, Option.bind_eq_bind, Option.bind_eq_some_iff] at h
      obtain ⟨texts, htexts, h⟩ := h
      rw [← Option.some.inj h, text_object_self, sortKeys_sortKeys]
      exact fun field hfield => textFields_text fields htexts field (mem_sortKeys.mp hfield)
  | .unsupported, t, h => by
      rw [text] at h
      cases h

theorem textItems_text : (items : List Json) → ∀ {texts : List Json},
    textItems items = some texts → textItems texts = some texts
  | [], texts, h => by
      rw [textItems, Option.some.injEq] at h
      rw [← h, textItems]
  | v :: rest, texts, h => by
      simp only [textItems, Option.bind_eq_bind, Option.bind_eq_some_iff] at h
      obtain ⟨v', hv, rest', hrest, h⟩ := h
      rw [← Option.some.inj h, textItems, text_text v hv, textItems_text rest hrest]
      rfl

theorem textFields_text : (fields : List (String × Json)) → ∀ {texts : List (String × Json)},
    textFields fields = some texts → ∀ field ∈ texts, text field.2 = some field.2
  | [], texts, h => by
      rw [textFields, Option.some.injEq] at h
      rw [← h]
      exact nofun
  | (k, v) :: rest, texts, h => by
      simp only [textFields, Option.bind_eq_bind, Option.bind_eq_some_iff] at h
      obtain ⟨v', hv, rest', hrest, h⟩ := h
      rw [← Option.some.inj h, List.forall_mem_cons]
      exact ⟨text_text v hv, textFields_text rest hrest⟩

end

theorem textFields_append {fields fields' texts : List (String × Json)} :
    textFields (fields ++ fields') = some texts ↔ ∃ a b, textFields fields = some a ∧
      textFields fields' = some b ∧ a ++ b = texts := by
  induction fields generalizing texts with
  | nil => simp [textFields]
  | cons field rest ih =>
      obtain ⟨k, v⟩ := field
      simp only [List.cons_append, textFields, Option.bind_eq_bind, Option.bind_eq_some_iff, ih,
        Option.pure_def, Option.some.injEq]
      constructor
      · rintro ⟨v', hv, _, ⟨a, b, ha, hb, rfl⟩, rfl⟩
        exact ⟨_, b, ⟨v', hv, a, ha, rfl⟩, hb, rfl⟩
      · rintro ⟨_, b, ⟨v', hv, a, ha, rfl⟩, hb, rfl⟩
        exact ⟨v', hv, _, ⟨a, b, ha, hb, rfl⟩, rfl⟩

/-- An object keeps its text when its last field is replaced by one with the same text. -/
theorem text_object_last {v w : Json} (h : text v = text w) (fields : List (String × Json))
    (k : String) : text (.object (fields ++ [(k, v)])) = text (.object (fields ++ [(k, w)])) := by
  have hfields : textFields (fields ++ [(k, v)]) = textFields (fields ++ [(k, w)]) := by
    induction fields with
    | nil => simp only [List.nil_append, textFields, h]
    | cons field rest ih => simp only [List.cons_append, textFields, ih]
  rw [text, text, hfields]

/-- The text of a field of an object that has text is no longer than the object's. -/
theorem text_object_field {fields : List (String × Json)} {j : Json}
    (h : text (.object fields) = some j) {k : String} {v : Json} (hv : (k, v) ∈ fields) :
    ∃ v', text v = some v' ∧ byteLength v' ≤ byteLength j := by
  simp only [text, Option.bind_eq_bind, Option.bind_eq_some_iff] at h
  obtain ⟨texts, htexts, hj⟩ := h
  obtain ⟨v', hv', hmem⟩ := textFields_mem htexts hv
  refine ⟨v', hv', ?_⟩
  rw [← Option.some.inj hj, byteLength]
  have hle := byteLength_le_fieldsLength (mem_sortKeys.mpr hmem)
  omega

/-- Two objects with the same text agree on the text of every field, when keys do not
repeat. -/
theorem text_object_agree {fields fields' : List (String × Json)} {j : Json}
    (h : text (.object fields) = some j) (h' : text (.object fields') = some j)
    (hkeys : (fields.map Prod.fst).Nodup) {k : String} {v w : Json} (hv : (k, v) ∈ fields)
    (hw : (k, w) ∈ fields') : text v = text w := by
  simp only [text, Option.bind_eq_bind, Option.bind_eq_some_iff] at h h'
  obtain ⟨texts, htexts, hj⟩ := h
  obtain ⟨texts', htexts', hj'⟩ := h'
  obtain ⟨v', hv', hmem⟩ := textFields_mem htexts hv
  obtain ⟨w', hw', hmem'⟩ := textFields_mem htexts' hw
  have hsorted : sortKeys texts = sortKeys texts' := by
    have hsame := (Option.some.inj hj).trans (Option.some.inj hj').symm
    exact Json.object.inj hsame
  have hin : (k, w') ∈ texts := by
    rw [← mem_sortKeys, hsorted, mem_sortKeys]
    exact hmem'
  have hnodup : (texts.map Prod.fst).Nodup := by
    rw [textFields_keys htexts]
    exact hkeys
  have hunique : (k, v') = (k, w') := List.inj_on_of_nodup_map hnodup hmem hin rfl
  rw [hv', hw', (Prod.mk.inj hunique).2]

end Json
