/-
The text of a JSON value with the keys of every object in one order.

A value is read back from its text whatever follows it, as long as that does not
go on with a digit, so values with the same text are the same up to the order of
keys.  The order itself is a parameter: only the keys that it tells apart have one
place in the text.
-/
import AlphaForge.Data.Json
import AlphaForge.Text.Digits
import Mathlib.Data.List.Nodup
import Mathlib.Data.List.Pairwise
import Mathlib.Data.List.Perm.Basic

namespace Json

/-! ## Text -/

/-- One character inside a string literal. -/
def escape (d : Char) : List Char :=
  if d = '"' then ['\\', '"']
  else if d = '\\' then ['\\', '\\']
  else if d.toNat = 8 then ['\\', 'b']
  else if d.toNat = 9 then ['\\', 't']
  else if d.toNat = 10 then ['\\', 'n']
  else if d.toNat = 12 then ['\\', 'f']
  else if d.toNat = 13 then ['\\', 'r']
  else if d.toNat < 0x20 then '\\' :: 'u' :: Text.hexDigits 4 d.toNat
  else [d]

def literal (s : String) : List Char := '"' :: (s.toList.flatMap escape ++ ['"'])

def commas : List (List Char) → List Char
  | [] => []
  | [text] => text
  | text :: next :: rest => text ++ ',' :: commas (next :: rest)

def field (e : String × List Char) : List Char := literal e.1 ++ ':' :: e.2

section Canonical

variable (compare : String → String → Ordering)

/-- The keys in order, and keys that compare equal as they came. -/
def sortFields {α : Type} (fields : List (String × α)) : List (String × α) :=
  fields.insertionSort (fun a b => (compare a.1 b.1).isLE = true)

mutual

def chars : Json → List Char
  | .null => ['n', 'u', 'l', 'l']
  | .bool b => if b then ['t', 'r', 'u', 'e'] else ['f', 'a', 'l', 's', 'e']
  | .number n => (toString n).toList
  | .string s => literal s
  | .array items => '[' :: (commas (charsItems items) ++ [']'])
  | .object fields => '{' :: (commas ((sortFields compare (charsFields fields)).map field) ++ ['}'])
  | .unsupported => ['u', 'n', 'd', 'e', 'f', 'i', 'n', 'e', 'd']

def charsItems : List Json → List (List Char)
  | [] => []
  | v :: rest => chars v :: charsItems rest

def charsFields : List (String × Json) → List (String × List Char)
  | [] => []
  | (k, v) :: rest => (k, chars v) :: charsFields rest

end

def canonical (v : Json) : String := String.ofList (chars compare v)

end Canonical

/-! ## Entries in the order of their keys -/

/-- Entries whose keys are told apart have one order. -/
theorem insertionSort_perm {α κ : Type} (compare : κ → κ → Ordering) [Std.TransCmp compare]
    (key : α → κ) {entries entries' : List α} (hperm : entries.Perm entries')
    (hkeys : entries.Pairwise (fun a b => compare (key a) (key b) ≠ .eq)) :
    entries.insertionSort (fun a b => (compare (key a) (key b)).isLE = true) =
      entries'.insertionSort (fun a b => (compare (key a) (key b)).isLE = true) := by
  have htrans : IsTrans α (fun a b => (compare (key a) (key b)).isLE = true) :=
    ⟨fun _ _ _ hab hbc => Std.TransCmp.isLE_trans hab hbc⟩
  have htotal : Std.Total (fun a b : α => (compare (key a) (key b)).isLE = true) :=
    ⟨fun a b => by
      have hswap : compare (key a) (key b) = (compare (key b) (key a)).swap :=
        Std.OrientedCmp.eq_swap
      rw [hswap]
      cases compare (key b) (key a) <;> simp⟩
  refine List.Perm.eq_of_pairwise ?_ (List.pairwise_insertionSort _ entries)
    (List.pairwise_insertionSort _ entries') ?_
  · intro a b ha hb hab hba
    by_contra hne
    have ha' := (List.mem_insertionSort _).mp ha
    have hb' := hperm.mem_iff.mpr ((List.mem_insertionSort _).mp hb)
    have hsymm : Std.Symm (fun a b : α => compare (key a) (key b) ≠ .eq) :=
      ⟨fun a b h heq => h (Std.OrientedCmp.eq_comm.mp heq)⟩
    have hdistinct := hkeys.forall ha' hb' hne
    have hswap : compare (key b) (key a) = (compare (key a) (key b)).swap :=
      Std.OrientedCmp.eq_swap
    rw [hswap] at hba
    revert hab hba hdistinct
    cases compare (key a) (key b) <;> simp
  · exact ((List.perm_insertionSort _ entries).trans hperm).trans
      (List.perm_insertionSort _ entries').symm

/-! ## Values up to the order of keys -/

mutual

/-- The same value, whatever the order of keys. -/
def Same : Json → Json → Prop
  | .array items, w => ∃ items', w = .array items' ∧ SameItems items items'
  | .object fields, w =>
      ∃ fields' fields'', w = .object fields' ∧ fields''.Perm fields' ∧ SameFields fields fields''
  | .null, w => w = .null
  | .bool b, w => w = .bool b
  | .number n, w => w = .number n
  | .string s, w => w = .string s
  | .unsupported, w => w = .unsupported

def SameItems : List Json → List Json → Prop
  | [], items => items = []
  | v :: rest, items => ∃ w rest', items = w :: rest' ∧ Same v w ∧ SameItems rest rest'

def SameFields : List (String × Json) → List (String × Json) → Prop
  | [], fields => fields = []
  | (k, v) :: rest, fields =>
      ∃ w rest', fields = (k, w) :: rest' ∧ Same v w ∧ SameFields rest rest'

end

/-! ## Literals -/

/-- The character that a short escape stands for. -/
def shortEscape (d : Char) : Option Nat :=
  if d = '"' then some 34 else if d = '\\' then some 92 else if d = 'b' then some 8
  else if d = 't' then some 9 else if d = 'n' then some 10 else if d = 'f' then some 12
  else if d = 'r' then some 13 else none

theorem escape_cases (d : Char) :
    (∃ code, escape d = ['\\', code] ∧ shortEscape code = some d.toNat) ∨
      (escape d = '\\' :: 'u' :: Text.hexDigits 4 d.toNat ∧ d.toNat < 0x20) ∨
      (escape d = [d] ∧ d ≠ '\\' ∧ d ≠ '"') := by
  by_cases h34 : d = '"'
  · subst h34
    exact .inl ⟨'"', rfl, rfl⟩
  by_cases h92 : d = '\\'
  · subst h92
    exact .inl ⟨'\\', rfl, rfl⟩
  unfold escape
  rw [if_neg h34, if_neg h92]
  split_ifs with h8 h9 h10 h12 h13 hlow
  · exact .inl ⟨'b', rfl, by rw [h8]; rfl⟩
  · exact .inl ⟨'t', rfl, by rw [h9]; rfl⟩
  · exact .inl ⟨'n', rfl, by rw [h10]; rfl⟩
  · exact .inl ⟨'f', rfl, by rw [h12]; rfl⟩
  · exact .inl ⟨'r', rfl, by rw [h13]; rfl⟩
  · exact .inr (.inl ⟨rfl, hlow⟩)
  · exact .inr (.inr ⟨rfl, h92, h34⟩)

theorem shortEscape_ne {code : Char} {n : Nat} (h : shortEscape code = some n) : code ≠ 'u' := by
  rintro rfl
  cases h

/-- A character is read back from its escape. -/
theorem escape_append {d e : Char} {x y : List Char} (h : escape d ++ x = escape e ++ y) :
    d = e ∧ x = y := by
  rcases escape_cases d with ⟨c, hd, hc⟩ | ⟨hd, hdlow⟩ | ⟨hd, hdslash, _⟩ <;>
    rcases escape_cases e with ⟨c', he, hc'⟩ | ⟨he, helow⟩ | ⟨he, heslash, _⟩ <;>
    rw [hd, he] at h <;>
    simp only [List.cons_append, List.nil_append, List.cons.injEq] at h
  · obtain ⟨_, rfl, hrest⟩ := h
    rw [hc, Option.some.injEq] at hc'
    exact ⟨Char.toNat_inj.mp hc', hrest⟩
  · exact absurd h.2.1 (shortEscape_ne hc)
  · exact absurd h.1.symm heslash
  · exact absurd h.2.1.symm (shortEscape_ne hc')
  · obtain ⟨hdigits, hrest⟩ := List.append_inj h.2.2 (by rw [Text.length_hexDigits, Text.length_hexDigits])
    have hcode := Text.hexDigits_injective (by omega) (by omega) hdigits
    exact ⟨Char.toNat_inj.mp hcode, hrest⟩
  · exact absurd h.1.symm heslash
  · exact absurd h.1 hdslash
  · exact absurd h.1 hdslash
  · exact h

theorem escape_ne_quote (d : Char) (x y : List Char) : escape d ++ x ≠ '"' :: y := by
  rcases escape_cases d with ⟨c, hd, _⟩ | ⟨hd, _⟩ | ⟨hd, _, hquote⟩ <;> rw [hd] <;> intro h <;>
    simp only [List.cons_append, List.nil_append, List.cons.injEq] at h
  · exact absurd h.1 (by decide)
  · exact absurd h.1 (by decide)
  · exact hquote h.1

/-- A quoted list is read back code by code. -/
theorem quoted_append {α : Type} {code : α → List Char}
    (hcode : ∀ a b x y, code a ++ x = code b ++ y → a = b ∧ x = y)
    (hquote : ∀ a x y, code a ++ x ≠ '"' :: y) {as bs : List α} {x y : List Char}
    (h : as.flatMap code ++ '"' :: x = bs.flatMap code ++ '"' :: y) : as = bs ∧ x = y := by
  induction as generalizing bs with
  | nil =>
      cases bs with
      | nil => exact ⟨rfl, (List.cons.inj h).2⟩
      | cons b bs =>
          rw [List.flatMap_cons, List.append_assoc] at h
          exact absurd h.symm (hquote b _ _)
  | cons a as ih =>
      cases bs with
      | nil =>
          rw [List.flatMap_cons, List.append_assoc] at h
          exact absurd h (hquote a _ _)
      | cons b bs =>
          rw [List.flatMap_cons, List.flatMap_cons, List.append_assoc, List.append_assoc] at h
          obtain ⟨rfl, hrest⟩ := hcode a b _ _ h
          obtain ⟨rfl, hxy⟩ := ih hrest
          exact ⟨rfl, hxy⟩

theorem literal_append {s t : String} {x y : List Char} (h : literal s ++ x = literal t ++ y) :
    s = t ∧ x = y := by
  simp only [literal, List.cons_append, List.append_assoc, List.nil_append, List.cons.injEq,
    true_and] at h
  obtain ⟨hst, hxy⟩ := quoted_append (fun _ _ _ _ => escape_append) escape_ne_quote h
  exact ⟨String.toList_inj.mp hst, hxy⟩

/-! ## Numbers -/

/-- Text that does not go on with a digit. -/
def Ends (x : List Char) : Prop := ∀ d ∈ x.head?, d.isDigit = false

theorem span_digits {a x : List Char} (ha : a.all Char.isDigit = true) (hx : Ends x) :
    (a ++ x).takeWhile Char.isDigit = a ∧ (a ++ x).dropWhile Char.isDigit = x := by
  induction a with
  | nil =>
      cases x with
      | nil => exact ⟨rfl, rfl⟩
      | cons d x =>
          have hd := hx d rfl
          rw [List.nil_append, List.takeWhile_cons, List.dropWhile_cons, hd]
          exact ⟨rfl, rfl⟩
  | cons d a ih =>
      rw [List.all_cons, Bool.and_eq_true] at ha
      obtain ⟨htake, hdrop⟩ := ih ha.2
      rw [List.cons_append, List.takeWhile_cons, List.dropWhile_cons, ha.1]
      simp only [if_true]
      rw [htake, hdrop]
      exact ⟨rfl, rfl⟩

theorem all_isDigit_repr (n : Nat) : n.repr.toList.all Char.isDigit = true := by
  rw [Nat.toList_repr, List.all_eq_true]
  intro d hd
  exact Nat.isDigit_of_mem_toDigits (by decide) (by decide) hd

theorem repr_append {m n : Nat} {x y : List Char} (hx : Ends x) (hy : Ends y)
    (h : m.repr.toList ++ x = n.repr.toList ++ y) : m = n ∧ x = y := by
  obtain ⟨hm, hx'⟩ := span_digits (all_isDigit_repr m) hx
  obtain ⟨hn, hy'⟩ := span_digits (all_isDigit_repr n) hy
  have hdigits : m.repr.toList = n.repr.toList := by rw [← hm, h, hn]
  refine ⟨?_, by rw [← hx', h, hy']⟩
  rw [← Text.ofDecimal_repr m, ← Text.ofDecimal_repr n, String.toList_inj.mp hdigits]

theorem repr_cons (n : Nat) : ∃ d rest, n.repr.toList = d :: rest ∧ d.isDigit = true := by
  have hall := all_isDigit_repr n
  cases h : n.repr.toList with
  | nil =>
      have hempty : Nat.toDigits 10 n = [] := by rw [← Nat.toList_repr, h]
      exact absurd hempty Nat.toDigits_ne_nil
  | cons d rest =>
      rw [h, List.all_cons, Bool.and_eq_true] at hall
      exact ⟨d, rest, rfl, hall.1⟩

theorem toString_int (n : Int) :
    (toString n).toList = if n < 0 then '-' :: n.natAbs.repr.toList else n.natAbs.repr.toList := by
  cases n with
  | ofNat m =>
      have hnot : ¬ Int.ofNat m < 0 := Int.not_lt.mpr (Int.natCast_nonneg m)
      rw [if_neg hnot]
      rfl
  | negSucc m =>
      rw [if_pos (Int.negSucc_lt_zero m)]
      show ("-" ++ (m + 1).repr).toList = _
      rw [String.toList_append]
      rfl

theorem int_append {m n : Int} {x y : List Char} (hx : Ends x) (hy : Ends y)
    (h : (toString m).toList ++ x = (toString n).toList ++ y) : m = n ∧ x = y := by
  have hsign : ∀ (k : Nat) (z w : List Char), k.repr.toList ++ z ≠ '-' :: w := by
    intro k z w heq
    obtain ⟨d, rest, hd, hdigit⟩ := repr_cons k
    rw [hd, List.cons_append, List.cons.injEq] at heq
    rw [heq.1] at hdigit
    exact absurd hdigit (by decide)
  rw [toString_int, toString_int] at h
  split at h <;> split at h
  · next hm hn =>
      rw [List.cons_append, List.cons_append, List.cons.injEq] at h
      obtain ⟨habs, hxy⟩ := repr_append hx hy h.2
      exact ⟨by omega, hxy⟩
  · exact absurd h.symm (hsign _ _ _)
  · exact absurd h (hsign _ _ _)
  · next hm hn =>
      obtain ⟨habs, hxy⟩ := repr_append hx hy h
      exact ⟨by omega, hxy⟩

/-! ## Lists -/

theorem commas_cons (text : List Char) (rest : List (List Char)) :
    commas (text :: rest) = text ++ (if rest = [] then [] else ',' :: commas rest) := by
  cases rest with
  | nil => exact (List.append_nil text).symm
  | cons next rest => rfl

/-- A closed list of texts is read back item by item. -/
theorem commas_append {α : Type} {text : α → List Char} {R : α → α → Prop} {close : Char}
    (hcomma : close ≠ ',') (hdigit : close.isDigit = false) {as : List α}
    {bs : List α}
    (hread : ∀ a ∈ as, ∀ b ∈ bs, ∀ x y, Ends x → Ends y → text a ++ x = text b ++ y →
      R a b ∧ x = y)
    (hstart : ∀ a ∈ as ++ bs, ∀ x y, text a ++ x ≠ close :: y) {x y : List Char}
    (h : commas (as.map text) ++ close :: x = commas (bs.map text) ++ close :: y) :
    List.Forall₂ R as bs ∧ x = y := by
  have hends : ∀ (rest : List α) z,
      Ends ((if rest.map text = [] then [] else ',' :: commas (rest.map text)) ++ close :: z) := by
    intro rest z d hd
    split at hd
    · cases hd
      exact hdigit
    · cases hd
      rfl
  induction as generalizing bs with
  | nil =>
      cases bs with
      | nil => exact ⟨.nil, (List.cons.inj h).2⟩
      | cons b bs =>
          rw [List.map_cons, commas_cons, List.append_assoc] at h
          exact absurd h.symm (hstart b List.mem_cons_self _ _)
  | cons a as ih =>
      cases bs with
      | nil =>
          rw [List.map_cons, commas_cons, List.append_assoc] at h
          exact absurd h (hstart a List.mem_cons_self _ _)
      | cons b bs =>
          rw [List.map_cons, List.map_cons, commas_cons, commas_cons, List.append_assoc,
            List.append_assoc] at h
          obtain ⟨hab, hrest⟩ :=
            hread a List.mem_cons_self b List.mem_cons_self _ _ (hends as x) (hends bs y) h
          split at hrest <;> split at hrest
          · next has hbs =>
              have hxy := (List.cons.inj hrest).2
              rw [List.map_eq_nil_iff] at has hbs
              subst has hbs
              exact ⟨.cons hab .nil, hxy⟩
          · exact absurd (List.cons.inj hrest).1 hcomma
          · exact absurd (List.cons.inj hrest).1.symm hcomma
          · obtain ⟨hlist, hxy⟩ := ih
              (fun a' ha b' hb => hread a' (List.mem_cons_of_mem a ha) b' (List.mem_cons_of_mem b hb))
              (fun a' ha => hstart a' (by
                rcases List.mem_append.mp ha with ha | hb
                · exact List.mem_append_left _ (List.mem_cons_of_mem a ha)
                · exact List.mem_append_right _ (List.mem_cons_of_mem b hb)))
              (List.cons.inj hrest).2
            exact ⟨.cons hab hlist, hxy⟩

/-- Lists that match item by item have one image under a map that does not tell matching
items apart. -/
theorem map_eq_of_forall₂ {α β : Type} {R : α → α → Prop} {f : α → β} {as bs : List α}
    (h : List.Forall₂ R as bs) (hf : ∀ a ∈ as, ∀ b ∈ bs, R a b → f a = f b) :
    as.map f = bs.map f := by
  induction h with
  | nil => rfl
  | cons hab _ ih =>
      rw [List.map_cons, List.map_cons, hf _ List.mem_cons_self _ List.mem_cons_self hab,
        ih fun a ha b hb => hf a (List.mem_cons_of_mem _ ha) b (List.mem_cons_of_mem _ hb)]

/-! ## Values -/

theorem induction {P : Json → Prop} (hnull : P .null) (hbool : ∀ b, P (.bool b))
    (hnumber : ∀ n, P (.number n)) (hstring : ∀ s, P (.string s))
    (harray : ∀ items, (∀ v ∈ items, P v) → P (.array items))
    (hobject : ∀ fields, (∀ e ∈ fields, P e.2) → P (.object fields))
    (hunsupported : P .unsupported) (v : Json) : P v :=
  @Json.rec P (fun items => ∀ v ∈ items, P v) (fun fields => ∀ e ∈ fields, P e.2) (fun e => P e.2)
    hnull hbool hnumber hstring harray hobject hunsupported
    (fun _ h => absurd h List.not_mem_nil)
    (fun _ _ hv hrest => List.forall_mem_cons.mpr ⟨hv, hrest⟩)
    (fun _ h => absurd h List.not_mem_nil)
    (fun _ _ he hrest => List.forall_mem_cons.mpr ⟨he, hrest⟩)
    (fun _ _ hv => hv) v

/-- The first character of a text tells what kind of value it is. -/
def startKind (d : Char) : Nat :=
  if d = 'n' then 0 else if d = 't' then 1 else if d = 'f' then 2 else if d = '"' then 3
  else if d = '[' then 4 else if d = '{' then 5 else if d = 'u' then 6
  else if d = '-' ∨ d.isDigit = true then 7 else 8

def kind : Json → Nat
  | .null => 0
  | .bool b => if b then 1 else 2
  | .string _ => 3
  | .array _ => 4
  | .object _ => 5
  | .unsupported => 6
  | .number _ => 7

theorem startKind_digit {d : Char} (h : d.isDigit = true) : startKind d = 7 := by
  have hne : ∀ e : Char, e.isDigit = false → d ≠ e := fun e he heq => by
    rw [heq, he] at h
    cases h
  rw [startKind, if_neg (hne 'n' rfl), if_neg (hne 't' rfl), if_neg (hne 'f' rfl),
    if_neg (hne '"' rfl), if_neg (hne '[' rfl), if_neg (hne '{' rfl), if_neg (hne 'u' rfl),
    if_pos (.inr h)]

section Read

variable (compare : String → String → Ordering)

theorem chars_cons (v : Json) : ∃ d rest, chars compare v = d :: rest ∧ startKind d = kind v := by
  cases v with
  | null => exact ⟨'n', _, by rw [chars], rfl⟩
  | bool b => cases b with
    | true => exact ⟨'t', _, by rw [chars, if_pos rfl], rfl⟩
    | false => exact ⟨'f', _, by rw [chars, if_neg Bool.false_ne_true], rfl⟩
  | string s => exact ⟨'"', _, by rw [chars, literal], rfl⟩
  | array items => exact ⟨'[', _, by rw [chars], rfl⟩
  | object fields => exact ⟨'{', _, by rw [chars], rfl⟩
  | unsupported => exact ⟨'u', _, by rw [chars], rfl⟩
  | number n =>
      obtain ⟨d, rest, hrepr, hdigit⟩ := repr_cons n.natAbs
      rw [chars, toString_int]
      split
      · exact ⟨'-', _, rfl, rfl⟩
      · exact ⟨d, rest, hrepr, startKind_digit hdigit⟩

theorem kind_eq {v w : Json} {x y : List Char} (h : chars compare v ++ x = chars compare w ++ y) :
    kind v = kind w := by
  obtain ⟨d, rest, hv, hd⟩ := chars_cons compare v
  obtain ⟨d', rest', hw, hd'⟩ := chars_cons compare w
  rw [hv, hw, List.cons_append, List.cons_append, List.cons.injEq] at h
  rw [← hd, ← hd', h.1]

theorem chars_ne {v : Json} {d : Char} (hd : startKind d = 8) (x y : List Char) :
    chars compare v ++ x ≠ d :: y := by
  intro h
  obtain ⟨d', rest, hv, hkind⟩ := chars_cons compare v
  rw [hv, List.cons_append, List.cons.injEq] at h
  rw [h.1, hd] at hkind
  cases v with
  | bool b => cases b <;> cases hkind
  | _ => cases hkind

theorem charsItems_eq (items : List Json) : charsItems compare items = items.map (chars compare) := by
  induction items with
  | nil => rfl
  | cons v rest ih => rw [charsItems, ih, List.map_cons]

theorem charsFields_eq (fields : List (String × Json)) :
    charsFields compare fields = fields.map (fun e => (e.1, chars compare e.2)) := by
  induction fields with
  | nil => rfl
  | cons e rest ih =>
      obtain ⟨k, v⟩ := e
      rw [charsFields, ih, List.map_cons]

/-- The fields of an object's text are its fields, in the order of keys. -/
theorem sorted_fields (fields : List (String × Json)) :
    (sortFields compare (charsFields compare fields)).map field =
      (sortFields compare fields).map (fun e => field (e.1, chars compare e.2)) := by
  have hsort : (sortFields compare fields).map (fun e => (e.1, chars compare e.2)) =
      sortFields compare (fields.map (fun e => (e.1, chars compare e.2))) :=
    List.map_insertionSort _ _ _ _ (fun _ _ _ _ => Iff.rfl)
  rw [charsFields_eq, ← hsort, List.map_map]
  rfl

end Read

theorem sameItems_iff {items items' : List Json} :
    SameItems items items' ↔ List.Forall₂ Same items items' := by
  induction items generalizing items' with
  | nil =>
      rw [SameItems, List.forall₂_nil_left_iff]
  | cons v rest ih =>
      rw [SameItems, List.forall₂_cons_left_iff]
      simp only [ih]
      constructor
      · rintro ⟨w, rest', rfl, hv, hrest⟩
        exact ⟨w, rest', hv, hrest, rfl⟩
      · rintro ⟨w, rest', hv, hrest, rfl⟩
        exact ⟨w, rest', rfl, hv, hrest⟩

/-- The same field. -/
def SameField (e e' : String × Json) : Prop := e.1 = e'.1 ∧ Same e.2 e'.2

theorem sameFields_iff {fields fields' : List (String × Json)} :
    SameFields fields fields' ↔ List.Forall₂ SameField fields fields' := by
  induction fields generalizing fields' with
  | nil =>
      rw [SameFields, List.forall₂_nil_left_iff]
  | cons e rest ih =>
      obtain ⟨k, v⟩ := e
      rw [SameFields, List.forall₂_cons_left_iff]
      simp only [ih]
      constructor
      · rintro ⟨w, rest', rfl, hv, hrest⟩
        exact ⟨(k, w), rest', ⟨rfl, hv⟩, hrest, rfl⟩
      · rintro ⟨⟨k', w⟩, rest', ⟨rfl, hv⟩, hrest, rfl⟩
        exact ⟨w, rest', rfl, hv, hrest⟩

theorem Same.refl (v : Json) : Same v v := by
  induction v using Json.induction with
  | harray items ih =>
      rw [Same]
      exact ⟨items, rfl, sameItems_iff.mpr (List.forall₂_same.mpr ih)⟩
  | hobject fields ih =>
      rw [Same]
      exact ⟨fields, fields, rfl, List.Perm.refl fields,
        sameFields_iff.mpr (List.forall₂_same.mpr fun e he => ⟨rfl, ih e he⟩)⟩
  | _ => rw [Same]

/-- The second value is of the first one's kind. -/
def SameKind : Json → Json → Prop
  | .null, w => w = .null
  | .bool b, w => w = .bool b
  | .number _, w => ∃ n, w = .number n
  | .string _, w => ∃ s, w = .string s
  | .array _, w => ∃ items, w = .array items
  | .object _, w => ∃ fields, w = .object fields
  | .unsupported, w => w = .unsupported

theorem sameKind {v w : Json} (h : kind v = kind w) : SameKind v w := by
  cases v with
  | bool b => cases b <;> cases w <;> simp_all [kind, SameKind]
  | _ =>
      cases w with
      | bool b => cases b <;> simp [kind] at h
      | _ => simp_all [kind, SameKind]

/-- Fields in another order match the other object's fields in some order. -/
theorem forall₂_perm {fields fields' sorted : List (String × Json)} (hperm : sorted.Perm fields)
    (h : List.Forall₂ SameField sorted fields') :
    ∃ fields'', fields''.Perm fields' ∧ List.Forall₂ SameField fields fields'' := by
  obtain ⟨fields'', hforall, hperm'⟩ := List.perm_comp_forall₂ hperm.symm h
  exact ⟨fields'', hperm', hforall⟩

theorem field_append {compare : String → String → Ordering} {e e' : String × Json} {x y : List Char}
    (hread : chars compare e.2 ++ x = chars compare e'.2 ++ y → Same e.2 e'.2 ∧ x = y)
    (h : field (e.1, chars compare e.2) ++ x = field (e'.1, chars compare e'.2) ++ y) :
    SameField e e' ∧ x = y := by
  rw [field, field, List.append_assoc, List.append_assoc] at h
  obtain ⟨hkey, hvalue⟩ := literal_append h
  rw [List.cons_append, List.cons_append, List.cons.injEq] at hvalue
  obtain ⟨hsame, hxy⟩ := hread hvalue.2
  exact ⟨⟨hkey, hsame⟩, hxy⟩

/-- A value is read back from its text, up to the order of keys. -/
theorem chars_append (compare : String → String → Ordering) (v w : Json) {x y : List Char}
    (hx : Ends x) (hy : Ends y) (h : chars compare v ++ x = chars compare w ++ y) :
    Same v w ∧ x = y := by
  induction v using Json.induction generalizing w x y with
  | hnull =>
      obtain rfl : w = .null := sameKind (kind_eq compare h)
      exact ⟨by rw [Same], List.append_cancel_left h⟩
  | hbool b =>
      obtain rfl : w = .bool b := sameKind (kind_eq compare h)
      exact ⟨by rw [Same], List.append_cancel_left h⟩
  | hnumber n =>
      obtain ⟨m, rfl⟩ : ∃ m, w = .number m := sameKind (kind_eq compare h)
      rw [chars, chars] at h
      obtain ⟨rfl, hxy⟩ := int_append hx hy h
      exact ⟨by rw [Same], hxy⟩
  | hstring s =>
      obtain ⟨t, rfl⟩ : ∃ t, w = .string t := sameKind (kind_eq compare h)
      rw [chars, chars] at h
      obtain ⟨rfl, hxy⟩ := literal_append h
      exact ⟨by rw [Same], hxy⟩
  | harray items ih =>
      obtain ⟨items', rfl⟩ : ∃ items', w = .array items' := sameKind (kind_eq compare h)
      rw [chars, chars, charsItems_eq, charsItems_eq, List.cons_append, List.cons_append,
        List.append_assoc, List.append_assoc, List.cons.injEq] at h
      obtain ⟨hitems, hxy⟩ := commas_append (by decide) rfl
        (fun a ha b _ x y hx hy h => ih a ha b hx hy h)
        (fun a _ x y => chars_ne compare rfl x y) h.2
      exact ⟨by rw [Same]; exact ⟨items', rfl, sameItems_iff.mpr hitems⟩, hxy⟩
  | hobject fields ih =>
      obtain ⟨fields', rfl⟩ : ∃ fields', w = .object fields' := sameKind (kind_eq compare h)
      rw [chars, chars, sorted_fields, sorted_fields, List.cons_append, List.cons_append,
        List.append_assoc, List.append_assoc, List.cons.injEq] at h
      have hperm := List.perm_insertionSort (fun a b : String × Json => (compare a.1 b.1).isLE = true)
      obtain ⟨hfields, hxy⟩ := commas_append (R := SameField) (by decide) rfl
        (fun e he e' _ x y hx hy h =>
          field_append (ih e ((hperm fields).mem_iff.mp he) e'.2 hx hy) h)
        (fun e _ x y h => by simp [field, literal] at h) h.2
      obtain ⟨fields₁, hperm₁, hfields₁⟩ := forall₂_perm (hperm fields) hfields
      refine ⟨?_, hxy⟩
      rw [Same]
      exact ⟨fields', fields₁, rfl, hperm₁.trans (hperm fields'), sameFields_iff.mpr hfields₁⟩
  | hunsupported =>
      obtain rfl : w = .unsupported := sameKind (kind_eq compare h)
      exact ⟨by rw [Same], List.append_cancel_left h⟩

/-! ## Keys that are told apart -/

section Separated

variable (compare : String → String → Ordering)

mutual

/-- The keys of every object of the value are told apart. -/
def Separated : Json → Prop
  | .array items => SeparatedItems items
  | .object fields => fields.Pairwise (fun a b => compare a.1 b.1 ≠ .eq) ∧ SeparatedFields fields
  | .null | .bool _ | .number _ | .string _ | .unsupported => True

def SeparatedItems : List Json → Prop
  | [] => True
  | v :: rest => Separated v ∧ SeparatedItems rest

def SeparatedFields : List (String × Json) → Prop
  | [] => True
  | (_, v) :: rest => Separated v ∧ SeparatedFields rest

end

theorem separatedItems_iff {items : List Json} :
    SeparatedItems compare items ↔ ∀ v ∈ items, Separated compare v := by
  induction items with
  | nil => simp [SeparatedItems]
  | cons v rest ih => rw [SeparatedItems, ih, List.forall_mem_cons]

theorem separatedFields_iff {fields : List (String × Json)} :
    SeparatedFields compare fields ↔ ∀ e ∈ fields, Separated compare e.2 := by
  induction fields with
  | nil => simp [SeparatedFields]
  | cons e rest ih =>
      obtain ⟨k, v⟩ := e
      rw [SeparatedFields, ih, List.forall_mem_cons]

variable [Std.TransCmp compare]

/-- Fields whose keys are told apart have one order. -/
theorem sortFields_perm {α : Type} {fields fields' : List (String × α)} (hperm : fields.Perm fields')
    (hkeys : fields.Pairwise (fun a b => compare a.1 b.1 ≠ .eq)) :
    sortFields compare fields = sortFields compare fields' :=
  insertionSort_perm compare (fun e : String × α => e.1) hperm hkeys

/-- The order of keys does not matter for the text, if they are told apart. -/
theorem chars_of_same (v w : Json) (hsame : Same v w) (hv : Separated compare v) :
    chars compare v = chars compare w := by
  induction v using Json.induction generalizing w with
  | harray items ih =>
      rw [Same] at hsame
      obtain ⟨items', rfl, hitems⟩ := hsame
      rw [Separated, separatedItems_iff] at hv
      have htexts : items.map (chars compare) = items'.map (chars compare) :=
        map_eq_of_forall₂ (sameItems_iff.mp hitems) fun v hmem w _ hvw => ih v hmem w hvw (hv v hmem)
      rw [chars, chars, charsItems_eq, charsItems_eq, htexts]
  | hobject fields ih =>
      rw [Same] at hsame
      obtain ⟨fields', fields₁, rfl, hperm, hfields⟩ := hsame
      rw [Separated, separatedFields_iff] at hv
      have htexts : charsFields compare fields = charsFields compare fields₁ := by
        rw [charsFields_eq, charsFields_eq]
        refine map_eq_of_forall₂ (sameFields_iff.mp hfields) fun e hmem e' _ hee' => ?_
        rw [hee'.1, ih e hmem e'.2 hee'.2 (hv.2 e hmem)]
      have hsort : sortFields compare (charsFields compare fields) =
          sortFields compare (charsFields compare fields') := by
        refine sortFields_perm compare ?_ ?_
        · rw [htexts, charsFields_eq, charsFields_eq]
          exact hperm.map _
        · rw [charsFields_eq, List.pairwise_map]
          exact hv.1
      rw [chars, chars, hsort]
  | hnull => rw [Same] at hsame; rw [hsame]
  | hbool b => rw [Same] at hsame; rw [hsame]
  | hnumber n => rw [Same] at hsame; rw [hsame]
  | hstring s => rw [Same] at hsame; rw [hsame]
  | hunsupported => rw [Same] at hsame; rw [hsame]

theorem canonical_of_same {v w : Json} (hsame : Same v w) (hv : Separated compare v) :
    canonical compare v = canonical compare w := by
  rw [canonical, canonical, chars_of_same compare v w hsame hv]

end Separated

/-- Values with the same text are the same up to the order of keys. -/
theorem same_of_canonical {compare : String → String → Ordering} {v w : Json}
    (h : canonical compare v = canonical compare w) : Same v w := by
  have hchars := String.ofList_injective h
  refine (chars_append compare v w (x := []) (y := []) ?_ ?_ ?_).1
  · intro d hd
    cases hd
  · intro d hd
    cases hd
  · rw [hchars]

/-! ## Objects -/

theorem exists_sameField {fields fields' : List (String × Json)}
    (h : List.Forall₂ SameField fields fields') {k : String} {v : Json} (hv : (k, v) ∈ fields) :
    ∃ w, (k, w) ∈ fields' ∧ Same v w := by
  induction h with
  | nil => cases hv
  | @cons e e' rest rest' hsame _ ih =>
      rcases List.mem_cons.mp hv with rfl | hrest
      · obtain ⟨hkey, hvalue⟩ := hsame
        refine ⟨e'.2, ?_, hvalue⟩
        rw [show k = e'.1 from hkey]
        exact List.mem_cons_self
      · obtain ⟨w, hw, hvalue⟩ := ih hrest
        exact ⟨w, List.mem_cons_of_mem _ hw, hvalue⟩

/-- Objects that are the same have the same value under a key. -/
theorem Same.field {fields fields' : List (String × Json)}
    (h : Same (.object fields) (.object fields')) (hkeys : (fields'.map (·.1)).Nodup) {k : String}
    {v w : Json} (hv : (k, v) ∈ fields) (hw : (k, w) ∈ fields') : Same v w := by
  rw [Same] at h
  obtain ⟨_, fields₁, heq, hperm, hfields⟩ := h
  rw [Json.object.injEq] at heq
  subst heq
  obtain ⟨w', hw', hsame⟩ := exists_sameField (sameFields_iff.mp hfields) hv
  have hunique := List.inj_on_of_nodup_map hkeys (hperm.mem_iff.mp hw') hw rfl
  rw [Prod.mk.injEq] at hunique
  rw [← hunique.2]
  exact hsame

/-- Fields that are matched only by themselves stay where they are. -/
theorem sameFields_append {leaves rest fields : List (String × Json)}
    (hleaf : ∀ e ∈ leaves, ∀ w, Same e.2 w → w = e.2)
    (h : SameFields (leaves ++ rest) fields) :
    ∃ rest', fields = leaves ++ rest' ∧ SameFields rest rest' := by
  induction leaves generalizing fields with
  | nil => exact ⟨fields, rfl, h⟩
  | cons e leaves ih =>
      obtain ⟨k, v⟩ := e
      rw [List.cons_append, SameFields] at h
      obtain ⟨w, fields', rfl, hsame, hfields⟩ := h
      obtain ⟨hleaf, hleaves⟩ := List.forall_mem_cons.mp hleaf
      obtain ⟨rest', rfl, hrest⟩ := ih hleaves hfields
      rw [hleaf w hsame]
      exact ⟨rest', rfl, hrest⟩

/-- Fields under the same keys with the same values. -/
theorem fields_eq {fields fields' : List (String × Json)}
    (hkeys : fields.map (·.1) = fields'.map (·.1))
    (h : ∀ k v w, (k, v) ∈ fields → (k, w) ∈ fields' → v = w) : fields = fields' := by
  induction fields generalizing fields' with
  | nil => exact (List.map_eq_nil_iff.mp hkeys.symm).symm
  | cons e rest ih =>
      cases fields' with
      | nil => cases hkeys
      | cons e' rest' =>
          obtain ⟨k, v⟩ := e
          obtain ⟨k', w⟩ := e'
          rw [List.map_cons, List.map_cons, List.cons.injEq] at hkeys
          obtain ⟨rfl, hkeys⟩ := hkeys
          rw [h k v w List.mem_cons_self List.mem_cons_self, ih hkeys fun k v w hv hw =>
            h k v w (List.mem_cons_of_mem _ hv) (List.mem_cons_of_mem _ hw)]

end Json
