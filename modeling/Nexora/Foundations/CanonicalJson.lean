import Nexora.Foundations.Delimited
import Nexora.Foundations.JsonText
import Mathlib.Data.List.Sort
import Mathlib.Data.String.Basic

/-!
# Canonical JSON

The JSON text of a value, and what it says of the value.  No text of a value can be taken for that of another,
whatever goes on behind it (`dumps_isCode`), so it tells the value.  With the members of every object in the
order of their keys it tells the value up to the order of members (`dumps_sorted_eq_iff`).
-/

namespace Foundations

/-- A JSON value. -/
inductive Json where
  | null
  | bool (value : Bool)
  | int (value : ℤ)
  | text (value : String)
  | list (items : List Json)
  | dict (members : List (String × Json))

namespace Json

/-! ## Texts -/

/-- `,` in front of each of the texts, and the end. -/
def closing (last : CodePoint) : List Str → Str
  | [] => [last]
  | part :: parts => ord ',' :: (part ++ closing last parts)

/-- The texts between two brackets, with `,` between them. -/
def enclosed (first last : CodePoint) : List Str → Str
  | [] => [first, last]
  | part :: parts => first :: (part ++ closing last parts)

def quoted (value : String) : Str := quote :: (escape (str value) ++ [quote])

/-- The decimal numeral of a number. -/
def numeral : ℤ → Str
  | .ofNat n => str (toString n)
  | .negSucc n => ord '-' :: str (toString (n + 1))

mutual

/-- `json.dumps(value, separators=(",", ":"))`. -/
def dumps : Json → Str
  | .null => str "null"
  | .bool true => str "true"
  | .bool false => str "false"
  | .int value => numeral value
  | .text value => quoted value
  | .list items => enclosed (ord '[') (ord ']') (dumpsItems items)
  | .dict members => enclosed (ord '\x7b') (ord '\x7d') (dumpsMembers members)

def dumpsItems : List Json → List Str
  | [] => []
  | item :: items => dumps item :: dumpsItems items

def dumpsMembers : List (String × Json) → List Str
  | [] => []
  | (key, value) :: members => (quoted key ++ ord ':' :: dumps value) :: dumpsMembers members

end

/-- The text of a member. -/
def dumpsMember (member : String × Json) : Str := quoted member.1 ++ ord ':' :: dumps member.2

theorem dumpsItems_eq (items : List Json) : dumpsItems items = items.map dumps := by
  induction items with
  | nil => rfl
  | cons item items ih => rw [dumpsItems, ih, List.map_cons]

theorem dumpsMembers_eq (members : List (String × Json)) :
    dumpsMembers members = members.map dumpsMember := by
  induction members with
  | nil => rfl
  | cons member members ih => rw [dumpsMembers, ih, List.map_cons, dumpsMember]

/-! ## The text tells the value -/

/-- What can stand behind a value: nothing, or the next member, or the end of its container. -/
def Stops (rest : Str) : Prop := ∀ c ∈ rest.head?, c = ord ',' ∨ c = ord ']' ∨ c = ord '\x7d'

/-- The text of `a` cannot be taken for that of another, whatever follows. -/
def IsCode {α : Type} (encode : α → Str) (a : α) : Prop :=
  ∀ b rest rest', Stops rest → Stops rest' → encode a ++ rest = encode b ++ rest' → a = b ∧ rest = rest'

/-- A text that is not empty, and does not begin as the end of a container does. -/
def Begins (part : Str) : Prop := ∃ c s, part = c :: s ∧ c ≠ ord ',' ∧ c ≠ ord ']' ∧ c ≠ ord '\x7d'

section Enclosed

variable {α : Type} {encode : α → Str} {last : CodePoint}

theorem stops_closing (hlast : Stops [last]) (parts : List Str) (rest : Str) :
    Stops (closing last parts ++ rest) := by
  cases parts with
  | nil => exact hlast
  | cons part parts =>
      rintro c ⟨⟩
      exact .inl rfl

theorem closing_inj (hlast : Stops [last]) (hcomma : last ≠ ord ',') {as : List α}
    (hcode : ∀ a ∈ as, IsCode encode a) {bs : List α} {rest rest' : Str}
    (h : closing last (as.map encode) ++ rest = closing last (bs.map encode) ++ rest') :
    as = bs ∧ rest = rest' := by
  induction as generalizing bs with
  | nil =>
      cases bs with
      | nil => exact ⟨rfl, (List.cons.inj h).2⟩
      | cons b bs => exact absurd (List.cons.inj h).1 hcomma
  | cons a as ih =>
      cases bs with
      | nil => exact absurd (List.cons.inj h).1.symm hcomma
      | cons b bs =>
          obtain ⟨ha, has⟩ := List.forall_mem_cons.mp hcode
          have htail := (List.cons.inj h).2
          rw [List.append_eq, List.append_eq, List.append_assoc, List.append_assoc] at htail
          obtain ⟨rfl, hclosing⟩ := ha b _ _ (stops_closing hlast _ _) (stops_closing hlast _ _) htail
          obtain ⟨rfl, hrest⟩ := ih has hclosing
          exact ⟨rfl, hrest⟩

theorem enclosed_inj {first : CodePoint} (hlast : Stops [last]) (hcomma : last ≠ ord ',')
    (hbegins : ∀ a, Begins (encode a)) {as : List α} (hcode : ∀ a ∈ as, IsCode encode a) {bs : List α}
    {rest rest' : Str}
    (h : enclosed first last (as.map encode) ++ rest = enclosed first last (bs.map encode) ++ rest') :
    as = bs ∧ rest = rest' := by
  have hend (b : α) (s t : Str) : last :: s ≠ encode b ++ t := by
    intro hb
    obtain ⟨c, u, hc, hends⟩ := hbegins b
    rw [hc] at hb
    obtain rfl := (List.cons.inj hb).1
    rcases hlast last rfl with h | h | h
    · exact hends.1 h
    · exact hends.2.1 h
    · exact hends.2.2 h
  cases as with
  | nil =>
      cases bs with
      | nil => exact ⟨rfl, by simpa [enclosed] using h⟩
      | cons b bs => exact absurd (by simpa [enclosed] using h) (hend b rest _)
  | cons a as =>
      cases bs with
      | nil => exact absurd (by simpa [enclosed] using h.symm) (hend a rest' _)
      | cons b bs =>
          refine closing_inj hlast hcomma hcode ?_
          simpa [enclosed, closing] using h

end Enclosed

/-! ### Kinds -/

/-- What the first character of a text says of its value. -/
inductive Kind where
  | null
  | bool
  | int
  | text
  | list
  | dict
deriving DecidableEq

def kind : Json → Kind
  | .null => .null
  | .bool _ => .bool
  | .int _ => .int
  | .text _ => .text
  | .list _ => .list
  | .dict _ => .dict

def kindOf (c : CodePoint) : Kind :=
  if c = ord 'n' then .null
  else if c = ord 't' ∨ c = ord 'f' then .bool
  else if c = quote then .text
  else if c = ord '[' then .list
  else if c = ord '\x7b' then .dict
  else .int

/-- The character begins a value of a kind, and no value ends with it and nothing else. -/
def Opens (c : CodePoint) (kind : Kind) : Prop :=
  kindOf c = kind ∧ c ≠ ord ',' ∧ c ≠ ord ']' ∧ c ≠ ord '\x7d'

instance (c : CodePoint) (kind : Kind) : Decidable (Opens c kind) := inferInstanceAs (Decidable (_ ∧ _))

/-- `-` and the digits. -/
def IsNumeral (c : CodePoint) : Prop := c = ord '-' ∨ ord '0' ≤ c ∧ c ≤ ord '9'

instance : DecidablePred IsNumeral := fun _ => inferInstanceAs (Decidable (_ ∨ _))

theorem IsNumeral.opens {c : CodePoint} (h : IsNumeral c) : Opens c .int := by
  rcases h with rfl | ⟨hlow, hhigh⟩
  · decide
  · have hdigit : ∀ (n : ℕ) (h : n < 10), Opens ⟨48 + n, by omega⟩ .int := by decide
    have hlow : 48 ≤ c.val := hlow
    have hhigh : c.val ≤ 57 := hhigh
    convert hdigit (c.val - 48) (by omega)
    omega

theorem str_injective : Function.Injective str := by
  intro s t h
  have hord : Function.Injective ord := fun a b hab => Char.ext (UInt32.toNat_inj.mp (Fin.mk.inj hab))
  exact String.toList_injective (List.map_injective_iff.mpr hord h)

theorem str_toString_digits (n : ℕ) : ∀ c ∈ str (toString n), ord '0' ≤ c ∧ c ≤ ord '9' := by
  intro c hc
  obtain ⟨d, hd, rfl⟩ := List.mem_map.mp hc
  rw [Nat.toString_eq_repr, Nat.toList_repr] at hd
  have hdigit := Nat.isDigit_of_mem_toDigits (by decide) (by decide) hd
  simp only [Char.isDigit, Bool.and_eq_true, decide_eq_true_eq] at hdigit
  exact hdigit

theorem str_toString_ne (n m : ℕ) : str (toString n) ≠ ord '-' :: str (toString m) := by
  intro h
  have hminus := (str_toString_digits n (ord '-') (h ▸ List.mem_cons_self ..)).1
  exact absurd hminus (by decide)

theorem numeral_isNumeral (n : ℤ) : ∀ c ∈ numeral n, IsNumeral c := by
  cases n with
  | ofNat m => exact fun c hc => .inr (str_toString_digits m c hc)
  | negSucc m =>
      exact List.forall_mem_cons.mpr ⟨.inl rfl, fun c hc => .inr (str_toString_digits (m + 1) c hc)⟩

theorem numeral_ne_nil (n : ℤ) : numeral n ≠ [] := by
  cases n with
  | ofNat m =>
      rw [numeral, str, Nat.toString_eq_repr, Nat.toList_repr]
      exact fun h => Nat.toDigits_ne_nil (List.map_eq_nil_iff.mp h)
  | negSucc m => exact List.cons_ne_nil _ _

theorem numeral_injective : Function.Injective numeral := by
  intro n m h
  cases n with
  | ofNat n =>
      cases m with
      | ofNat m => exact congrArg Int.ofNat (toString_injective (str_injective h))
      | negSucc m => exact absurd h (str_toString_ne n (m + 1))
  | negSucc n =>
      cases m with
      | ofNat m => exact absurd h.symm (str_toString_ne m (n + 1))
      | negSucc m =>
          have hsucc := toString_injective (str_injective (List.cons.inj h).2)
          exact congrArg Int.negSucc (Nat.succ.inj hsucc)

/-- A text of one kind of characters ends where another begins. -/
theorem append_inj_of_forall {p : CodePoint → Prop} {s t rest rest' : Str} (hs : ∀ c ∈ s, p c)
    (ht : ∀ c ∈ t, p c) (hrest : ∀ c ∈ rest.head?, ¬p c) (hrest' : ∀ c ∈ rest'.head?, ¬p c)
    (h : s ++ rest = t ++ rest') : s = t ∧ rest = rest' := by
  induction s generalizing t with
  | nil =>
      cases t with
      | nil => exact ⟨rfl, h⟩
      | cons d t =>
          obtain rfl : rest = d :: (t ++ rest') := h
          exact absurd (ht d (List.mem_cons_self ..)) (hrest d rfl)
  | cons c s ih =>
      cases t with
      | nil =>
          obtain rfl : c :: (s ++ rest) = rest' := h
          exact absurd (hs c (List.mem_cons_self ..)) (hrest' c rfl)
      | cons d t =>
          obtain ⟨rfl, htail⟩ := List.cons.inj h
          obtain ⟨rfl, hrest⟩ := ih (List.forall_mem_cons.mp hs).2 (List.forall_mem_cons.mp ht).2 htail
          exact ⟨rfl, hrest⟩

theorem quoted_inj {s t : String} {rest rest' : Str} (h : quoted s ++ rest = quoted t ++ rest') :
    s = t ∧ rest = rest' := by
  have hread (s : String) (rest : Str) :
      scanString ((quoted s ++ rest).drop 1) = some (str s, rest) := by
    have hapart : joined (str s) = str s := (joined_eq_self_iff _).mpr (surrogatesApart_map_ord _)
    rw [quoted, List.cons_append, List.drop_one, List.tail_cons, List.append_assoc, List.singleton_append,
      scanString_escape, hapart]
  have hboth : some (str s, rest) = some (str t, rest') := by rw [← hread, h, hread]
  obtain ⟨hstr, hrest⟩ := Prod.mk.inj (Option.some.inj hboth)
  exact ⟨str_injective hstr, hrest⟩

/-- The first character of a text tells its kind. -/
theorem dumps_kind (v : Json) : ∃ c s, dumps v = c :: s ∧ Opens c v.kind := by
  cases v with
  | null => exact ⟨ord 'n', str "ull", by rfl, by decide⟩
  | bool b =>
      cases b with
      | false => exact ⟨ord 'f', str "alse", by rfl, by decide⟩
      | true => exact ⟨ord 't', str "rue", by rfl, by decide⟩
  | int n =>
      obtain ⟨c, s, hn⟩ := List.exists_cons_of_ne_nil (numeral_ne_nil n)
      exact ⟨c, s, hn, (numeral_isNumeral n c (hn ▸ List.mem_cons_self ..)).opens⟩
  | text s => exact ⟨quote, _, rfl, (by decide : Opens quote .text)⟩
  | list items =>
      rw [dumps]
      cases dumpsItems items with
      | nil => exact ⟨_, _, rfl, (by decide : Opens (ord '[') .list)⟩
      | cons part parts => exact ⟨_, _, rfl, (by decide : Opens (ord '[') .list)⟩
  | dict members =>
      rw [dumps]
      cases dumpsMembers members with
      | nil => exact ⟨_, _, rfl, (by decide : Opens (ord '\x7b') .dict)⟩
      | cons part parts => exact ⟨_, _, rfl, (by decide : Opens (ord '\x7b') .dict)⟩

theorem dumps_begins (v : Json) : Begins (dumps v) := by
  obtain ⟨c, s, hv, -, hends⟩ := dumps_kind v
  exact ⟨c, s, hv, hends⟩

theorem dumpsMember_begins (member : String × Json) : Begins (dumpsMember member) :=
  ⟨quote, _, rfl, by decide⟩

theorem stops_bracket : Stops [ord ']'] := by
  rintro c ⟨⟩
  exact .inr (.inl rfl)

theorem stops_brace : Stops [ord '\x7d'] := by
  rintro c ⟨⟩
  exact .inr (.inr rfl)

theorem kind_eq {v w : Json} {rest rest' : Str} (h : dumps v ++ rest = dumps w ++ rest') :
    v.kind = w.kind := by
  obtain ⟨c, s, hv, hopens⟩ := dumps_kind v
  obtain ⟨c', s', hw, hopens'⟩ := dumps_kind w
  rw [hv, hw] at h
  obtain rfl := (List.cons.inj h).1
  exact hopens.1.symm.trans hopens'.1

theorem int_isCode (n : ℤ) : IsCode dumps (.int n) := by
  intro w rest rest' hrest hrest' h
  have hstop {rest : Str} (hrest : Stops rest) : ∀ c ∈ rest.head?, ¬IsNumeral c := by
    intro c hc
    rcases hrest c hc with rfl | rfl | rfl <;> decide
  cases w with
  | int m =>
      obtain ⟨hnumeral, rfl⟩ := append_inj_of_forall (numeral_isNumeral n) (numeral_isNumeral m)
        (hstop hrest) (hstop hrest') h
      exact ⟨congrArg Json.int (numeral_injective hnumeral), rfl⟩
  | _ => cases kind_eq h

theorem member_isCode {key : String} {v : Json} (hv : IsCode dumps v) : IsCode dumpsMember (key, v) := by
  rintro ⟨key', w⟩ rest rest' hrest hrest' h
  simp only [dumpsMember, List.append_assoc, List.cons_append] at h
  obtain ⟨rfl, hvalue⟩ := quoted_inj h
  obtain ⟨rfl, hrest⟩ := hv w rest rest' hrest hrest' (List.cons.inj hvalue).2
  exact ⟨rfl, hrest⟩

mutual

/-- By recursion on the value. -/
theorem dumps_isCode : (v : Json) → IsCode dumps v
  | .null => fun w rest rest' _ _ h => by
      cases w with
      | null => exact ⟨rfl, List.append_cancel_left h⟩
      | _ => cases kind_eq h
  | .bool b => fun w rest rest' _ _ h => by
      cases w with
      | bool b' =>
          cases b <;> cases b'
          · exact ⟨rfl, List.append_cancel_left h⟩
          · exact absurd (List.cons.inj h).1 (by decide)
          · exact absurd (List.cons.inj h).1 (by decide)
          · exact ⟨rfl, List.append_cancel_left h⟩
      | _ => cases kind_eq h
  | .int n => int_isCode n
  | .text s => fun w rest rest' _ _ h => by
      cases w with
      | text t =>
          obtain ⟨rfl, hrest⟩ := quoted_inj h
          exact ⟨rfl, hrest⟩
      | _ => cases kind_eq h
  | .list items => fun w rest rest' _ _ h => by
      cases w with
      | list items' =>
          rw [dumps, dumps, dumpsItems_eq, dumpsItems_eq] at h
          obtain ⟨rfl, hrest⟩ := enclosed_inj stops_bracket (by decide) dumps_begins (items_isCode items) h
          exact ⟨rfl, hrest⟩
      | _ => cases kind_eq h
  | .dict members => fun w rest rest' _ _ h => by
      cases w with
      | dict members' =>
          rw [dumps, dumps, dumpsMembers_eq, dumpsMembers_eq] at h
          obtain ⟨rfl, hrest⟩ :=
            enclosed_inj stops_brace (by decide) dumpsMember_begins (members_isCode members) h
          exact ⟨rfl, hrest⟩
      | _ => cases kind_eq h

theorem items_isCode : (items : List Json) → ∀ v ∈ items, IsCode dumps v
  | [] => List.forall_mem_nil _
  | item :: items => List.forall_mem_cons.mpr ⟨dumps_isCode item, items_isCode items⟩

theorem members_isCode : (members : List (String × Json)) → ∀ m ∈ members, IsCode dumpsMember m
  | [] => List.forall_mem_nil _
  | (_, v) :: members =>
      List.forall_mem_cons.mpr ⟨member_isCode (dumps_isCode v), members_isCode members⟩

end

theorem dumps_injective : Function.Injective dumps := by
  intro v w h
  have hstops : Stops [] := fun c hc => by cases hc
  exact (dumps_isCode v w [] [] hstops hstops (by rw [h])).1

/-! ## The order of members -/

mutual

/-- `sort_keys=True`: the members of every object in the order of their keys. -/
def sorted : Json → Json
  | .null => .null
  | .bool value => .bool value
  | .int value => .int value
  | .text value => .text value
  | .list items => .list (sortedItems items)
  | .dict members => .dict ((sortedMembers members).insertionSort fun a b => a.1 ≤ b.1)

def sortedItems : List Json → List Json
  | [] => []
  | item :: items => item.sorted :: sortedItems items

def sortedMembers : List (String × Json) → List (String × Json)
  | [] => []
  | (key, value) :: members => (key, value.sorted) :: sortedMembers members

end

theorem sortedItems_eq (items : List Json) : sortedItems items = items.map sorted := by
  induction items with
  | nil => rfl
  | cons item items ih => rw [sortedItems, ih, List.map_cons]

theorem sortedMembers_eq (members : List (String × Json)) :
    sortedMembers members = members.map fun m => (m.1, m.2.sorted) := by
  induction members with
  | nil => rfl
  | cons member members ih => rw [sortedMembers, ih, List.map_cons]

/-- Every object has its keys once. -/
inductive Dicts : Json → Prop
  | null : Dicts .null
  | bool (b : Bool) : Dicts (.bool b)
  | int (n : ℤ) : Dicts (.int n)
  | text (s : String) : Dicts (.text s)
  | list {items : List Json} (h : ∀ v ∈ items, Dicts v) : Dicts (.list items)
  | dict {members : List (String × Json)} (hkeys : (members.map Prod.fst).Nodup)
      (h : ∀ m ∈ members, Dicts m.2) : Dicts (.dict members)

/-- The same value: the same members, in whatever order. -/
inductive Same : Json → Json → Prop
  | null : Same .null .null
  | bool (b : Bool) : Same (.bool b) (.bool b)
  | int (n : ℤ) : Same (.int n) (.int n)
  | text (s : String) : Same (.text s) (.text s)
  | list {items items' : List Json} (hlength : items.length = items'.length)
      (h : ∀ (n : ℕ) (v w : Json), items[n]? = some v → items'[n]? = some w → Same v w) :
      Same (.list items) (.list items')
  | dict {members members' : List (String × Json)}
      (hkeys : ∀ key, key ∈ members.map Prod.fst ↔ key ∈ members'.map Prod.fst)
      (h : ∀ key v w, (key, v) ∈ members → (key, w) ∈ members' → Same v w) :
      Same (.dict members) (.dict members')

section Order

variable {α : Type} {members members' : List (String × α)}

/-- A member is told by its key. -/
theorem eq_of_key (hkeys : (members.map Prod.fst).Nodup) {key : String} {a a' : α} (h : (key, a) ∈ members)
    (h' : (key, a') ∈ members) : a = a' :=
  (Prod.mk.inj (List.inj_on_of_nodup_map hkeys h h' rfl)).2

theorem sort_eq_iff_perm (hkeys : (members.map Prod.fst).Nodup) :
    members.insertionSort (fun a b => a.1 ≤ b.1) = members'.insertionSort (fun a b => a.1 ≤ b.1) ↔
      members.Perm members' := by
  have hperm (l : List (String × α)) := List.perm_insertionSort (fun a b : String × α => a.1 ≤ b.1) l
  constructor
  · intro h
    exact (hperm members).symm.trans (h ▸ hperm members')
  · intro h
    refine List.Perm.eq_of_pairwise ?_ (List.pairwise_insertionSort _ _) (List.pairwise_insertionSort _ _)
      ((hperm members).trans (h.trans (hperm members').symm))
    rintro ⟨key, a⟩ ⟨key', a'⟩ ha ha' hle hge
    obtain rfl : key = key' := le_antisymm hle hge
    exact congrArg _ (eq_of_key hkeys ((hperm members).mem_iff.mp ha)
      (h.mem_iff.mpr ((hperm members').mem_iff.mp ha')))

end Order

/-- The members of an object that has the keys of another, and the same values in order. -/
theorem sortedMembers_subset {members members' : List (String × Json)}
    (hkeys : ∀ key, key ∈ members.map Prod.fst → key ∈ members'.map Prod.fst)
    (h : ∀ key v w, (key, v) ∈ members → (key, w) ∈ members' → v.sorted = w.sorted) :
    sortedMembers members ⊆ sortedMembers members' := by
  intro member hmember
  rw [sortedMembers_eq] at hmember ⊢
  obtain ⟨⟨key, v⟩, hv, rfl⟩ := List.mem_map.mp hmember
  obtain ⟨⟨key', w⟩, hw, rfl⟩ := List.mem_map.mp (hkeys key (List.mem_map_of_mem hv))
  exact List.mem_map.mpr ⟨(key', w), hw, by rw [h key' v w hv hw]⟩

theorem sortedMembers_keys (members : List (String × Json)) :
    (sortedMembers members).map Prod.fst = members.map Prod.fst := by
  rw [sortedMembers_eq, List.map_map]
  rfl

/-- By induction on how the values are the same. -/
theorem Same.sorted_eq {v w : Json} (h : Same v w) (hv : v.Dicts) (hw : w.Dicts) : v.sorted = w.sorted := by
  induction h with
  | null | bool | int | text => rfl
  | @list items items' hlength _ ih =>
      cases hv with | list hitems => cases hw with | list hitems' =>
      rw [sorted, sorted, sortedItems_eq, sortedItems_eq]
      refine congrArg Json.list (List.ext_getElem (by simpa using hlength) fun n hn hn' => ?_)
      rw [List.length_map] at hn hn'
      rw [List.getElem_map, List.getElem_map]
      exact ih n _ _ (List.getElem?_eq_getElem hn) (List.getElem?_eq_getElem hn')
        (hitems _ (List.getElem_mem hn)) (hitems' _ (List.getElem_mem hn'))
  | @dict members members' hkeys _ ih =>
      cases hv with | dict hnodup hmembers => cases hw with | dict hnodup' hmembers' =>
      have hvalues : ∀ key v w, (key, v) ∈ members → (key, w) ∈ members' → v.sorted = w.sorted :=
        fun key v w hv hw => ih key v w hv hw (hmembers _ hv) (hmembers' _ hw)
      rw [← sortedMembers_keys] at hnodup hnodup'
      rw [sorted, sorted]
      refine congrArg Json.dict ((sort_eq_iff_perm hnodup).mpr ?_)
      refine (List.perm_ext_iff_of_nodup hnodup.of_map hnodup'.of_map).mpr fun member => ⟨?_, ?_⟩
      · exact fun hmember => sortedMembers_subset (fun key => (hkeys key).mp) hvalues hmember
      · exact fun hmember => sortedMembers_subset (fun key => (hkeys key).mpr)
          (fun key w v hw hv => (hvalues key v w hv hw).symm) hmember

/-- By induction on the objects of one of the values. -/
theorem same_of_sorted_eq {v w : Json} (hv : v.Dicts) (hw : w.Dicts) (h : v.sorted = w.sorted) :
    Same v w := by
  induction hv generalizing w with
  | null => cases w <;> cases h; exact .null
  | bool b => cases w <;> cases h; exact .bool b
  | int n => cases w <;> cases h; exact .int n
  | text s => cases w <;> cases h; exact .text s
  | @list items hitems ih =>
      cases hw with
      | @list items' hitems' =>
          rw [sorted, sorted, sortedItems_eq, sortedItems_eq, Json.list.injEq] at h
          refine .list (by simpa using congrArg List.length h) fun n v w hv hw => ?_
          refine ih v (List.mem_of_getElem? hv) (hitems' w (List.mem_of_getElem? hw)) ?_
          have hn := congrArg (·[n]?) h
          simpa [hv, hw] using hn
      | _ => cases h
  | @dict members hnodup hmembers ih =>
      cases hw with
      | @dict members' hnodup' hmembers' =>
          rw [sorted, sorted, Json.dict.injEq, sort_eq_iff_perm (by rwa [sortedMembers_keys])] at h
          have hkeys := h.map Prod.fst
          rw [sortedMembers_keys, sortedMembers_keys] at hkeys
          refine .dict (fun key => hkeys.mem_iff) fun key v w hv hw => ?_
          refine ih _ hv (hmembers' _ hw) ?_
          have hmem : (key, v.sorted) ∈ sortedMembers members' := by
            rw [← h.mem_iff, sortedMembers_eq]
            exact List.mem_map.mpr ⟨(key, v), hv, rfl⟩
          rw [sortedMembers_eq] at hmem
          obtain ⟨⟨key', w'⟩, hw', heq⟩ := List.mem_map.mp hmem
          obtain ⟨rfl, hsorted⟩ := Prod.mk.inj heq
          rw [eq_of_key hnodup' hw hw', hsorted]
      | _ => cases h

/-- With the members in order, two texts are the same exactly when the values are. -/
theorem dumps_sorted_eq_iff {v w : Json} (hv : v.Dicts) (hw : w.Dicts) :
    dumps v.sorted = dumps w.sorted ↔ Same v w :=
  ⟨fun h => same_of_sorted_eq hv hw (dumps_injective h), fun h => by rw [h.sorted_eq hv hw]⟩

/-! ## Bytes -/

theorem plain_of_all {s : Str} (h : s.all fun c => IsPlain c) : ∀ c ∈ s, IsPlain c :=
  fun c hc => of_decide_eq_true (List.all_eq_true.mp h c hc)

theorem closing_plain {last : CodePoint} {parts : List Str} (hlast : IsPlain last)
    (h : ∀ part ∈ parts, ∀ c ∈ part, IsPlain c) : ∀ c ∈ closing last parts, IsPlain c := by
  induction parts with
  | nil => exact (List.forall_mem_singleton).mpr hlast
  | cons part parts ih =>
      obtain ⟨hpart, hparts⟩ := List.forall_mem_cons.mp h
      rw [closing, List.forall_mem_cons, List.forall_mem_append]
      exact ⟨by decide, hpart, ih hparts⟩

theorem enclosed_plain {first last : CodePoint} {parts : List Str} (hfirst : IsPlain first)
    (hlast : IsPlain last) (h : ∀ part ∈ parts, ∀ c ∈ part, IsPlain c) :
    ∀ c ∈ enclosed first last parts, IsPlain c := by
  cases parts with
  | nil => exact List.forall_mem_cons.mpr ⟨hfirst, List.forall_mem_singleton.mpr hlast⟩
  | cons part parts =>
      obtain ⟨hpart, hparts⟩ := List.forall_mem_cons.mp h
      rw [enclosed, List.forall_mem_cons, List.forall_mem_append]
      exact ⟨hfirst, hpart, closing_plain hlast hparts⟩

theorem quoted_plain (s : String) : ∀ c ∈ quoted s, IsPlain c := by
  rw [quoted, List.forall_mem_cons, List.forall_mem_append, List.forall_mem_singleton]
  exact ⟨by decide, escape_plain _, by decide⟩

theorem IsNumeral.plain {c : CodePoint} (h : IsNumeral c) : IsPlain c := by
  rcases h with rfl | ⟨hlow, hhigh⟩
  · decide
  · have hlow : 48 ≤ c.val := hlow
    have hhigh : c.val ≤ 57 := hhigh
    exact ⟨by omega, by omega⟩

mutual

/-- The text is ASCII. -/
theorem dumps_plain : (v : Json) → ∀ c ∈ dumps v, IsPlain c
  | .null => plain_of_all (by decide)
  | .bool true => plain_of_all (by decide)
  | .bool false => plain_of_all (by decide)
  | .int n => fun c hc => (numeral_isNumeral n c hc).plain
  | .text s => quoted_plain s
  | .list items => enclosed_plain (by decide) (by decide) (items_plain items)
  | .dict members => enclosed_plain (by decide) (by decide) (members_plain members)

theorem items_plain : (items : List Json) → ∀ part ∈ dumpsItems items, ∀ c ∈ part, IsPlain c
  | [] => List.forall_mem_nil _
  | item :: items => List.forall_mem_cons.mpr ⟨dumps_plain item, items_plain items⟩

theorem members_plain :
    (members : List (String × Json)) → ∀ part ∈ dumpsMembers members, ∀ c ∈ part, IsPlain c
  | [] => List.forall_mem_nil _
  | (key, v) :: members => by
      have hvalue : ∀ c ∈ ord ':' :: dumps v, IsPlain c :=
        List.forall_mem_cons.mpr ⟨by decide, dumps_plain v⟩
      exact List.forall_mem_cons.mpr
        ⟨List.forall_mem_append.mpr ⟨quoted_plain key, hvalue⟩, members_plain members⟩

end

theorem encodeUtf8_dumps (v : Json) :
    ∃ bytes, encodeUtf8 (dumps v) = some bytes ∧ decodeUtf8 bytes = some (dumps v) :=
  ⟨_, encodeUtf8_plain (dumps_plain v), decodeUtf8_plain (dumps_plain v)⟩

end Json

end Foundations
