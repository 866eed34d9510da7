import Nexora.Core.Context
import Nexora.Foundations.Forest
import Nexora.Foundations.Interleaving

/-!
# The tree of categories

`create_category` and `update_category` of `app/modules/catalog/service.py`, statement by
statement.  Both read the chain of parents of the new parent, one category after the other and
without locks, and refuse a chain of five.  A move locks the category it moves, and refuses a chain
in which that category occurs.  The foreign key takes a share of the new parent when the row is
written.

`category_tree` says when the tree keeps its shape: the chain must still be what was read when the
category is written, and what hangs below a category that is moved must fit below that chain.
Two moves at once make a cycle, and one move is enough for a sixth level (`category_tree_broken`).
-/

namespace Nexora.Catalog.Categories

open Nexora Foundations

/-! ## Tables -/

/-- `Category`. -/
structure Category where
  id : Uuid
  name : String
  parentId : Option Uuid
  description : Option String
  isActive : Bool
deriving DecidableEq

abbrev CategoryDb := Table Category.id

/-- The parent of a category. -/
def parentOf (db : CategoryDb) (id : Uuid) : Option Uuid := (db.get id).bind Category.parentId

/-- `UNIQUE NULLS NOT DISTINCT (tenant_id, parent_id, name)`, as a row comes beside the others. -/
def nameFree (db : CategoryDb) (category : Category) : Bool :=
  db.rows.all fun row => row.id = category.id ∨ ¬(row.parentId = category.parentId ∧
    row.name = category.name)

/-- The foreign key on `parent_id`. -/
def parentExists (db : CategoryDb) (category : Category) : Bool :=
  category.parentId.all fun parentId => db.get parentId ≠ none

/-- `category_parent_chain`.  Nothing is returned where the loop goes on for more than so many
passes. -/
def categoryParentChain (db : CategoryDb) : Nat → Option Uuid → Option (List Category)
  | _, none => some []
  | 0, some _ => none
  | fuel + 1, some currentId =>
      match db.get currentId with
      | none => some []
      | some current => (categoryParentChain db fuel current.parentId).map (current :: ·)

/-! ## Requests -/

/-- `CategoryCreate`, with the identifier that is drawn. -/
structure CategoryCreate where
  id : Uuid
  name : String
  parentId : Option Uuid
  description : Option String

/-- `CategoryUpdate`.  A field that was not sent is `none`. -/
structure CategoryUpdate where
  name : Option String
  parentId : Option (Option Uuid)
  description : Option (Option String)
  isActive : Option Bool

def CategoryCreate.category (payload : CategoryCreate) : Category where
  id := payload.id
  name := payload.name
  parentId := payload.parentId
  description := payload.description
  isActive := true

/-- `for field, value in changes.items(): setattr(category, field, value)`. -/
def CategoryUpdate.apply (payload : CategoryUpdate) (category : Category) : Category where
  id := category.id
  name := payload.name.getD category.name
  parentId := payload.parentId.getD category.parentId
  description := payload.description.getD category.description
  isActive := payload.isActive.getD category.isActive

inductive Request where
  | create (payload : CategoryCreate)
  | update (categoryId : Uuid) (payload : CategoryUpdate)

/-- Where a request stands: the chain that it has read, and the category it reads next. -/
inductive Phase where
  | createWalk (payload : CategoryCreate) (chain : List Category) (next : Option Uuid)
  | insert (payload : CategoryCreate) (chain : List Category)
  | lock (categoryId : Uuid) (payload : CategoryUpdate)
  | updateWalk (category : Category) (payload : CategoryUpdate) (parentId : Uuid)
      (chain : List Category) (next : Option Uuid)
  | save (category : Category) (payload : CategoryUpdate) (chain : List Category)

/-! ## Statements -/

def start (_ : CategoryDb) : Request → Phase
  | .create payload =>
      match payload.parentId with
      | none => .insert payload []
      | some parentId => .createWalk payload [] (some parentId)
  | .update categoryId payload => .lock categoryId payload

/-- One pass of the loop of `category_parent_chain`. -/
def walk (db : CategoryDb) (chain : List Category) (currentId : Uuid) :
    List Category × Option Uuid :=
  match db.get currentId with
  | none => (chain, none)
  | some current => (chain ++ [current], current.parentId)

/-- The checks of `create_category` on the chain.  A request that raises is over. -/
def checkCreate (payload : CategoryCreate) (chain : List Category) : Option Phase :=
  if chain.head?.map Category.id ≠ payload.parentId then none
  else if 5 ≤ chain.length then none
  else some (.insert payload chain)

/-- `get_reference(..., for_update=True)` of `update_category`. -/
def lockCategory (db : CategoryDb) (categoryId : Uuid) (payload : CategoryUpdate) : Option Phase :=
  match db.get categoryId with
  | none => none
  | some category =>
      match payload.parentId with
      | some (some parentId) => some (.updateWalk category payload parentId [] (some parentId))
      | _ => some (.save category payload [])

/-- The checks of `update_category` on the chain. -/
def checkUpdate (category : Category) (payload : CategoryUpdate) (chain : List Category) :
    Option Phase :=
  if chain = [] ∨ category.id ∈ chain.map Category.id then none
  else if 5 ≤ chain.length then none
  else some (.save category payload chain)

/-- The next statement. -/
def run (db : CategoryDb) : Phase → Unit → Option (CategoryDb × Phase)
  | .createWalk payload chain (some currentId), _ =>
      let (chain, next) := walk db chain currentId
      some (db, .createWalk payload chain next)
  | .createWalk payload chain none, _ => (checkCreate payload chain).map (db, ·)
  | .lock categoryId payload, _ => (lockCategory db categoryId payload).map (db, ·)
  | .updateWalk category payload parentId chain (some currentId), _ =>
      let (chain, next) := walk db chain currentId
      some (db, .updateWalk category payload parentId chain next)
  | .updateWalk category payload _ chain none, _ =>
      (checkUpdate category payload chain).map (db, ·)
  | _, _ => none

/-- The `INSERT` or `UPDATE`, and the commit. -/
def finish (db : CategoryDb) : Phase → Option CategoryDb
  | .insert payload _ =>
      if nameFree db payload.category ∧ parentExists db payload.category then
        db.insert payload.category
      else none
  | .save category payload _ =>
      match db.get category.id with
      | none => none
      | some row =>
          if nameFree db (payload.apply row) ∧ parentExists db (payload.apply row) then
            some (db.put (payload.apply row))
          else none
  | _ => none

/-- The lock of the foreign key, where it has to look for the parent. -/
def parentLock (parentId : Option Uuid) : List (Uuid × LockMode) :=
  parentId.toList.map fun parentId => (parentId, .keyShare)

/-- The row locks: `FOR UPDATE` on the category, and that of the foreign key. -/
def locks : Phase → List (Uuid × LockMode)
  | .insert payload _ => parentLock payload.parentId
  | .updateWalk category _ _ _ _ => [(category.id, .update)]
  | .save category payload _ =>
      (category.id, .update) ::
        if (payload.apply category).parentId = category.parentId then []
        else parentLock (payload.apply category).parentId
  | _ => []

/-- Requests that create and change categories. -/
def protocol : Protocol CategoryDb Request Phase Unit Uuid where
  start := start
  run := run
  finish := finish
  locks := locks

/-! ## The shape of the tree -/

/-- The levels of the tree. -/
def maxDepth : Nat := 5

def childrenOf (db : CategoryDb) (id : Uuid) : List Uuid :=
  (db.rows.filter fun row => row.parentId = some id).map Category.id

/-- When a category is written, the chain above it is the one that was read, and what hangs below
it fits below that chain. -/
def Fits (db : CategoryDb) : Phase → Prop
  | .insert payload chain => ∀ parentId ∈ payload.parentId,
      path (parentOf db) maxDepth (some parentId) = some (chain.map Category.id)
  | .save category payload chain => ∀ parentId ∈ payload.parentId.join,
      path (parentOf db) maxDepth (some parentId) = some (chain.map Category.id) ∧
        levelsFit (childrenOf db) (maxDepth - chain.length) category.id
  | _ => True

instance (db : CategoryDb) (phase : Phase) : Decidable (Fits db phase) := by
  cases phase with
  | insert payload chain =>
      exact inferInstanceAs (Decidable (∀ parentId ∈ payload.parentId, _))
  | save category payload chain =>
      exact inferInstanceAs (Decidable (∀ parentId ∈ payload.parentId.join, _ ∧ _))
  | _ => exact .isTrue trivial

/-- The tree has no cycle and five levels, and every parent is there. -/
structure Tree (db : CategoryDb) : Prop where
  bounded : Bounded (parentOf db) maxDepth
  linked : ∀ row ∈ db.rows, ∀ parentId ∈ row.parentId, db.get parentId ≠ none

/-- What the checks of a request have established. -/
def Checked : Phase → Prop
  | .insert payload chain => ∀ parentId ∈ payload.parentId, chain.length < maxDepth
  | .updateWalk _ payload parentId _ _ => payload.parentId = some (some parentId)
  | .save category payload chain => ∀ parentId ∈ payload.parentId.join,
      chain.length < maxDepth ∧ category.id ∉ chain.map Category.id
  | _ => True

variable {db db' : CategoryDb}

theorem parentOf_of_mem {row : Category} (hrow : row ∈ db.rows) :
    parentOf db row.id = row.parentId := by
  rw [parentOf, Table.get_eq_some.mpr ⟨hrow, rfl⟩]
  rfl

theorem parentOf_eq_some {id parentId : Uuid} (h : parentOf db id = some parentId) :
    ∃ row ∈ db.rows, row.id = id ∧ row.parentId = some parentId := by
  obtain ⟨row, hget, hparent⟩ := Option.bind_eq_some_iff.mp h
  obtain ⟨hrow, hid⟩ := Table.get_mem hget
  exact ⟨row, hrow, hid, hparent⟩

theorem mem_childrenOf {id parentId : Uuid} (h : parentOf db id = some parentId) :
    id ∈ childrenOf db parentId := by
  obtain ⟨row, hrow, rfl, hparent⟩ := parentOf_eq_some h
  exact List.mem_map_of_mem (List.mem_filter.mpr ⟨hrow, by simpa using hparent⟩)

theorem Tree.exists_of_parentOf (h : Tree db) {id parentId : Uuid}
    (hparent : parentOf db id = some parentId) : db.get parentId ≠ none := by
  obtain ⟨row, hrow, -, hparent⟩ := parentOf_eq_some hparent
  exact h.linked row hrow parentId hparent

theorem parentExists_iff {category : Category} :
    parentExists db category ↔ ∀ parentId ∈ category.parentId, db.get parentId ≠ none := by
  cases hparent : category.parentId with
  | none => simp [parentExists, hparent]
  | some parentId => simp [parentExists, hparent]

/-- A new category. -/
theorem Tree.insert {payload : CategoryCreate} {chain : List Category} (h : Tree db)
    (hchecked : Checked (.insert payload chain)) (hfits : Fits db (.insert payload chain))
    (hexists : parentExists db payload.category)
    (hinsert : db.insert payload.category = some db') : Tree db' := by
  have hget := Table.get_insert hinsert
  have hfresh : db.get payload.id = none := (Table.insert_eq_some hinsert).2
  have hparents : parentOf db' = Function.update (parentOf db) payload.id payload.parentId := by
    funext id
    rw [parentOf, hget, Function.update_apply, apply_ite (fun row => Option.bind row _)]
    rfl
  -- No category has the new one as its parent.
  have hleaf : ∀ id, parentOf db id ≠ some payload.id := fun id heq =>
    h.exists_of_parentOf heq hfresh
  constructor
  · rw [hparents]
    cases hparent : payload.parentId with
    | none => exact h.bounded.toTop payload.id
    | some parentId =>
        obtain ⟨hend, -⟩ := path_eq_some (hfits parentId hparent)
        refine h.bounded.move hend (fun j heq => ?_) (Below.of_leaf hleaf) ?_
        · cases j with
          | zero =>
              have hsame : parentId = payload.id := Option.some_inj.mp heq
              exact parentExists_iff.mp hexists parentId hparent (hsame ▸ hfresh)
          | succ j =>
              obtain ⟨id, -, hid⟩ := Option.bind_eq_some_iff.mp heq
              exact hleaf id hid
        · have hlength := hchecked parentId hparent
          rw [List.length_map]
          omega
  · have hkept : ∀ id, db.get id ≠ none → db'.get id ≠ none := by
      intro id hsome
      rw [hget]
      split
      · exact Option.some_ne_none _
      · exact hsome
    intro row hrow parentId hparent
    rw [(Table.insert_eq_some hinsert).1] at hrow
    rcases List.mem_append.mp hrow with hrow | hrow
    · exact hkept parentId (h.linked row hrow parentId hparent)
    · cases List.mem_singleton.mp hrow
      exact hkept parentId (parentExists_iff.mp hexists parentId hparent)

/-- A category that is changed, and with it what hangs below it. -/
theorem Tree.save {category row : Category} {payload : CategoryUpdate} {chain : List Category}
    (h : Tree db) (hchecked : Checked (.save category payload chain))
    (hfits : Fits db (.save category payload chain)) (hrow : db.get category.id = some row)
    (hexists : parentExists db (payload.apply row)) : Tree (db.put (payload.apply row)) := by
  obtain ⟨hmem, hid⟩ := Table.get_mem hrow
  have hparents : parentOf (db.put (payload.apply row)) =
      Function.update (parentOf db) category.id (payload.apply row).parentId := by
    funext id
    rw [parentOf, Table.get_put, Function.update_apply, apply_ite (fun row => Option.bind row _),
      ← hid]
    rfl
  constructor
  · rw [hparents]
    cases hpayload : payload.parentId with
    | none =>
        -- The parent is left as it is.
        have hsame : (payload.apply row).parentId = parentOf db category.id := by
          rw [← hid, parentOf_of_mem hmem, CategoryUpdate.apply, hpayload]
          rfl
        rw [hsame, Function.update_eq_self]
        exact h.bounded
    | some parent =>
        have happly : (payload.apply row).parentId = parent := by
          rw [CategoryUpdate.apply, hpayload]
          rfl
        rw [happly]
        cases parent with
        | none => exact h.bounded.toTop category.id
        | some parentId =>
            have hparent : parentId ∈ payload.parentId.join := by simp [hpayload]
            obtain ⟨hpath, hlevels⟩ := hfits parentId hparent
            obtain ⟨hlength, hnot⟩ := hchecked parentId hparent
            obtain ⟨hend, hpathMem⟩ := path_eq_some hpath
            refine h.bounded.move hend (fun j heq => hnot (hpathMem j category.id heq))
              (below_of_levelsFit (fun _ _ => mem_childrenOf) hlevels) ?_
            rw [List.length_map]
            omega
  · have hkept : ∀ id, db.get id ≠ none → (db.put (payload.apply row)).get id ≠ none := by
      intro id hsome
      rw [Table.get_put]
      split
      · exact Option.some_ne_none _
      · exact hsome
    intro row' hrow' parentId hparent
    rcases Table.mem_put.mp hrow' with ⟨hrow', -⟩ | rfl
    · exact hkept parentId (h.linked row' hrow' parentId hparent)
    · exact hkept parentId (parentExists_iff.mp hexists parentId hparent)

/-! ## The rule -/

theorem Checked.run {phase phase' : Phase} (h : Checked phase)
    (hrun : Categories.run db phase () = some (db', phase')) : db' = db ∧ Checked phase' := by
  cases phase with
  | createWalk payload chain next =>
      cases next with
      | some currentId =>
          cases hrun
          exact ⟨rfl, trivial⟩
      | none =>
          obtain ⟨phase, hphase, heq⟩ := Option.map_eq_some_iff.mp hrun
          cases heq
          simp only [checkCreate] at hphase
          split at hphase
          next => cases hphase
          next =>
            split at hphase
            next => cases hphase
            next hlength =>
              cases hphase
              exact ⟨rfl, fun _ _ => Nat.lt_of_not_le hlength⟩
  | lock categoryId payload =>
      obtain ⟨phase, hphase, heq⟩ := Option.map_eq_some_iff.mp hrun
      cases heq
      unfold lockCategory at hphase
      split at hphase
      next => cases hphase
      next category _ =>
        split at hphase
        next parentId hparent =>
          cases hphase
          exact ⟨rfl, hparent⟩
        next hparent =>
          cases hphase
          refine ⟨rfl, fun parentId hmem => ?_⟩
          exact absurd (Option.join_eq_some_iff.mp hmem) (hparent parentId)
  | updateWalk category payload parentId chain next =>
      cases next with
      | some currentId =>
          cases hrun
          exact ⟨rfl, h⟩
      | none =>
          obtain ⟨phase, hphase, heq⟩ := Option.map_eq_some_iff.mp hrun
          cases heq
          simp only [checkUpdate] at hphase
          split at hphase
          next => cases hphase
          next hnot =>
            split at hphase
            next => cases hphase
            next hlength =>
              cases hphase
              exact ⟨rfl, fun _ _ => ⟨Nat.lt_of_not_le hlength, fun hmem => hnot (.inr hmem)⟩⟩
  | _ => cases hrun

theorem Tree.finish {phase : Phase} (h : Tree db) (hchecked : Checked phase) (hfits : Fits db phase)
    (hfinish : Categories.finish db phase = some db') : Tree db' := by
  cases phase with
  | insert payload chain =>
      simp only [Categories.finish] at hfinish
      split at hfinish
      next hconstraints => exact h.insert hchecked hfits hconstraints.2 hfinish
      next => cases hfinish
  | save category payload chain =>
      simp only [Categories.finish] at hfinish
      split at hfinish
      next => cases hfinish
      next row hrow =>
        split at hfinish
        next hconstraints =>
          cases hfinish
          exact h.save hchecked hfits hrow hconstraints.2
        next => cases hfinish
  | _ => cases hfinish

theorem sound : protocol.Sound Fits Tree fun _ => Checked where
  start db request _ := by
    cases request with
    | create payload =>
        show Checked (match payload.parentId with | none => _ | some _ => _)
        split
        next hparent => exact fun parentId hmem => by simp [hparent] at hmem
        next => exact trivial
    | update categoryId payload => exact trivial
  run _ _ _ _ _ h hchecked hrun := by
    obtain ⟨rfl, hchecked⟩ := Checked.run hchecked hrun
    exact ⟨h, hchecked⟩
  run_stable _ _ _ _ _ _ _ _ hother _ := hother
  finish _ _ _ h hchecked hfits hfinish := h.finish hchecked hfits hfinish
  finish_stable _ _ _ _ _ _ _ hother _ _ := hother

/-! ## The loop -/

@[simp] theorem categoryParentChain_none (n : Nat) : categoryParentChain db n none = some [] := by
  cases n with
  | zero => rfl
  | succ n => rfl

/-- The loop of `category_parent_chain` ends where the way up ends. -/
theorem exists_categoryParentChain {n : Nat} {id : Uuid} (h : ancestor (parentOf db) n id = none) :
    ∃ chain, categoryParentChain db n (some id) = some chain := by
  induction n generalizing id with
  | zero => cases h
  | succ n ih =>
      rw [categoryParentChain]
      cases hget : db.get id with
      | none => exact ⟨[], rfl⟩
      | some category =>
          cases hparent : category.parentId with
          | none => exact ⟨[category], by simp [hparent]⟩
          | some parentId =>
              rw [ancestor_succ', parentOf, hget, Option.bind_some, hparent] at h
              obtain ⟨chain, hchain⟩ := ih h
              exact ⟨category :: chain, by simp [hparent, hchain]⟩

theorem length_categoryParentChain {n : Nat} {next : Option Uuid} {chain : List Category}
    (h : categoryParentChain db n next = some chain) : chain.length ≤ n := by
  induction n generalizing next chain with
  | zero =>
      cases next with
      | none =>
          cases h
          exact Nat.le_refl 0
      | some id => cases h
  | succ n ih =>
      cases next with
      | none =>
          cases h
          exact Nat.zero_le _
      | some id =>
          rw [categoryParentChain] at h
          split at h
          · cases h
            exact Nat.zero_le _
          · obtain ⟨rest, hrest, rfl⟩ := Option.map_eq_some_iff.mp h
            exact Nat.succ_le_succ (ih hrest)

/-- In every interleaving of requests that create and change categories, if each category is
written below the chain that was read, and with what hangs below it fits there, then no category
is above itself, none is deeper than five levels, and the loop over the parents ends from each. -/
theorem category_tree {s : Interleaved CategoryDb Phase}
    (h : protocol.Runs Fits (Protocol.init (.empty _)) s) (id : Uuid) :
    (∀ i, 0 < i → ancestor (parentOf s.committed) i id ≠ some id) ∧
      ∃ chain, categoryParentChain s.committed 5 (some id) = some chain ∧ chain.length ≤ 5 := by
  have hempty : Tree (.empty Category.id) := by
    refine ⟨fun id => ?_, nofun⟩
    exact ancestor_eq_none_of_le (m := 1) rfl (by decide)
  have htree := (sound.runs h (.init hempty)).committed
  refine ⟨fun i hi => htree.bounded.acyclic hi id, ?_⟩
  obtain ⟨chain, hchain⟩ := exists_categoryParentChain (htree.bounded id)
  exact ⟨chain, hchain, length_categoryParentChain hchain⟩

/-! ## Two moves at once, and one move -/

def adds (id : Uuid) (parentId : Option Uuid) : Request := .create ⟨id, toString id, parentId, none⟩

def moves (id parentId : Uuid) : Request := .update id ⟨none, some (some parentId), none, none⟩

/-- A request with its statements. -/
def alone (t : Nat) (statements : Nat) (request : Request) : List (TxAction Request Unit) :=
  .begin t request :: List.replicate statements (.run t ()) ++ [.finish t]

/-- The categories 1 and 2, with 3 under 1 and 4 under 2. -/
def twoPairs : List (TxAction Request Unit) :=
  alone 1 0 (adds 1 none) ++ alone 2 0 (adds 2 none) ++ alone 3 2 (adds 3 (some 1)) ++
    alone 4 2 (adds 4 (some 2))

/-- One after the other, 1 is moved under 4 and its child 3 under 2. -/
def movesInTurn : List (TxAction Request Unit) :=
  twoPairs ++ alone 5 4 (moves 1 4) ++ alone 6 3 (moves 3 2)

theorem category_tree_inTurn : ∃ s : Interleaved CategoryDb Phase,
    protocol.Runs Fits (Protocol.init (.empty _)) s ∧
      s.committed.rows.map (fun row => (row.id, row.parentId)) =
        [(2, none), (4, some 2), (1, some 4), (3, some 2)] ∧
      ∃ chain, categoryParentChain s.committed 5 (some 1) = some chain ∧ chain.length ≤ 5 := by
  have hfacts : (movesInTurn.foldlM (protocol.guarded Fits) (Protocol.init (.empty _))).any fun s =>
      s.committed.rows.map (fun row => (row.id, row.parentId)) =
        [(2, none), (4, some 2), (1, some 4), (3, some 2)] := by decide +kernel
  obtain ⟨s, hruns, hrows⟩ := Protocol.Runs.exists_of_any movesInTurn hfacts
  exact ⟨s, hruns, hrows, (category_tree hruns 1).2⟩

/-- 1 is moved under 4 while 2 is moved under 3. -/
def movesAtOnce : List (TxAction Request Unit) :=
  twoPairs ++ [.begin 5 (moves 1 4), .begin 6 (moves 2 3)] ++
    [.run 5 (), .run 5 (), .run 5 (), .run 5 (), .run 6 (), .run 6 (), .run 6 (), .run 6 ()] ++
    [.finish 5, .finish 6]

/-- 1, 3 under it and 5 under 3, and beside it 2, 4 and 6 and 8, each under the one before; then 1
is moved under 8. -/
def deepMove : List (TxAction Request Unit) :=
  twoPairs ++ alone 5 3 (adds 5 (some 3)) ++ alone 6 3 (adds 6 (some 4)) ++
    alone 8 4 (adds 8 (some 6)) ++ alone 9 6 (moves 1 8)

/-- Two moves at once close a cycle, in which the loop does not end; and one move alone takes a
category to the seventh level. -/
theorem category_tree_broken :
    (∃ s : Interleaved CategoryDb Phase, protocol.Reaches (Protocol.init (.empty _)) s ∧
      ancestor (parentOf s.committed) 4 1 = some 1 ∧
      categoryParentChain s.committed 100 (some 1) = none) ∧
    ∃ s : Interleaved CategoryDb Phase, protocol.Reaches (Protocol.init (.empty _)) s ∧
      categoryParentChain s.committed 5 (some 5) = none ∧
      (categoryParentChain s.committed 7 (some 5)).map List.length = some 7 := by
  constructor
  · have hfacts : (movesAtOnce.foldlM protocol.step (Protocol.init (.empty _))).any fun s =>
        ancestor (parentOf s.committed) 4 1 = some 1 ∧
          categoryParentChain s.committed 100 (some 1) = none := by decide +kernel
    exact Protocol.Reaches.exists_of_any movesAtOnce hfacts
  · have hfacts : (deepMove.foldlM protocol.step (Protocol.init (.empty _))).any fun s =>
        categoryParentChain s.committed 5 (some 5) = none ∧
          (categoryParentChain s.committed 7 (some 5)).map List.length = some 7 := by
      decide +kernel
    exact Protocol.Reaches.exists_of_any deepMove hfacts

end Nexora.Catalog.Categories
