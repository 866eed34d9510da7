import Nexora.Core.RowSecurity

/-!
# Isolation of tenants

Transactions under the policies, each alone.  A transaction runs on the rows of all tenants as it runs on those
that its tenant and user may see (`run_view`), which is why a model of one tenant has the rows of that tenant
only.  What other tenants do to their own rows a tenant neither sees nor learns (`runs_purge`).

The rows that a request may see are more than those of its tenant, though.  `active_owner_count` is an
aggregate, which the tenant guard does not restrict, and so it counts what the caller owns elsewhere
(`activeOwnerCount_mapped`): the last owner of a tenant who owns another one too is not the last for
`_require_another_owner`.
-/

namespace Nexora.RowSecurity

open TenantGuard (Row Value Mapper)

/-! ## Transactions -/

/-- A transaction, from statement to statement.  What a statement returns decides how it goes on. -/
inductive Transaction (Answer : Type) where
  | answer (answer : Answer)
  /-- `set_config(…, true)` -/
  | setConfig (settings : Settings) (next : Transaction Answer)
  /-- A `SELECT`, of whatever the policies show. -/
  | select (next : (TableName → List Row) → Transaction Answer)
  | write (statement : Statement) (next : List Row → Transaction Answer)

section

variable {Answer : Type}

/-- The transaction, alone.  A refused statement rolls it back. -/
def Database.run (db : Database) (settings : Settings) : Transaction Answer → Option (Database × Answer)
  | .answer answer => some (db, answer)
  | .setConfig settings next => db.run settings next
  | .select next => db.run settings (next (db.view settings.observer).tables)
  | .write statement next =>
      match db.exec settings.observer statement with
      | none => none
      | some (db, rows) => db.run settings (next rows)

/-- The transaction sets no tenant, user or token but those of the observer. -/
def Transaction.Within (observer : Observer) : Transaction Answer → Prop
  | .answer _ => True
  | .setConfig settings next => settings.observer.Within observer ∧ next.Within observer
  | .select next => ∀ tables, (next tables).Within observer
  | .write _ next => ∀ rows, (next rows).Within observer

variable {observer : Observer} {settings : Settings} {transaction : Transaction Answer} {db db' : Database}

theorem run_consistent {answer : Answer} (hdb : db.Consistent)
    (h : db.run settings transaction = some (db', answer)) : db'.Consistent := by
  induction transaction generalizing db settings with
  | answer _ =>
      cases h
      exact hdb
  | setConfig _ _ ih => exact ih hdb h
  | select _ ih => exact ih _ hdb h
  | write statement next ih =>
      simp only [Database.run] at h
      split at h
      · cases h
      · rename_i hexec
        exact ih _ (exec_consistent hdb hexec) h

/-- A transaction of a tenant, a user and the holder of a token runs on the rows of all tenants as on the rows
that these may see: it answers the same, and leaves the same of those rows. -/
theorem run_view (hdb : db.Consistent) (hwithin : settings.observer.Within observer)
    (htransaction : transaction.Within observer) :
    (db.view observer).run settings transaction =
      (db.run settings transaction).map fun (db', answer) => (db'.view observer, answer) := by
  induction transaction generalizing db settings with
  | answer _ => rfl
  | setConfig _ _ ih => exact ih hdb htransaction.1 htransaction.2
  | select next ih =>
      simp only [Database.run, view_view hwithin]
      exact ih _ hdb hwithin (htransaction _)
  | write statement next ih =>
      simp only [Database.run, exec_view hdb hwithin]
      cases hexec : db.exec settings.observer statement with
      | none => rfl
      | some result =>
          obtain ⟨db', rows⟩ := result
          exact ih rows (exec_consistent hdb hexec) hwithin (htransaction rows)

end

/-- A row with some of its columns. -/
def rowOf (tenantId : Option Uuid) (columns : List (String × Value)) : Row :=
  ⟨tenantId, fun name => ((columns.find? (·.1 = name)).map Prod.snd).getD .null⟩

/-- An active membership. -/
def member (id tenantId userId : Uuid) : Row :=
  rowOf (some tenantId) [("id", .uuid id), ("user_id", .uuid userId), ("status", .text "ACTIVE")]

/-- The user `1` owns the tenants `1` and `2`, the user `2` owns the tenant `2`, and each tenant has a branch. -/
def offices : Database where
  tables
    | .memberships => [member 11 1 1, member 21 2 1, member 22 2 2]
    | .membershipRoles =>
        [11, 21, 22].map fun id => rowOf none [("membership_id", .uuid id), ("role_id", .uuid 9)]
    | .roles => [rowOf none [("id", .uuid 9), ("code", .text "OWNER"), ("is_system", .bool true)]]
    | .tenantOwned "branches" => [rowOf (some 1) [("id", .uuid 7)], rowOf (some 2) [("id", .uuid 8)]]
    | _ => []
  membershipIds := [.uuid 11, .uuid 21, .uuid 22]

theorem offices_consistent : offices.Consistent where
  keys := by decide +kernel
  indexed := by decide +kernel
  linked table htable := by
    cases table with
    | membershipRoles => decide +kernel
    | membershipBranches => exact nofun
    | memberships | invitations | roles | tenantOwned | shared => cases htable

/-- The tenant `1`, and the user of it. -/
def firstTenant : Observer := ⟨fun t => t = 1, fun u => u = 1, fun _ => false⟩

/-- `UPDATE branches SET is_active = false`, by the tenant `1`. -/
def closeBranches : Transaction Nat :=
  .setConfig ⟨some 1, none, none⟩ (.write
    (.update (.tenantOwned "branches") fun _ row => some (rowOf row.tenantId [("is_active", .bool false)]))
    fun rows => .answer rows.length)

theorem closeBranches_within : closeBranches.Within firstTenant :=
  ⟨⟨by simp [Settings.observer, firstTenant], by simp [Settings.observer], by simp [Settings.observer]⟩,
    fun _ => trivial⟩

theorem run_view_offices :
    (offices.run .unset closeBranches).map Prod.snd = some 1 ∧
      (offices.view firstTenant).run .unset closeBranches =
        (offices.run .unset closeBranches).map fun (db', answer) => (db'.view firstTenant, answer) :=
  ⟨by decide +kernel, run_view offices_consistent (unset_within _) closeBranches_within⟩

/-! ## Other tenants -/

/-- A statement that other tenants make on their own rows: on a table with the one policy, and without rows
that go along. -/
def Statement.OnOwnRows : Statement → Prop
  | .insert table _ | .update table _ => ∃ name, table = .tenantOwned name
  | .delete table _ => (∃ name, table = .tenantOwned name) ∧ ∀ key ∈ cascades, .named key.parent ≠ table

/-- The transaction is of no tenant, or of another than the observer's. -/
def Transaction.Foreign {Answer : Type} (observer : Observer) : Transaction Answer → Prop
  | .answer _ => True
  | .setConfig settings next =>
      (∀ t ∈ settings.tenantId, observer.tenant t = false) ∧ next.Foreign observer
  | .select next => ∀ tables, (next tables).Foreign observer
  | .write statement next => statement.OnOwnRows ∧ ∀ rows, (next rows).Foreign observer

section

variable {Answer : Type} {observer : Observer} {settings : Settings} {transaction : Transaction Answer}
  {db db' : Database}

theorem not_isTenant_of_foreign (hforeign : ∀ t ∈ settings.tenantId, observer.tenant t = false) {row : Row}
    (hrow : settings.observer.isTenant row = true) : observer.isTenant row = false := by
  rw [isTenant_observer] at hrow
  obtain ⟨t, ht, hrow⟩ := Option.any_eq_true _ _ |>.mp hrow
  rw [Observer.isTenant, of_decide_eq_true hrow]
  exact hforeign t ht

/-- A table with the one policy shows the same where its rows of the tenant are the same. -/
theorem view_eq_of_tenantOwned (name : String)
    (hrows : (db'.tables (.tenantOwned name)).filter observer.isTenant =
      (db.tables (.tenantOwned name)).filter observer.isTenant)
    (hother : ∀ t, t ≠ .tenantOwned name → db'.tables t = db.tables t)
    (hids : db'.membershipIds = db.membershipIds) : db'.view observer = db.view observer := by
  have hmemberships : db'.visibleMemberships observer = db.visibleMemberships observer := by
    have hname : TableName.memberships ≠ .tenantOwned name := by simp
    rw [Database.visibleMemberships, hother .memberships hname, Database.visibleMemberships]
  have htables : (db'.view observer).tables = (db.view observer).tables := by
    funext t
    rw [view_tables, view_tables, hmemberships]
    by_cases ht : t = .tenantOwned name
    · subst ht
      have hpolicy : canSelect observer (db.visibleMemberships observer) (.tenantOwned name) =
          observer.isTenant := by
        funext row
        simp [canSelect, policies, tenantIsolation]
      rw [hpolicy, hrows]
    · rw [hother t ht]
  exact congrArg₂ Database.mk htables hids

/-- What a statement of another tenant finds in a table with the one policy is not the observer's. -/
theorem not_isTenant_of_canChange (hforeign : ∀ t ∈ settings.tenantId, observer.tenant t = false)
    {memberships : List Row} {name : String} {row : Row}
    (hrow : canChange settings.observer memberships (.tenantOwned name) row = true) :
    observer.isTenant row = false :=
  not_isTenant_of_foreign hforeign (by simpa [canChange, policies, tenantIsolation] using hrow)

theorem not_isTenant_of_canLeave (hforeign : ∀ t ∈ settings.tenantId, observer.tenant t = false)
    {memberships : List Row} {name : String} {row : Row}
    (hrow : canLeave settings.observer memberships (.tenantOwned name) row = true) :
    observer.isTenant row = false :=
  not_isTenant_of_foreign hforeign (by simpa [canLeave, policies, tenantIsolation] using hrow)

/-- An `UPDATE` of another tenant makes no row the observer's, and leaves those that are. -/
theorem afterUpdate_foreign (hforeign : ∀ t ∈ settings.tenantId, observer.tenant t = false) {name : String}
    {set : (TableName → List Row) → Row → Option Row} {row : Row}
    (hleave : ∀ new ∈ db.updated settings.observer (.tenantOwned name) set row,
      canLeave settings.observer (db.visibleMemberships settings.observer) (.tenantOwned name) new = true) :
    observer.isTenant (db.afterUpdate settings.observer (.tenantOwned name) set row) = observer.isTenant row ∧
      (observer.isTenant row = true →
        db.afterUpdate settings.observer (.tenantOwned name) set row = row) := by
  unfold Database.afterUpdate
  cases hupdated : db.updated settings.observer (.tenantOwned name) set row with
  | none => exact ⟨rfl, fun _ => rfl⟩
  | some new =>
      have hold := not_isTenant_of_canChange hforeign (updated_eq_some hupdated).1
      have hnew := not_isTenant_of_canLeave hforeign (hleave new hupdated)
      rw [Option.getD_some, hnew, hold]
      exact ⟨rfl, fun hfalse => absurd hfalse Bool.false_ne_true⟩

/-- A statement that another tenant makes on its own rows leaves what the observer sees. -/
theorem exec_foreign (hforeign : ∀ t ∈ settings.tenantId, observer.tenant t = false) {statement : Statement}
    (hown : statement.OnOwnRows) {rows : List Row} (h : db.exec settings.observer statement = some (db', rows)) :
    db'.view observer = db.view observer := by
  cases statement with
  | insert table row =>
      obtain ⟨name, rfl⟩ := hown
      obtain ⟨hleave, -, rfl⟩ := insert_eq_some h
      refine view_eq_of_tenantOwned name ?_ (fun t ht => Database.put_other _ ht _ _) rfl
      have hrow : ¬observer.isTenant row = true := by
        rw [not_isTenant_of_canLeave hforeign hleave]
        exact Bool.false_ne_true
      rw [Database.put_self, List.filter_append, List.filter_cons_of_neg hrow, List.filter_nil, List.append_nil]
  | update table set =>
      obtain ⟨name, rfl⟩ := hown
      obtain ⟨hleave, rfl⟩ := update_eq_some h
      refine view_eq_of_tenantOwned name ?_ (fun t ht => Database.put_other _ ht _ _) rfl
      have hfilter : (db.tables (.tenantOwned name)).filter
          (observer.isTenant ∘ db.afterUpdate settings.observer (.tenantOwned name) set) =
            (db.tables (.tenantOwned name)).filter observer.isTenant :=
        List.filter_congr fun row hrow => (afterUpdate_foreign hforeign (hleave row hrow)).1
      rw [Database.put_self, List.filter_map, hfilter]
      refine (List.map_congr_left fun row hrow => ?_).trans (List.map_id _)
      obtain ⟨hmem, hobserver⟩ := List.mem_filter.mp hrow
      exact (afterUpdate_foreign hforeign (hleave row hmem)).2 hobserver
  | delete table condition =>
      obtain ⟨⟨name, rfl⟩, hkeys⟩ := hown
      cases h
      have hhangs : ∀ t row parent, hangsOn t row (.tenantOwned name) parent = false := by
        intro t row parent
        refine List.any_eq_false.mpr fun key hkey hhangs => ?_
        rw [Bool.and_eq_true, Bool.and_eq_true, decide_eq_true_iff, decide_eq_true_iff] at hhangs
        exact hkeys key hkey hhangs.1.2
      refine view_eq_of_tenantOwned name ?_ (fun t ht => ?_) rfl
      · rw [List.filter_filter]
        refine List.filter_congr fun row _ => ?_
        rw [keeps_of_not_hangsOn (hhangs _ _), decide_eq_true rfl, Bool.true_and, Bool.and_eq_left_iff_imp]
        intro hobserver
        rw [Database.deleted, Bool.not_eq_true', Bool.and_eq_false_imp]
        intro hchange
        rw [not_isTenant_of_canChange hforeign hchange] at hobserver
        cases hobserver
      · refine List.filter_eq_self.mpr fun row _ => ?_
        rw [keeps_of_not_hangsOn (hhangs _ _), decide_eq_false ht, Bool.false_and, Bool.not_false]

theorem run_foreign (hforeign : ∀ t ∈ settings.tenantId, observer.tenant t = false)
    (htransaction : transaction.Foreign observer) {answer : Answer}
    (h : db.run settings transaction = some (db', answer)) : db'.view observer = db.view observer := by
  induction transaction generalizing db settings with
  | answer _ =>
      cases h
      rfl
  | setConfig _ _ ih => exact ih htransaction.1 htransaction.2 h
  | select _ ih => exact ih _ hforeign (htransaction _) h
  | write statement next ih =>
      simp only [Database.run] at h
      split at h
      · cases h
      · rename_i hexec
        exact (ih _ hforeign (htransaction.2 _) h).trans (exec_foreign hforeign htransaction.1 hexec)

/-! ## Histories -/

/-- The tables after a transaction. -/
def Database.after (db : Database) (transaction : Transaction Answer) : Database :=
  ((db.run .unset transaction).map Prod.fst).getD db

/-- What a transaction answers, unless it is rolled back. -/
def Database.answer (db : Database) (transaction : Transaction Answer) : Option Answer :=
  (db.run .unset transaction).map Prod.snd

/-- Transactions of an observer, on the left, among others: the tables at the end, and what the observer is
answered. -/
def Database.runs (db : Database) :
    List (Transaction Answer ⊕ Transaction Answer) → Database × List (Option Answer)
  | [] => (db, [])
  | .inl transaction :: history =>
      let (last, answers) := (db.after transaction).runs history
      (last, db.answer transaction :: answers)
  | .inr transaction :: history => (db.after transaction).runs history

theorem after_consistent (hdb : db.Consistent) (transaction : Transaction Answer) :
    (db.after transaction).Consistent := by
  unfold Database.after
  cases hrun : db.run .unset transaction with
  | none => exact hdb
  | some result => exact run_consistent hdb hrun

theorem after_foreign (htransaction : transaction.Foreign observer) :
    (db.after transaction).view observer = db.view observer := by
  have hunset : ∀ t ∈ Settings.unset.tenantId, observer.tenant t = false := by simp [Settings.unset]
  unfold Database.after
  cases hrun : db.run .unset transaction with
  | none => rfl
  | some result => exact run_foreign hunset htransaction hrun

theorem after_view (hdb : db.Consistent) (htransaction : transaction.Within observer) :
    (db.view observer).after transaction = (db.after transaction).view observer := by
  unfold Database.after
  rw [run_view hdb (unset_within observer) htransaction]
  cases db.run .unset transaction with
  | none => rfl
  | some result => rfl

theorem answer_view (hdb : db.Consistent) (htransaction : transaction.Within observer) :
    (db.view observer).answer transaction = db.answer transaction := by
  unfold Database.answer
  rw [run_view hdb (unset_within observer) htransaction, Option.map_map]
  rfl

/-- What is of the observer within a history. -/
def purge (history : List (Transaction Answer ⊕ Transaction Answer)) :
    List (Transaction Answer ⊕ Transaction Answer) :=
  history.filter Sum.isLeft

theorem runs_purge_of_view (hdb : db.Consistent) (hdb' : db'.Consistent)
    (hview : db.view observer = db'.view observer)
    {history : List (Transaction Answer ⊕ Transaction Answer)}
    (hown : ∀ transaction, .inl transaction ∈ history → transaction.Within observer)
    (hothers : ∀ transaction, .inr transaction ∈ history → transaction.Foreign observer) :
    (db.runs history).1.view observer = (db'.runs (purge history)).1.view observer ∧
      (db.runs history).2 = (db'.runs (purge history)).2 := by
  induction history generalizing db db' with
  | nil => exact ⟨hview, rfl⟩
  | cons entry history ih =>
      have hown' := fun transaction h => hown transaction (List.mem_cons_of_mem _ h)
      have hothers' := fun transaction h => hothers transaction (List.mem_cons_of_mem _ h)
      cases entry with
      | inl transaction =>
          have hwithin := hown transaction List.mem_cons_self
          have hafter : (db.after transaction).view observer = (db'.after transaction).view observer := by
            rw [← after_view hdb hwithin, hview, after_view hdb' hwithin]
          have hanswer : db.answer transaction = db'.answer transaction := by
            rw [← answer_view hdb hwithin, hview, answer_view hdb' hwithin]
          obtain ⟨hlast, hanswers⟩ := ih (after_consistent hdb transaction)
            (after_consistent hdb' transaction) hafter hown' hothers'
          exact ⟨hlast, congrArg₂ List.cons hanswer hanswers⟩
      | inr transaction =>
          exact ih (after_consistent hdb transaction) hdb'
            ((after_foreign (hothers transaction List.mem_cons_self)).trans hview) hown' hothers'

/-- What other tenants do to their own rows, an observer neither sees nor learns. -/
theorem runs_purge (hdb : db.Consistent) {history : List (Transaction Answer ⊕ Transaction Answer)}
    (hown : ∀ transaction, .inl transaction ∈ history → transaction.Within observer)
    (hothers : ∀ transaction, .inr transaction ∈ history → transaction.Foreign observer) :
    (db.runs history).1.view observer = (db.runs (purge history)).1.view observer ∧
      (db.runs history).2 = (db.runs (purge history)).2 :=
  runs_purge_of_view hdb hdb rfl hown hothers

end

/-- The tenant `2` opens a branch. -/
def openBranch : Transaction Nat :=
  .setConfig ⟨some 2, some 2, none⟩
    (.write (.insert (.tenantOwned "branches") (rowOf (some 2) [("id", .uuid 10)]))
      fun rows => .answer rows.length)

def branchHistory : List (Transaction Nat ⊕ Transaction Nat) := [.inr openBranch, .inl closeBranches]

theorem runs_purge_offices :
    (offices.runs branchHistory).2 = [some 1] ∧
      (offices.runs branchHistory).2 = (offices.runs (purge branchHistory)).2 := by
  have hown : ∀ transaction, .inl transaction ∈ branchHistory →
      transaction.Within firstTenant := by
    intro transaction h
    obtain rfl : transaction = closeBranches := by simpa [branchHistory] using h
    exact closeBranches_within
  have hothers : ∀ transaction, .inr transaction ∈ branchHistory →
      transaction.Foreign firstTenant := by
    intro transaction h
    obtain rfl : transaction = openBranch := by simpa [branchHistory] using h
    exact ⟨by decide, ⟨"branches", rfl⟩, fun _ => trivial⟩
  exact ⟨by decide +kernel, (runs_purge offices_consistent hown hothers).2⟩

/-! ## The count of owners -/

/-- The table of a mapped class. -/
def tableOf (mapper : Mapper) : TableName :=
  .named (match mapper.className with
    | "Membership" => "memberships"
    | "MembershipRole" => "membership_roles"
    | "Role" => "roles"
    | "Branch" => "branches"
    | className => className)

/-- The settings of a request after `get_current_identity` and `get_tenant_context`. -/
def request (tenantId userId : Uuid) : Settings := ⟨some tenantId, some userId, none⟩

/-- What the ORM reads in a request. -/
def Database.mapped (db : Database) (tenantId userId : Uuid) (mapper : Mapper) : List Row :=
  (db.view (request tenantId userId).observer).tables (tableOf mapper)

/-- The membership is active and has the system role `OWNER`. -/
def Database.isActiveOwner (db : Database) (membership : Row) : Bool :=
  membership.column "status" = .text "ACTIVE" &&
    (db.tables .membershipRoles).any fun assignment =>
      assignment.column "membership_id" = membership.column "id" &&
        (db.tables .roles).any fun role =>
          role.column "id" = assignment.column "role_id" && role.column "code" = .text "OWNER" &&
            role.column "is_system" = .bool true

/-- The active owners of a tenant. -/
def Database.ownerCount (db : Database) (tenantId : Uuid) : Nat :=
  (db.tables .memberships).countP fun m => m.tenantId = some tenantId && db.isActiveOwner m

/-- The other tenants that a user is an active owner of. -/
def Database.ownedElsewhere (db : Database) (tenantId userId : Uuid) : Nat :=
  (db.tables .memberships).countP fun m =>
    m.tenantId ≠ some tenantId && m.column "user_id" = .uuid userId && db.isActiveOwner m

section

variable {db : Database} {reader : Observer}

/-- What makes a membership that is shown an owner is shown with it. -/
theorem isActiveOwner_view
    (hroles : ∀ role ∈ db.tables .roles, role.column "is_system" = .bool true → role.tenantId = none)
    {m : Row} (hm : m ∈ db.visibleMemberships reader) :
    (db.view reader).isActiveOwner m = db.isActiveOwner m := by
  refine congrArg (_ && ·) ?_
  rw [view_tables, List.any_filter]
  refine any_congr_mem fun assignment _ => ?_
  cases hof : decide (assignment.column "membership_id" = m.column "id") with
  | false => rw [Bool.false_and, Bool.false_and, Bool.and_false]
  | true =>
      have hshown : canSelect reader (db.visibleMemberships reader) .membershipRoles assignment = true := by
        rw [canSelect_membershipRoles, List.any_eq_true]
        refine ⟨m, hm, Bool.and_eq_true_iff.mpr ⟨hof, ?_⟩⟩
        rw [← canSelect_memberships]
        exact (List.mem_filter.mp hm).2
      rw [hshown, Bool.true_and, Bool.true_and, Bool.true_and, view_tables, List.any_filter]
      refine any_congr_mem fun role hrole => ?_
      cases hsystem : decide (role.column "is_system" = .bool true) with
      | false => rw [Bool.and_false, Bool.and_false]
      | true =>
          have hnone := hroles role hrole (of_decide_eq_true hsystem)
          have hshown : canSelect reader (db.visibleMemberships reader) .roles role = true := by
            simp [canSelect, policies, hnone]
          rw [hshown, Bool.true_and]

/-- The guard leaves `active_owner_count` as it is, and the policies show the caller's memberships of other
tenants.  So with the owners of a tenant it counts what the caller owns elsewhere.  That a system role has no
tenant is `system_tenant_consistency`. -/
theorem activeOwnerCount_mapped (hdb : db.Consistent)
    (hroles : ∀ role ∈ db.tables .roles, role.column "is_system" = .bool true → role.tenantId = none)
    (context : Option TenantContext) (tenantId userId : Uuid) :
    TenantGuard.applyTenantFilter context TenantGuard.activeOwnerCount = .ok none ∧
      TenantGuard.activeOwnerCount.result none (db.mapped tenantId userId) =
        db.ownerCount tenantId + db.ownedElsewhere tenantId userId := by
  refine ⟨rfl, ?_⟩
  have hcount : TenantGuard.activeOwnerCount.result none (db.mapped tenantId userId) =
      (((db.visibleMemberships (request tenantId userId).observer).filter
        (db.view (request tenantId userId).observer).isActiveOwner).map (·.column "id")).dedup.length := rfl
  have hkeys : (((db.visibleMemberships (request tenantId userId).observer).filter
      (db.view (request tenantId userId).observer).isActiveOwner).map (·.column "id")).Nodup :=
    hdb.keys.sublist ((List.filter_sublist.trans List.filter_sublist).map _)
  rw [hcount, hkeys.dedup, List.length_map, List.filter_congr fun m hm => isActiveOwner_view hroles hm,
    Database.visibleMemberships, List.filter_filter, ← List.countP_eq_length_filter,
    List.countP_eq_countP_filter_add _ _ fun m => decide (m.tenantId = some tenantId),
    List.countP_filter, List.countP_filter]
  refine congrArg₂ (· + ·) (List.countP_congr fun m _ => ?_) (List.countP_congr fun m _ => ?_)
  · rw [canSelect_memberships, isTenant_observer]
    simp only [request, Option.any_some, Bool.and_eq_true, Bool.or_eq_true, decide_eq_true_eq]
    tauto
  · rw [canSelect_memberships, isTenant_observer, isUser_observer]
    simp only [request, Option.any_some, Bool.and_eq_true, Bool.or_eq_true,
      decide_eq_true_eq, Bool.not_eq_eq_eq_not, Bool.not_true, decide_eq_false_iff_not, ne_eq, decide_not]
    tauto

end

/-- The only owner of the tenant `1` is counted twice, as the owner of the tenant `2` that the user is too. -/
theorem activeOwnerCount_mapped_offices :
    TenantGuard.activeOwnerCount.result none (offices.mapped 1 1) = 2 ∧ offices.ownerCount 1 = 1 := by
  have hcount := activeOwnerCount_mapped offices_consistent (by decide +kernel) none 1 1
  exact ⟨hcount.2.trans (by decide +kernel), by decide +kernel⟩

end Nexora.RowSecurity
