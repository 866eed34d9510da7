import Nexora.Accounting.SystemAccounts

/-!
# The chart of accounts

The posting rules name accounts by system code, and `_bootstrap` makes an account for every
code they name.  `LedgerDb.resolves` says that a posting finds that account and may use it.

`create_account` is the one request that changes an account it did not make: the parent of the
new account stops being postable.  `AccountsAfter` is what a run of such requests leaves of the
chart it began with, row by row: the accounts that no request named as a parent are as they
were.  Nothing asks whether the parent is a system account, so a request can take `CASH` away
from the sales that post to it (`serves_iff`).
-/

namespace Nexora.Accounting

open Nexora Foundations

/-! ## What the rules post to -/

/-- The system codes that the posting rules name. -/
def postingCodes : List String :=
  ["CASH", "BANK", "AR_CONTROL", "AP_CONTROL", "INVENTORY", "VAT_INPUT", "VAT_OUTPUT", "GRNI",
    "SALES_REVENUE", "SALES_RETURNS", "COGS"]

/-- The lines are on accounts of these codes. -/
def KnownCodes (lines : List PostingLine) : Prop := ∀ line ∈ lines, line.systemCode ∈ postingCodes

theorem KnownCodes.append {lines more : List PostingLine} (h : KnownCodes lines)
    (h' : KnownCodes more) : KnownCodes (lines ++ more) := by
  intro line hline
  rcases List.mem_append.mp hline with hline | hline
  · exact h line hline
  · exact h' line hline

theorem KnownCodes.taxLine {line : PostingLine} (h : line.systemCode ∈ postingCodes) (tax : ℚ) :
    KnownCodes (taxLine tax line) := by
  intro l hl
  unfold Accounting.taxLine at hl
  split at hl
  next => cases hl
  next => exact List.mem_singleton.mp hl ▸ h

theorem PostingRules.tenderAccount_mem (cash : Bool) :
    PostingRules.tenderAccount cash ∈ postingCodes := by
  cases cash with
  | true => simp [PostingRules.tenderAccount, postingCodes]
  | false => simp [PostingRules.tenderAccount, postingCodes]

/-- A rule posts to the accounts of these codes only. -/
theorem Rule.knownCodes {lines : List PostingLine} (h : Rule lines) : KnownCodes lines := by
  have hvat : ∀ tax, KnownCodes (taxLine tax (.ofCredit "VAT_OUTPUT" tax)) :=
    fun tax => .taxLine (by simp [postingCodes]) tax
  have hreturned : ∀ net tax, KnownCodes
      ([.ofDebit "SALES_RETURNS" net] ++ taxLine tax (.ofDebit "VAT_OUTPUT" tax)) :=
    fun net tax => .append (by simp [KnownCodes, postingCodes])
      (.taxLine (by simp [postingCodes]) tax)
  have htender := PostingRules.tenderAccount_mem
  cases h with
  | cogsRecognition cost => simp [KnownCodes, PostingRules.cogsRecognition, postingCodes]
  | cashSaleRevenue net tax cost =>
      exact .append (by simp [KnownCodes, postingCodes]) (hvat _)
  | cashSaleCost net tax cost => simp [KnownCodes, PostingRules.cashSale, postingCodes]
  | creditSale net tax => exact .append (by simp [KnownCodes, postingCodes]) (hvat _)
  | customerPayment amount cash =>
      have har : "AR_CONTROL" ∈ postingCodes := by simp [postingCodes]
      simp [KnownCodes, PostingRules.customerPayment, htender, har]
  | salesReturnRevenue net tax cost =>
      exact .append (hreturned _ _) (by simp [KnownCodes, postingCodes])
  | salesReturnCost net tax cost h =>
      simp only [PostingRules.salesReturn, Option.ite_none_left_eq_some, Option.some.injEq] at h
      simp [KnownCodes, ← h.2, postingCodes]
  | posRefundRevenue net tax cost restock =>
      exact .append (hreturned _ _) (by simp [KnownCodes, postingCodes])
  | posRefundCost net tax cost restock h =>
      simp only [PostingRules.posRefund, Option.ite_none_right_eq_some, Option.some.injEq] at h
      simp [KnownCodes, ← h.2, postingCodes]
  | goodsReceipt cost => simp [KnownCodes, PostingRules.goodsReceipt, postingCodes]
  | supplierBill goodsCost tax =>
      exact .append (.append (by simp [KnownCodes, postingCodes])
        (.taxLine (by simp [postingCodes]) _)) (by simp [KnownCodes, postingCodes])
  | supplierPayment amount cash =>
      have hap : "AP_CONTROL" ∈ postingCodes := by simp [postingCodes]
      simp [KnownCodes, PostingRules.supplierPayment, htender, hap]

/-! ## Accounts a posting may use -/

/-- The account with a system code. -/
def LedgerDb.accountOf (db : LedgerDb) (code : String) : Option Account :=
  db.accounts.rows.find? (·.systemCode = some code)

/-- The code has an account, active and postable. -/
def LedgerDb.resolves (db : LedgerDb) (code : String) : Bool :=
  (db.accountOf code).any fun a => a.isPostable && a.isActive

theorem LedgerDb.lookup_systemAccounts (db : LedgerDb) {codes : List String} {code : String}
    (hcode : code ∈ codes) : (db.systemAccounts codes).lookup code = db.accountOf code := by
  simp only [LedgerDb.systemAccounts, LedgerDb.accountOf]
  induction db.accounts.rows with
  | nil => rfl
  | cons a rows ih =>
      cases hsystem : a.systemCode with
      | none => simpa [hsystem] using ih
      | some other =>
          by_cases hother : other = code
          · simp [hsystem, hother, hcode]
          · by_cases hmem : other ∈ codes
            · have hbeq : (code == other) = false := beq_false_of_ne (Ne.symm hother)
              simpa [hsystem, hother, hmem, List.lookup_cons, hbeq] using ih
            · simpa [hsystem, hother, hmem] using ih

/-- A posting gets past its accounts if and only if the code of every line resolves. -/
theorem LedgerDb.postingAccounts_isOk {db : LedgerDb} {r : PostRequest} (hmap : r.accountMap = []) :
    (∃ accounts, db.postingAccounts r = .ok accounts) ↔
      ∀ line ∈ r.lines, db.resolves line.systemCode := by
  have hlookup : ∀ code ∈ (r.lines.map (·.systemCode)).dedup,
      (db.systemAccounts (r.lines.map (·.systemCode)).dedup).lookup code = db.accountOf code :=
    fun code hcode => db.lookup_systemAccounts hcode
  have hlines : ∀ {P : String → Prop}, (∀ code ∈ (r.lines.map (·.systemCode)).dedup, P code) ↔
      ∀ line ∈ r.lines, P line.systemCode := by
    intro P
    simp
  simp only [LedgerDb.postingAccounts, hmap, List.isEmpty_nil, if_true]
  rw [← hlines (P := fun code => db.resolves code = true)]
  generalize hcodes : (r.lines.map (·.systemCode)).dedup = codes at hlookup
  constructor
  · rintro ⟨accounts, h⟩ code hcode
    obtain ⟨hmissing, h⟩ := ite_error_eq_ok.mp h
    obtain ⟨hbad, -⟩ := ite_error_eq_ok.mp h
    have hsome : ((db.systemAccounts codes).lookup code).isSome := by
      rw [not_not, List.isEmpty_iff, List.filter_eq_nil_iff] at hmissing
      simpa using hmissing code hcode
    obtain ⟨a, ha⟩ := Option.isSome_iff_exists.mp hsome
    rw [List.any_eq_true, not_exists] at hbad
    have hgood := hbad (code, a)
    simp only [List.mem_filterMap, Option.map_eq_some_iff, Prod.mk.injEq, not_and] at hgood
    have hfine := hgood ⟨code, hcode, a, ha, rfl, rfl⟩
    rw [LedgerDb.resolves, ← hlookup code hcode, ha]
    simpa [not_or] using hfine
  · intro hall
    have hfound : ∀ code ∈ codes, ∃ a, (db.systemAccounts codes).lookup code = some a ∧
        a.isPostable = true ∧ a.isActive = true := by
      intro code hcode
      have hcode' := hall code hcode
      rw [LedgerDb.resolves, Option.any_eq_true] at hcode'
      obtain ⟨a, ha, hfine⟩ := hcode'
      exact ⟨a, (hlookup code hcode).trans ha, by simpa using hfine⟩
    refine ⟨_, ite_error_eq_ok.mpr ⟨?_, ite_error_eq_ok.mpr ⟨?_, rfl⟩⟩⟩
    · rw [not_not, List.isEmpty_iff, List.filter_eq_nil_iff]
      intro code hcode
      obtain ⟨a, ha, -⟩ := hfound code hcode
      simp [ha]
    · rw [List.any_eq_true, not_exists]
      rintro ⟨code, a⟩ ⟨hmem, hbad⟩
      simp only [List.mem_filterMap, Option.map_eq_some_iff, Prod.mk.injEq] at hmem
      obtain ⟨_, hcode, _, hget, rfl, rfl⟩ := hmem
      obtain ⟨b, hb, hpostable, hactive⟩ := hfound _ hcode
      rw [hget, Option.some.injEq] at hb
      simp [hb, hpostable, hactive] at hbad

/-! ## Creating accounts -/

/-- The default accounts are all there. -/
def LedgerDb.Charted (db : LedgerDb) : Prop :=
  ∀ row ∈ defaultAccounts, row.1 ∈ db.accounts.rows.map (·.code)

theorem LedgerDb.addPeriod_accounts {db db' : LedgerDb} {period : FiscalPeriod}
    (h : db.addPeriod period = .ok db') : db'.accounts = db.accounts := by
  obtain ⟨-, h⟩ := ite_error_eq_ok.mp h
  obtain ⟨-, h⟩ := ite_error_eq_ok.mp h
  obtain ⟨periods, -, h⟩ := bind_eq_ok.mp h
  cases h
  rfl

theorem LedgerDb.bootstrapJournal_accounts {db db' : LedgerDb} {env : Env}
    (h : db.bootstrapJournal env = .ok db') : db'.accounts = db.accounts := by
  unfold LedgerDb.bootstrapJournal at h
  split at h
  next =>
    cases h
    rfl
  next => exact (LedgerDb.addPeriod_accounts h :)

/-- `_bootstrap` leaves a chart that has the default accounts as it is. -/
theorem LedgerDb.Charted.bootstrap {db db' : LedgerDb} {env : Env} (hdb : db.Charted)
    (h : db.bootstrap env = .ok db') : db'.accounts = db.accounts := by
  obtain ⟨⟨db₁, parents⟩, hloop, h⟩ := bind_eq_ok.mp h
  rw [LedgerDb.bootstrapJournal_accounts h]
  refine foldlM_invariant
    (I := fun state : LedgerDb × List (String × Uuid) => state.1.accounts = db.accounts)
    ?_ hloop rfl
  rintro ⟨row, index⟩ hrow state state' hstate hstep
  have hcode : row.1 ∈ (db.accounts.rows.map fun a => (a.code, a.id)).map Prod.fst := by
    rw [List.map_map]
    exact hdb row (List.fst_mem_of_mem_zipIdx hrow)
  simp only [bootstrapAccount, hcode, if_true] at hstep
  cases hstep
  exact hstate

/-- What `create_account` does to the account with an identifier. -/
def Account.claimedBy (a : Account) (parentId : Option Uuid) : Account :=
  if parentId = some a.id then { a with isPostable := false } else a

theorem LedgerDb.addAccount_rows {db db' : LedgerDb} {account : Account}
    (h : db.addAccount account = .ok db') :
    db'.accounts.rows = db.accounts.rows ++ [account] := by
  obtain ⟨accounts, hinsert, h⟩ := bind_eq_ok.mp h
  split at h
  next =>
    cases h
    exact (Table.insert_eq_some (orRaise_eq_ok.mp hinsert)).1
  next => cases h

theorem LedgerDb.claimParent_rows {db db' : LedgerDb} {payload : AccountCreate}
    (h : db.claimParent payload = .ok db') :
    db'.accounts.rows = db.accounts.rows.map (·.claimedBy payload.parentId) := by
  unfold LedgerDb.claimParent at h
  split at h
  next hnone =>
    cases h
    simp [Account.claimedBy, hnone]
  next parentId hparent =>
    split at h
    next => cases h
    next parent hget =>
      obtain ⟨-, h⟩ := ite_error_eq_ok.mp h
      obtain ⟨accounts, hreplace, h⟩ := bind_eq_ok.mp h
      cases h
      have hrows := Table.replace_rows (orRaise_eq_ok.mp hreplace)
      refine hrows.trans (List.map_congr_left fun a ha => ?_)
      by_cases hid : a.id = parentId
      · have heq : a = parent :=
          Table.eq_of_mem ha (Table.get_mem hget).1 (hid.trans (Table.get_mem hget).2.symm)
        simp [Account.claimedBy, hparent, hid, ← heq]
      · simp [Account.claimedBy, hparent, hid, Ne.symm hid]

/-- An accepted `create_account` adds a row without a system code, and takes the parent out of
the accounts that may be posted to. -/
theorem LedgerDb.Charted.createAccount {db db' : LedgerDb} {env : Env} {id : Uuid}
    {payload : AccountCreate} (hdb : db.Charted) (h : db.createAccount env id payload = .ok db') :
    ∃ new : Account, new.systemCode = none ∧
      db'.accounts.rows = db.accounts.rows.map (·.claimedBy payload.parentId) ++ [new] := by
  obtain ⟨db₁, hboot, h⟩ := bind_eq_ok.mp (LedgerDb.Extends.of_orConflict h)
  obtain ⟨db₂, hparent, h⟩ := bind_eq_ok.mp h
  have hrows := LedgerDb.addAccount_rows h
  rw [LedgerDb.claimParent_rows hparent, hdb.bootstrap hboot] at hrows
  exact ⟨_, by rfl, hrows⟩

/-! ## Runs of requests -/

/-- The arguments of a `create_account` request. -/
structure AccountCall where
  env : Env
  id : Uuid
  payload : AccountCreate

/-- Requests that are accepted one after the other. -/
def LedgerDb.createAccounts (db : LedgerDb) (calls : List AccountCall) : Except Err LedgerDb :=
  calls.foldlM (fun db call => db.createAccount call.env call.id call.payload) db

/-- Some request made the account a parent. -/
def claimed (calls : List AccountCall) (id : Uuid) : Bool :=
  calls.any (·.payload.parentId = some id)

/-- The chart after requests: the accounts it had, less the parents among the postable ones,
and accounts without a system code. -/
def LedgerDb.AccountsAfter (db : LedgerDb) (calls : List AccountCall) (db' : LedgerDb) : Prop :=
  ∃ added : List Account, (∀ a ∈ added, a.systemCode = none) ∧
    db'.accounts.rows = db.accounts.rows.map (fun a =>
      { a with isPostable := a.isPostable && !claimed calls a.id }) ++ added

namespace LedgerDb.AccountsAfter

variable {db db₁ db' : LedgerDb} {calls : List AccountCall} {call : AccountCall}

theorem charted (h : db.AccountsAfter calls db') (hdb : db.Charted) : db'.Charted := by
  obtain ⟨added, -, hrows⟩ := h
  intro row hrow
  have hcode := hdb row hrow
  rw [hrows, List.map_append, List.map_map]
  exact List.mem_append_left _ hcode

/-- One more request. -/
theorem createAccount (h : db.AccountsAfter calls db₁) (hdb : db.Charted)
    (hcall : db₁.createAccount call.env call.id call.payload = .ok db') :
    db.AccountsAfter (calls ++ [call]) db' := by
  obtain ⟨new, hnew, hrows'⟩ := (h.charted hdb).createAccount hcall
  obtain ⟨added, hadded, hrows⟩ := h
  refine ⟨added.map (·.claimedBy call.payload.parentId) ++ [new], ?_, ?_⟩
  · intro a ha
    rcases List.mem_append.mp ha with ha | ha
    · obtain ⟨a₀, ha₀, rfl⟩ := List.mem_map.mp ha
      unfold Account.claimedBy
      split
      next => exact hadded a₀ ha₀
      next => exact hadded a₀ ha₀
    · exact List.mem_singleton.mp ha ▸ hnew
  · rw [hrows', hrows, List.map_append, List.map_map, List.append_assoc]
    congr 1
    refine List.map_congr_left fun a _ => ?_
    by_cases hparent : call.payload.parentId = some a.id
    · simp [Account.claimedBy, claimed, hparent]
    · simp [Account.claimedBy, claimed, hparent]

theorem run (hdb : db.Charted) (h : db.createAccounts calls = .ok db') :
    db.AccountsAfter calls db' := by
  induction calls using List.reverseRecOn generalizing db' with
  | nil =>
      cases h
      exact ⟨[], nofun, by simp [claimed]⟩
  | append_singleton calls call ih =>
      rw [LedgerDb.createAccounts, List.foldlM_append] at h
      obtain ⟨db₁, hcalls, h⟩ := bind_eq_ok.mp h
      rw [List.foldlM_cons] at h
      obtain ⟨db₂, hcall, h⟩ := bind_eq_ok.mp h
      cases h
      exact (ih hcalls).createAccount hdb hcall

/-- The account of a code is the one it was. -/
theorem accountOf (h : db.AccountsAfter calls db') (code : String) :
    db'.accountOf code = (db.accountOf code).map fun a =>
      { a with isPostable := a.isPostable && !claimed calls a.id } := by
  obtain ⟨added, hadded, hrows⟩ := h
  have hnone : added.find? (·.systemCode = some code) = none := by
    rw [List.find?_eq_none]
    intro a ha
    simp [hadded a ha]
  rw [LedgerDb.accountOf, hrows, List.find?_append, hnone, Option.or_none, List.find?_map]
  rfl

theorem resolves_iff (h : db.AccountsAfter calls db') (code : String) :
    db'.resolves code ↔ db.resolves code ∧
      ∀ a, db.accountOf code = some a → ∀ call ∈ calls, call.payload.parentId ≠ some a.id := by
  rw [LedgerDb.resolves, LedgerDb.resolves, h.accountOf]
  cases db.accountOf code with
  | none => simp
  | some a =>
      simp only [Option.map_some, Option.any_some, Option.some.injEq, forall_eq', claimed,
        Bool.and_eq_true, Bool.not_eq_true', List.any_eq_false, decide_eq_true_eq]
      tauto

end LedgerDb.AccountsAfter

/-! ## The first chart -/

/-- What a posting reads of an account, with the code of `DEFAULT_ACCOUNTS`. -/
structure Account.Face where
  code : String
  systemCode : Option String
  isPostable : Bool
  isActive : Bool
deriving DecidableEq

def Account.face (a : Account) : Account.Face := ⟨a.code, a.systemCode, a.isPostable, a.isActive⟩

/-- The accounts of `DEFAULT_ACCOUNTS`. -/
def defaultFaces : List Account.Face :=
  defaultAccounts.map fun (code, _, _, _, postable, systemCode) => ⟨code, systemCode, postable, true⟩

/-- The accounts loop, where no account is there before it. -/
theorem bootstrapAccount_faces {env : Env}
    {rows : List ((String × String × AccountType × Option String × Bool × Option String) × Nat)}
    {state state' : LedgerDb × List (String × Uuid)}
    (h : rows.foldlM (bootstrapAccount env []) state = .ok state') :
    state'.1.accounts.rows.map (·.face) = state.1.accounts.rows.map (·.face) ++
      (rows.map Prod.fst).map fun (code, _, _, _, postable, systemCode) =>
        ⟨code, systemCode, postable, true⟩ := by
  induction rows generalizing state with
  | nil =>
      cases h
      simp
  | cons row rows ih =>
      rw [List.foldlM_cons] at h
      obtain ⟨state₁, hrow, h⟩ := bind_eq_ok.mp h
      obtain ⟨⟨code, name, kind, parentCode, postable, systemCode⟩, index⟩ := row
      simp only [bootstrapAccount, List.not_mem_nil, if_false] at hrow
      obtain ⟨db, hadd, hrow⟩ := bind_eq_ok.mp hrow
      cases hrow
      rw [ih h, LedgerDb.addAccount_rows hadd]
      simp [Account.face]

theorem LedgerDb.bootstrap_faces {db : LedgerDb} {env : Env}
    (h : LedgerDb.empty.bootstrap env = .ok db) :
    db.accounts.rows.map (·.face) = defaultFaces := by
  obtain ⟨⟨db₁, parents⟩, hloop, h⟩ := bind_eq_ok.mp h
  rw [LedgerDb.bootstrapJournal_accounts h, bootstrapAccount_faces hloop, List.zipIdx_map_fst]
  rfl

theorem LedgerDb.bootstrap_charted {db : LedgerDb} {env : Env}
    (h : LedgerDb.empty.bootstrap env = .ok db) : db.Charted := by
  have hcodes : db.accounts.rows.map (·.code) = defaultFaces.map (·.code) := by
    rw [← LedgerDb.bootstrap_faces h, List.map_map]
    rfl
  intro row hrow
  rw [hcodes, defaultFaces, List.map_map]
  exact List.mem_map_of_mem (f := Prod.fst) hrow

/-- Every code that a rule names resolves in the first chart. -/
theorem LedgerDb.bootstrap_resolves {db : LedgerDb} {env : Env}
    (h : LedgerDb.empty.bootstrap env = .ok db) : ∀ code ∈ postingCodes, db.resolves code := by
  have hdefault : ∀ code ∈ postingCodes, (defaultFaces.find? (·.systemCode = some code)).any
      (fun face => face.isPostable && face.isActive) := by
    decide
  intro code hcode
  have hface := hdefault code hcode
  rw [← LedgerDb.bootstrap_faces h, List.find?_map, Option.any_map] at hface
  exact hface

/-! ## Serving the rules -/

/-- The chart serves the posting rules: every code they name resolves, and no posting of theirs
is refused for its accounts. -/
structure LedgerDb.ServesRules (db : LedgerDb) : Prop where
  resolves : ∀ code ∈ postingCodes, db.resolves code
  posts : ∀ env db', db.bootstrap env = .ok db' → ∀ r : PostRequest, Rule r.lines →
    r.accountMap = [] → ∃ accounts, db'.postingAccounts r = .ok accounts

theorem LedgerDb.Charted.servesRules {db : LedgerDb} (hdb : db.Charted)
    (hresolves : ∀ code ∈ postingCodes, db.resolves code) : db.ServesRules where
  resolves := hresolves
  posts := by
    intro env db' hboot r hrule hmap
    rw [LedgerDb.postingAccounts_isOk hmap]
    intro line hline
    have hcode := hresolves _ (hrule.knownCodes line hline)
    rwa [LedgerDb.resolves, LedgerDb.accountOf, hdb.bootstrap hboot]

/-- After any accepted `create_account` requests the chart serves the posting rules if and only
if none of them made the account of a code that a rule names the parent of a new account. -/
theorem LedgerDb.servesRules_iff {env : Env} {calls : List AccountCall} {db₀ db : LedgerDb}
    (hboot : LedgerDb.empty.bootstrap env = .ok db₀) (hrun : db₀.createAccounts calls = .ok db) :
    db.ServesRules ↔ ∀ call ∈ calls, ∀ code ∈ postingCodes, ∀ a, db₀.accountOf code = some a →
      call.payload.parentId ≠ some a.id := by
  have hcharted := LedgerDb.bootstrap_charted hboot
  have hafter := LedgerDb.AccountsAfter.run hcharted hrun
  constructor
  · intro hserves call hcall code hcode a ha
    exact ((hafter.resolves_iff code).mp (hserves.resolves code hcode)).2 a ha call hcall
  · intro hparents
    refine (hafter.charted hcharted).servesRules fun code hcode => ?_
    exact (hafter.resolves_iff code).mpr ⟨LedgerDb.bootstrap_resolves hboot code hcode,
      fun a ha call hcall => hparents call hcall code hcode a ha⟩

/-- The tenant of the runs below. -/
def chartEnv : Env where
  context := ⟨1, 1, 1, ∅, ∅, none⟩
  baseCurrency := "AED"
  fiscalYearStartMonth := 1
  today := ⟨2025, 6, 1⟩
  now := 0
  accountId := id
  journalId := 0
  periodId := 0

/-- A petty cash account below `Cash on Hand`, the third default account. -/
def pettyCash : AccountCall := ⟨chartEnv, 100, ⟨"1111", "Petty Cash", .asset, some 2, true⟩⟩

/-- A till account beside it, below `Current Assets`. -/
def tillFloat : AccountCall := ⟨chartEnv, 100, ⟨"1111", "Till Float", .asset, some 1, true⟩⟩

theorem LedgerDb.servesRules_iff_tillFloat : ∃ db₀ db, LedgerDb.empty.bootstrap chartEnv = .ok db₀ ∧
    db₀.createAccounts [tillFloat] = .ok db ∧ db.ServesRules := by
  have hboot : (LedgerDb.empty.bootstrap chartEnv).toOption.any (fun db₀ =>
      (db₀.createAccounts [tillFloat]).isOk && (postingCodes.all fun code =>
        (db₀.accountOf code).all fun a => tillFloat.payload.parentId ≠ some a.id)) = true := by
    decide +kernel
  cases hbooted : LedgerDb.empty.bootstrap chartEnv with
  | error e => simp [hbooted, Except.toOption] at hboot
  | ok db₀ =>
      simp only [hbooted, Except.toOption, Option.any_some, Bool.and_eq_true] at hboot
      obtain ⟨hrun, hparents⟩ := hboot
      cases hcreated : db₀.createAccounts [tillFloat] with
      | error e => simp [hcreated, Except.isOk, Except.toBool] at hrun
      | ok db =>
          refine ⟨db₀, db, rfl, hcreated, (LedgerDb.servesRules_iff hbooted hcreated).mpr ?_⟩
          intro call hcall code hcode a ha
          rw [List.mem_singleton.mp hcall]
          have hall := List.all_eq_true.mp hparents code hcode
          simpa [ha] using hall

/-- `CASH` is an account like any other to `create_account`. -/
theorem LedgerDb.not_servesRules_pettyCash : ∃ db₀ db,
    LedgerDb.empty.bootstrap chartEnv = .ok db₀ ∧ db₀.createAccounts [pettyCash] = .ok db ∧
      db.resolves "CASH" = false ∧ ¬db.ServesRules := by
  have hboot : (LedgerDb.empty.bootstrap chartEnv).toOption.any (fun db₀ =>
      (db₀.createAccounts [pettyCash]).toOption.any fun db => !db.resolves "CASH") = true := by
    decide +kernel
  cases hbooted : LedgerDb.empty.bootstrap chartEnv with
  | error e => simp [hbooted, Except.toOption] at hboot
  | ok db₀ =>
      simp only [hbooted, Except.toOption, Option.any_some] at hboot
      cases hcreated : db₀.createAccounts [pettyCash] with
      | error e => simp [hcreated] at hboot
      | ok db =>
          simp only [hcreated, Option.any_some, Bool.not_eq_true'] at hboot
          refine ⟨db₀, db, rfl, hcreated, hboot, fun hserves => ?_⟩
          have hcash := hserves.resolves "CASH" (by simp [postingCodes])
          rw [hboot] at hcash
          cases hcash

end Nexora.Accounting
