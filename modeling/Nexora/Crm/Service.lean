import Nexora.Core.Context
import Nexora.Foundations.Decimal
import Nexora.Foundations.KeyedTable
import Nexora.Foundations.RowServices

/-!
# Leads and opportunities

`app/modules/crm/service.py`, with the customers that it shares with `app/modules/parties/service.py`.

A lead moves forward or out, and a qualified one becomes a customer.  An opportunity is open until it is
won or lost.  The rows carry the `CHECK` constraints of their tables: a converted lead names its customer,
a lost opportunity has a reason, and an activity or a note hangs on one parent.

A request locks the lead, the opportunity, the activity or the customer that it changes.  What it reads
of other rows is that they are there, and no row is ever deleted: so it is read here when the request
commits.
-/

namespace Nexora.Crm

open Nexora Foundations

/-! ## Columns -/

inductive LeadSource where
  | web
  | referral
  | campaign
  | walkIn
  | other
deriving DecidableEq

inductive LeadStatus where
  | new
  | contacted
  | qualified
  | converted
  | disqualified
deriving DecidableEq

inductive OpportunityStage where
  | prospecting
  | qualification
  | proposal
  | negotiation
  | won
  | lost
deriving DecidableEq

inductive ActivityType where
  | call
  | email
  | meeting
  | task
deriving DecidableEq

/-- `lead.status` in a message. -/
def LeadStatus.value : LeadStatus → String
  | new => "NEW"
  | contacted => "CONTACTED"
  | qualified => "QUALIFIED"
  | converted => "CONVERTED"
  | disqualified => "DISQUALIFIED"

/-- `LEAD_TRANSITIONS`. -/
def LeadStatus.transitions : LeadStatus → List LeadStatus
  | new => [contacted, disqualified]
  | contacted => [qualified, disqualified]
  | qualified => [disqualified]
  | converted => []
  | disqualified => []

/-- `stage in (WON, LOST)`. -/
def OpportunityStage.closed (stage : OpportunityStage) : Bool := stage = won ∨ stage = lost

/-- An amount that is not negative, in a column `NUMERIC(18, 4)`. -/
def storeMoney (amount : ℚ) : Except Err ℕ :=
  orRaise (.outOfRange "NUMERIC(18,4)") ((numeric 18 4 amount).map Int.toNat)

/-- A probability in a column `NUMERIC(9, 6)`, in millionths. -/
structure Probability where
  millionths : ℕ
  le_one : millionths ≤ 1000000

def Probability.zero : Probability := ⟨0, Nat.zero_le _⟩

def Probability.one : Probability := ⟨1000000, Nat.le_refl _⟩

/-- What the column makes of a probability. -/
def Probability.store (p : ℚ) (hp : 0 ≤ p ∧ p ≤ 1) : Probability where
  millionths := (roundHalfUp (p * 10 ^ 6)).toNat
  le_one := by
    have hmono : roundHalfUp (p * 10 ^ 6) ≤ roundHalfUp (1000000 : ℤ) :=
      roundHalfUp_mono (mul_nonneg hp.1 (by norm_num)) (by push_cast; linarith [hp.2])
    rw [roundHalfUp_intCast] at hmono
    exact Int.toNat_le.mpr hmono

/-! ## Rows -/

/-- `Customer`, as far as a lead fills it in. -/
structure Customer where
  id : Uuid
  code : String
  name : String
  email : Option String
  phone : Option String

structure Lead where
  id : Uuid
  code : String
  name : String
  company : Option String
  email : Option String
  phone : Option String
  source : LeadSource
  status : LeadStatus
  ownerMembershipId : Option Uuid
  estimatedValue : ℕ
  convertedCustomerId : Option Uuid
  convertedOpportunityId : Option Uuid
  convertedAt : Option Int
  notes : Option String
  /-- `converted_lead_has_customer`. -/
  converted_has_customer : status = .converted → convertedCustomerId.isSome

structure Opportunity where
  id : Uuid
  customerId : Uuid
  name : String
  stage : OpportunityStage
  amount : ℕ
  probability : Probability
  expectedCloseDate : Option Int
  ownerMembershipId : Option Uuid
  closedAt : Option Int
  lostReason : Option String
  notes : Option String
  /-- `lost_opportunity_has_reason`. -/
  lost_has_reason : stage = .lost → lostReason.isSome

/-- `exactly_one_parent`. -/
inductive Parent where
  | lead (id : Uuid)
  | opportunity (id : Uuid)
  | customer (id : Uuid)
deriving DecidableEq

structure CrmActivity where
  id : Uuid
  activityType : ActivityType
  subject : String
  body : Option String
  dueAt : Option Int
  completedAt : Option Int
  ownerMembershipId : Option Uuid
  parent : Parent

structure CrmNote where
  id : Uuid
  body : String
  authorMembershipId : Option Uuid
  parent : Parent

structure CrmDb where
  leads : Table Lead.id
  opportunities : Table Opportunity.id
  activities : Table CrmActivity.id
  notes : Table CrmNote.id
  customers : Table Customer.id

def CrmDb.empty : CrmDb := ⟨.empty _, .empty _, .empty _, .empty _, .empty _⟩

/-! ## Payloads -/

structure LeadCreate where
  code : String
  name : String
  company : Option String
  email : Option String
  phone : Option String
  source : LeadSource
  estimatedValue : ℚ
  notes : Option String
  estimatedValue_nonneg : 0 ≤ estimatedValue

structure LeadConvert where
  customerCode : String
  opportunityName : Option String
  opportunityAmount : Option ℚ
  opportunityAmount_nonneg : ∀ amount ∈ opportunityAmount, 0 ≤ amount

structure OpportunityCreate where
  customerId : Uuid
  name : String
  amount : ℚ
  probability : ℚ
  expectedCloseDate : Option Int
  notes : Option String
  amount_nonneg : 0 ≤ amount
  probability_range : 0 ≤ probability ∧ probability ≤ 1

structure OpportunityStageUpdate where
  stage : OpportunityStage
  lostReason : Option String
  lost_needs_a_reason : stage = .lost → ∃ reason ∈ lostReason, reason ≠ ""

structure ActivityCreate where
  activityType : ActivityType
  subject : String
  body : Option String
  dueAt : Option Int
  parent : Parent

structure NoteCreate where
  body : String
  parent : Parent

structure CustomerCreate where
  code : String
  name : String
  email : Option String
  phone : Option String

/-- `model_dump(exclude_unset=True)` of a `CustomerUpdate`: what is not set is `none`, and what is set
may be null. -/
structure CustomerUpdate where
  name : Option (Option String)
  email : Option (Option String)
  phone : Option (Option String)

/-! ## The service -/

/-- `lead.company or lead.name`. -/
def Lead.customerName (lead : Lead) : String :=
  match lead.company with
  | some company => if company = "" then lead.name else company
  | none => lead.name

/-- `payload.opportunity_amount or lead.estimated_value`. -/
def Lead.opportunityAmount (lead : Lead) (payload : LeadConvert) : Except Err ℕ :=
  match payload.opportunityAmount with
  | some amount => if amount = 0 then .ok lead.estimatedValue else storeMoney amount
  | none => .ok lead.estimatedValue

theorem LeadStatus.ne_converted {s t : LeadStatus} (h : t ∈ s.transitions) : t ≠ .converted := by
  rintro rfl
  cases s <;> simp [transitions] at h

/-- The status of a lead that is not converted. -/
def Lead.moved (lead : Lead) (status : LeadStatus) (h : status ∈ lead.status.transitions) : Lead :=
  { lead with
    status := status
    converted_has_customer := fun hconverted => absurd hconverted (LeadStatus.ne_converted h) }

/-- A lead that has become a customer. -/
def Lead.convert (lead : Lead) (customerId : Uuid) (opportunityId : Option Uuid) (now : Int) : Lead :=
  { lead with
    status := .converted
    convertedCustomerId := some customerId
    convertedOpportunityId := opportunityId
    convertedAt := some now
    converted_has_customer := fun _ => rfl }

/-- An opportunity whose stage is set. -/
def Opportunity.setStage (opportunity : Opportunity) (payload : OpportunityStageUpdate) (now : Int) :
    Opportunity :=
  if hclosed : payload.stage.closed then
    { opportunity with
      stage := payload.stage
      closedAt := some now
      lostReason := payload.lostReason
      probability := if payload.stage = .won then .one else .zero
      lost_has_reason := fun h => by
        obtain ⟨reason, hreason, -⟩ := payload.lost_needs_a_reason h
        exact Option.isSome_of_mem hreason }
  else
    { opportunity with
      stage := payload.stage
      lost_has_reason := fun h => absurd (by rw [OpportunityStage.closed, h]; rfl) hclosed }

namespace CrmDb

/-- `INSERT` of a customer. -/
def insertCustomer (db : CrmDb) (customer : Customer) : Except Err CrmDb :=
  if customer.code ∈ db.customers.rows.map (·.code) then
    .error (.integrity "uq_customers_tenant_id_code")
  else do
    let customers ← orRaise (.integrity "pk_customers") (db.customers.insert customer)
    .ok { db with customers := customers }

/-- `INSERT` of an opportunity. -/
def insertOpportunity (db : CrmDb) (opportunity : Opportunity) : Except Err CrmDb :=
  if (db.customers.get opportunity.customerId).isNone then
    .error (.integrity "fk_opportunities_customer_id_customers")
  else do
    let opportunities ←
      orRaise (.integrity "pk_opportunities") (db.opportunities.insert opportunity)
    .ok { db with opportunities := opportunities }

/-- `UPDATE` of a lead. -/
def saveLead (db : CrmDb) (lead : Lead) : Except Err CrmDb := do
  let leads ← orRaise (.integrity "pk_leads") (db.leads.replace lead.id lead)
  .ok { db with leads := leads }

/-- `create_lead`. -/
def createLead (context : TenantContext) (db : CrmDb) (payload : LeadCreate) (id : Uuid) :
    Except Err CrmDb := do
  let estimatedValue ← storeMoney payload.estimatedValue
  if payload.code ∈ db.leads.rows.map (·.code) then
    .error (.conflict "DUPLICATE_RESOURCE" "Lead code already exists.")
  else do
    let leads ← orRaise (.integrity "pk_leads") <| db.leads.insert
      { id := id
        code := payload.code
        name := payload.name
        company := payload.company
        email := payload.email
        phone := payload.phone
        source := payload.source
        status := .new
        ownerMembershipId := some context.membershipId
        estimatedValue := estimatedValue
        convertedCustomerId := none
        convertedOpportunityId := none
        convertedAt := none
        notes := payload.notes
        converted_has_customer := fun h => by cases h }
    .ok { db with leads := leads }

/-- `set_lead_status`. -/
def setLeadStatus (db : CrmDb) (leadId : Uuid) (status : LeadStatus) : Except Err CrmDb := do
  let lead ← orRaise .notFound (db.leads.get leadId)
  if h : status ∈ lead.status.transitions then db.saveLead (lead.moved status h)
  else
    .error (.conflict "ILLEGAL_STATUS_TRANSITION"
      ("A " ++ lead.status.value ++ " lead cannot move to " ++ status.value ++ "."))

/-- The opportunity that a conversion opens, if it names one. -/
def openOpportunity (db : CrmDb) (lead : Lead) (payload : LeadConvert) (customerId opportunityId : Uuid) :
    Except Err (CrmDb × Option Uuid) :=
  match payload.opportunityName with
  | none => .ok (db, none)
  | some name =>
      if name = "" then .ok (db, none)
      else do
        let amount ← lead.opportunityAmount payload
        let db ← db.insertOpportunity
          { id := opportunityId
            customerId := customerId
            name := name
            stage := .prospecting
            amount := amount
            probability := .zero
            expectedCloseDate := none
            ownerMembershipId := lead.ownerMembershipId
            closedAt := none
            lostReason := none
            notes := none
            lost_has_reason := fun h => by cases h }
        .ok (db, some opportunityId)

/-- `convert_lead`. -/
def convertLead (db : CrmDb) (leadId : Uuid) (payload : LeadConvert) (customerId opportunityId : Uuid)
    (now : Int) : Except Err CrmDb := do
  let lead ← orRaise .notFound (db.leads.get leadId)
  if lead.status ≠ .qualified then
    .error (.conflict "LEAD_NOT_QUALIFIED" "Only a qualified lead can be converted.")
  else if lead.convertedCustomerId.isSome then
    .error (.conflict "ALREADY_CONVERTED" "This lead has already been converted.")
  else do
    let db ← db.insertCustomer
      { id := customerId
        code := payload.customerCode
        name := lead.customerName
        email := lead.email
        phone := lead.phone }
    let (db, opened) ← db.openOpportunity lead payload customerId opportunityId
    db.saveLead (lead.convert customerId opened now)

/-- `create_opportunity`. -/
def createOpportunity (context : TenantContext) (db : CrmDb) (payload : OpportunityCreate) (id : Uuid) :
    Except Err CrmDb := do
  let customer ← orRaise .notFound (db.customers.get payload.customerId)
  let amount ← storeMoney payload.amount
  db.insertOpportunity
    { id := id
      customerId := customer.id
      name := payload.name
      stage := .prospecting
      amount := amount
      probability := .store payload.probability payload.probability_range
      expectedCloseDate := payload.expectedCloseDate
      ownerMembershipId := some context.membershipId
      closedAt := none
      lostReason := none
      notes := payload.notes
      lost_has_reason := fun h => by cases h }

/-- `set_stage`. -/
def setStage (db : CrmDb) (opportunityId : Uuid) (payload : OpportunityStageUpdate) (now : Int) :
    Except Err CrmDb := do
  let opportunity ← orRaise .notFound (db.opportunities.get opportunityId)
  if opportunity.stage.closed then
    .error (.conflict "OPPORTUNITY_CLOSED" "A closed opportunity cannot change stage.")
  else do
    let opportunities ← orRaise (.integrity "pk_opportunities") <|
      db.opportunities.replace opportunity.id (opportunity.setStage payload now)
    .ok { db with opportunities := opportunities }

/-- The parent is one of the rows. -/
def hasParent (db : CrmDb) : Parent → Bool
  | .lead id => (db.leads.get id).isSome
  | .opportunity id => (db.opportunities.get id).isSome
  | .customer id => (db.customers.get id).isSome

/-- `_validate_parent`. -/
def validateParent (db : CrmDb) (parent : Parent) : Except Err Unit :=
  if db.hasParent parent then .ok () else .error .notFound

/-- `log_activity`. -/
def logActivity (context : TenantContext) (db : CrmDb) (payload : ActivityCreate) (id : Uuid) :
    Except Err CrmDb := do
  db.validateParent payload.parent
  let activities ← orRaise (.integrity "pk_crm_activities") <| db.activities.insert
    { id := id
      activityType := payload.activityType
      subject := payload.subject
      body := payload.body
      dueAt := payload.dueAt
      completedAt := none
      ownerMembershipId := some context.membershipId
      parent := payload.parent }
  .ok { db with activities := activities }

/-- `complete_activity`. -/
def completeActivity (db : CrmDb) (activityId : Uuid) (now : Int) : Except Err CrmDb := do
  let activity ← orRaise .notFound (db.activities.get activityId)
  if activity.completedAt.isSome then
    .error (.conflict "ALREADY_COMPLETED" "This activity is already complete.")
  else do
    let activities ← orRaise (.integrity "pk_crm_activities") <|
      db.activities.replace activity.id { activity with completedAt := some now }
    .ok { db with activities := activities }

/-- `add_note`. -/
def addNote (context : TenantContext) (db : CrmDb) (payload : NoteCreate) (id : Uuid) :
    Except Err CrmDb := do
  db.validateParent payload.parent
  let notes ← orRaise (.integrity "pk_crm_notes") <| db.notes.insert
    { id := id
      body := payload.body
      authorMembershipId := some context.membershipId
      parent := payload.parent }
  .ok { db with notes := notes }

/-- `create_customer`. -/
def createCustomer (db : CrmDb) (payload : CustomerCreate) (id : Uuid) : Except Err CrmDb :=
  if payload.code ∈ db.customers.rows.map (·.code) then
    .error (.conflict "DUPLICATE_RESOURCE" "Customer code already exists.")
  else db.insertCustomer ⟨id, payload.code, payload.name, payload.email, payload.phone⟩

/-- `update_customer`. -/
def updateCustomer (db : CrmDb) (customerId : Uuid) (payload : CustomerUpdate) : Except Err CrmDb := do
  let customer ← orRaise .notFound (db.customers.get customerId)
  let name ← orRaise (.integrity "customers.name") (payload.name.getD (some customer.name))
  let customers ← orRaise (.integrity "pk_customers") <| db.customers.replace customer.id
    { customer with
      name := name
      email := payload.email.getD customer.email
      phone := payload.phone.getD customer.phone }
  .ok { db with customers := customers }

end CrmDb

end Nexora.Crm
