import Nexora.Crm.Service
import Nexora.Foundations.Runs

/-!
# The sales pipeline over time

The requests of the CRM run interleaved, each holding the row that it changes.  A lead becomes a customer
once: a conversion names a customer of its own, and neither it nor a disqualified lead changes any more
(`crm_follows`).  The same goes for an opportunity that was won or lost.  What the rows say is consistent
at all times (`crm_sound`).
-/

namespace Nexora.Crm

open Nexora Foundations

/-! ## Requests -/

inductive CrmRow where
  | lead (id : Uuid)
  | opportunity (id : Uuid)
  | activity (id : Uuid)
  | customer (id : Uuid)
deriving DecidableEq

/-- A row as it was read. -/
inductive SeenCrm where
  | lead (lead : Lead)
  | opportunity (opportunity : Opportunity)
  | activity (activity : CrmActivity)
  | customer (customer : Customer)

def SeenCrm.row : SeenCrm → CrmRow
  | lead l => .lead l.id
  | opportunity o => .opportunity o.id
  | activity a => .activity a.id
  | customer c => .customer c.id

inductive CrmRequest where
  | createLead (context : TenantContext) (payload : LeadCreate) (id : Uuid)
  | setLeadStatus (id : Uuid) (status : LeadStatus)
  | convertLead (id : Uuid) (payload : LeadConvert) (customerId opportunityId : Uuid) (now : Int)
  | createOpportunity (context : TenantContext) (payload : OpportunityCreate) (id : Uuid)
  | setStage (id : Uuid) (payload : OpportunityStageUpdate) (now : Int)
  | logActivity (context : TenantContext) (payload : ActivityCreate) (id : Uuid)
  | completeActivity (id : Uuid) (now : Int)
  | addNote (context : TenantContext) (payload : NoteCreate) (id : Uuid)
  | createCustomer (payload : CustomerCreate) (id : Uuid)
  | updateCustomer (id : Uuid) (payload : CustomerUpdate)

/-- The row that is read `FOR UPDATE`. -/
def CrmRequest.rows : CrmRequest → List CrmRow
  | setLeadStatus id _ | convertLead id .. => [.lead id]
  | setStage id .. => [.opportunity id]
  | completeActivity id _ => [.activity id]
  | updateCustomer id _ => [.customer id]
  | createLead .. | createOpportunity .. | logActivity .. | addNote .. | createCustomer .. => []

def CrmRequest.perform (db : CrmDb) : CrmRequest → Except Err CrmDb
  | createLead context payload id => db.createLead context payload id
  | setLeadStatus id status => db.setLeadStatus id status
  | convertLead id payload customerId opportunityId now =>
      db.convertLead id payload customerId opportunityId now
  | createOpportunity context payload id => db.createOpportunity context payload id
  | setStage id payload now => db.setStage id payload now
  | logActivity context payload id => db.logActivity context payload id
  | completeActivity id now => db.completeActivity id now
  | addNote context payload id => db.addNote context payload id
  | createCustomer payload id => db.createCustomer payload id
  | updateCustomer id payload => db.updateCustomer id payload

namespace CrmDb

def read (db : CrmDb) : CrmRow → Option SeenCrm
  | .lead id => (db.leads.get id).map .lead
  | .opportunity id => (db.opportunities.get id).map .opportunity
  | .activity id => (db.activities.get id).map .activity
  | .customer id => (db.customers.get id).map .customer

/-- The tables with a row as it was read. -/
def see (db : CrmDb) : SeenCrm → CrmDb
  | .lead lead => { db with leads := (db.leads.replace lead.id lead).getD db.leads }
  | .opportunity opportunity =>
      { db with
        opportunities := (db.opportunities.replace opportunity.id opportunity).getD db.opportunities }
  | .activity activity =>
      { db with activities := (db.activities.replace activity.id activity).getD db.activities }
  | .customer customer =>
      { db with customers := (db.customers.replace customer.id customer).getD db.customers }

end CrmDb

def crmService : RowService CrmDb CrmRequest CrmRow SeenCrm where
  rows := CrmRequest.rows
  read := CrmDb.read
  row := SeenCrm.row
  see := CrmDb.see
  body db request := (request.perform db).toOption

/-! ## What a request writes -/

/-- The opportunity that a conversion opens, if any. -/
inductive Opens (lead : Lead) (customerId : Uuid) (opportunities : Table Opportunity.id) :
    Option Uuid → Table Opportunity.id → Prop
  | none : Opens lead customerId opportunities none opportunities
  | some {opportunity : Opportunity} {opportunities' : Table Opportunity.id}
      (hcustomer : opportunity.customerId = customerId)
      (howner : opportunity.ownerMembershipId = lead.ownerMembershipId)
      (hstage : opportunity.stage = .prospecting)
      (hclosedAt : opportunity.closedAt = .none) (hreason : opportunity.lostReason = .none)
      (hinsert : opportunities.insert opportunity = .some opportunities') :
      Opens lead customerId opportunities (.some opportunity.id) opportunities'

/-- What a request makes of the tables, that holds some rows. -/
inductive Step (db : CrmDb) (rows : List CrmRow) : CrmDb → Prop
  | leadCreated {lead : Lead} {leads : Table Lead.id} (hstatus : lead.status = .new)
      (hcustomer : lead.convertedCustomerId = none) (hopened : lead.convertedOpportunityId = none)
      (hat : lead.convertedAt = none) (hcode : lead.code ∉ db.leads.rows.map (·.code))
      (hinsert : db.leads.insert lead = some leads) : Step db rows { db with leads := leads }
  | leadMoved {lead : Lead} {leads : Table Lead.id} {status : LeadStatus}
      (hget : db.leads.get lead.id = some lead) (hrow : .lead lead.id ∈ rows)
      (hstatus : status ∈ lead.status.transitions)
      (hsave : db.leads.replace lead.id (lead.moved status hstatus) = some leads) :
      Step db rows { db with leads := leads }
  | leadConverted {lead : Lead} {customer : Customer} {opened : Option Uuid} {now : Int}
      {customers : Table Customer.id} {opportunities : Table Opportunity.id} {leads : Table Lead.id}
      (hget : db.leads.get lead.id = some lead) (hrow : .lead lead.id ∈ rows)
      (hstatus : lead.status = .qualified)
      (hcode : customer.code ∉ db.customers.rows.map (·.code))
      (hcustomer : db.customers.insert customer = some customers)
      (hopens : Opens lead customer.id db.opportunities opened opportunities)
      (hsave : db.leads.replace lead.id (lead.convert customer.id opened now) = some leads) :
      Step db rows
        { db with customers := customers, opportunities := opportunities, leads := leads }
  | opportunityCreated {opportunity : Opportunity} {opportunities : Table Opportunity.id}
      (hcustomer : (db.customers.get opportunity.customerId).isSome)
      (hstage : opportunity.stage = .prospecting) (hclosedAt : opportunity.closedAt = none)
      (hreason : opportunity.lostReason = none)
      (hinsert : db.opportunities.insert opportunity = some opportunities) :
      Step db rows { db with opportunities := opportunities }
  | stageSet {opportunity : Opportunity} {payload : OpportunityStageUpdate} {now : Int}
      {opportunities : Table Opportunity.id}
      (hget : db.opportunities.get opportunity.id = some opportunity)
      (hrow : .opportunity opportunity.id ∈ rows) (hopen : opportunity.stage.closed = false)
      (hsave : db.opportunities.replace opportunity.id (opportunity.setStage payload now) =
        some opportunities) : Step db rows { db with opportunities := opportunities }
  | activityLogged {activity : CrmActivity} {activities : Table CrmActivity.id}
      (hparent : db.hasParent activity.parent) (hinsert : db.activities.insert activity = some activities) :
      Step db rows { db with activities := activities }
  | activityCompleted {activity : CrmActivity} {activities : Table CrmActivity.id} {now : Int}
      (hget : db.activities.get activity.id = some activity) (hrow : .activity activity.id ∈ rows)
      (hopen : activity.completedAt = none)
      (hsave : db.activities.replace activity.id { activity with completedAt := some now } =
        some activities) : Step db rows { db with activities := activities }
  | noteAdded {note : CrmNote} {notes : Table CrmNote.id} (hparent : db.hasParent note.parent)
      (hinsert : db.notes.insert note = some notes) : Step db rows { db with notes := notes }
  | customerCreated {customer : Customer} {customers : Table Customer.id}
      (hcode : customer.code ∉ db.customers.rows.map (·.code))
      (hinsert : db.customers.insert customer = some customers) :
      Step db rows { db with customers := customers }
  | customerUpdated {customer customer' : Customer} {customers : Table Customer.id}
      (hget : db.customers.get customer.id = some customer) (hrow : .customer customer.id ∈ rows)
      (hid : customer'.id = customer.id) (hcode : customer'.code = customer.code)
      (hsave : db.customers.replace customer.id customer' = some customers) :
      Step db rows { db with customers := customers }

variable {db db' : CrmDb} {rows : List CrmRow} {request : CrmRequest}

theorem insertCustomer_eq_ok {customer : Customer} (h : db.insertCustomer customer = .ok db') :
    customer.code ∉ db.customers.rows.map (·.code) ∧
      ∃ customers, db.customers.insert customer = some customers ∧
        db' = { db with customers := customers } := by
  obtain ⟨hcode, h⟩ := ite_error_eq_ok.mp h
  obtain ⟨customers, hinsert, h⟩ := bind_eq_ok.mp h
  cases h
  exact ⟨hcode, customers, orRaise_eq_ok.mp hinsert, rfl⟩

theorem insertOpportunity_eq_ok {opportunity : Opportunity}
    (h : db.insertOpportunity opportunity = .ok db') :
    (db.customers.get opportunity.customerId).isSome ∧
      ∃ opportunities, db.opportunities.insert opportunity = some opportunities ∧
        db' = { db with opportunities := opportunities } := by
  obtain ⟨hcustomer, h⟩ := ite_error_eq_ok.mp h
  obtain ⟨opportunities, hinsert, h⟩ := bind_eq_ok.mp h
  cases h
  exact ⟨by simpa [← Option.isSome_iff_ne_none] using hcustomer, opportunities,
    orRaise_eq_ok.mp hinsert, rfl⟩

theorem openOpportunity_eq_ok {lead : Lead} {payload : LeadConvert} {customerId opportunityId : Uuid}
    {opened : Option Uuid} (h : db.openOpportunity lead payload customerId opportunityId =
      .ok (db', opened)) :
    ∃ opportunities, Opens lead customerId db.opportunities opened opportunities ∧
      db' = { db with opportunities := opportunities } := by
  unfold CrmDb.openOpportunity at h
  split at h
  next =>
    cases h
    exact ⟨_, .none, rfl⟩
  next name _ =>
    split at h
    next =>
      cases h
      exact ⟨_, .none, rfl⟩
    next =>
      obtain ⟨amount, -, h⟩ := bind_eq_ok.mp h
      obtain ⟨db₁, hstored, h⟩ := bind_eq_ok.mp h
      obtain ⟨-, opportunities, hinsert, rfl⟩ := insertOpportunity_eq_ok hstored
      cases h
      exact ⟨opportunities, .some rfl rfl rfl rfl rfl hinsert, rfl⟩

theorem hasParent_of_valid {parent : Parent} {u : Unit} (h : db.validateParent parent = .ok u) :
    db.hasParent parent := by
  unfold CrmDb.validateParent at h
  split at h
  next hparent => exact hparent
  next => cases h

/-- Every request that goes through is one of the steps, on the rows that it holds. -/
theorem perform_step (h : request.perform db = .ok db') : Step db request.rows db' := by
  cases request with
  | createLead context payload id =>
      obtain ⟨value, -, h⟩ := bind_eq_ok.mp h
      obtain ⟨hcode, h⟩ := ite_error_eq_ok.mp h
      obtain ⟨leads, hinsert, h⟩ := bind_eq_ok.mp h
      cases h
      exact .leadCreated rfl rfl rfl rfl hcode (orRaise_eq_ok.mp hinsert)
  | setLeadStatus id status =>
      obtain ⟨lead, hget, hrest⟩ := bind_eq_ok.mp h
      replace hget := orRaise_eq_ok.mp hget
      obtain rfl := (Table.get_mem hget).2
      split at hrest
      next hstatus =>
        obtain ⟨leads, hsave, hrest⟩ := bind_eq_ok.mp hrest
        cases hrest
        exact .leadMoved hget (List.mem_singleton_self _) hstatus (orRaise_eq_ok.mp hsave)
      next => cases hrest
  | convertLead id payload customerId opportunityId now =>
      obtain ⟨lead, hget, hrest⟩ := bind_eq_ok.mp h
      replace hget := orRaise_eq_ok.mp hget
      obtain rfl := (Table.get_mem hget).2
      obtain ⟨hstatus, hrest⟩ := ite_error_eq_ok.mp hrest
      obtain ⟨-, hrest⟩ := ite_error_eq_ok.mp hrest
      obtain ⟨db₁, hstored, hrest⟩ := bind_eq_ok.mp hrest
      obtain ⟨hcode, customers, hcustomer, rfl⟩ := insertCustomer_eq_ok hstored
      obtain ⟨⟨db₂, opened⟩, hopened, hrest⟩ := bind_eq_ok.mp hrest
      obtain ⟨opportunities, hopens, rfl⟩ := openOpportunity_eq_ok hopened
      obtain ⟨leads, hsave, hrest⟩ := bind_eq_ok.mp hrest
      cases hrest
      exact .leadConverted hget (List.mem_singleton_self _) (not_not.mp hstatus) hcode hcustomer hopens
        (orRaise_eq_ok.mp hsave)
  | createOpportunity context payload id =>
      obtain ⟨customer, -, h⟩ := bind_eq_ok.mp h
      obtain ⟨amount, -, h⟩ := bind_eq_ok.mp h
      obtain ⟨hcustomer, opportunities, hinsert, rfl⟩ := insertOpportunity_eq_ok h
      exact .opportunityCreated hcustomer rfl rfl rfl hinsert
  | setStage id payload now =>
      obtain ⟨opportunity, hget, hrest⟩ := bind_eq_ok.mp h
      replace hget := orRaise_eq_ok.mp hget
      obtain rfl := (Table.get_mem hget).2
      obtain ⟨hopen, hrest⟩ := ite_error_eq_ok.mp hrest
      obtain ⟨opportunities, hsave, hrest⟩ := bind_eq_ok.mp hrest
      cases hrest
      exact .stageSet hget (List.mem_singleton_self _) (Bool.eq_false_iff.mpr hopen)
        (orRaise_eq_ok.mp hsave)
  | logActivity context payload id =>
      obtain ⟨_, hparent, h⟩ := bind_eq_ok.mp h
      obtain ⟨activities, hinsert, h⟩ := bind_eq_ok.mp h
      cases h
      exact .activityLogged (hasParent_of_valid hparent) (orRaise_eq_ok.mp hinsert)
  | completeActivity id now =>
      obtain ⟨activity, hget, hrest⟩ := bind_eq_ok.mp h
      replace hget := orRaise_eq_ok.mp hget
      obtain rfl := (Table.get_mem hget).2
      obtain ⟨hopen, hrest⟩ := ite_error_eq_ok.mp hrest
      obtain ⟨activities, hsave, hrest⟩ := bind_eq_ok.mp hrest
      cases hrest
      exact .activityCompleted hget (List.mem_singleton_self _) (by simpa using hopen)
        (orRaise_eq_ok.mp hsave)
  | addNote context payload id =>
      obtain ⟨_, hparent, h⟩ := bind_eq_ok.mp h
      obtain ⟨notes, hinsert, h⟩ := bind_eq_ok.mp h
      cases h
      exact .noteAdded (hasParent_of_valid hparent) (orRaise_eq_ok.mp hinsert)
  | createCustomer payload id =>
      obtain ⟨-, h⟩ := ite_error_eq_ok.mp h
      obtain ⟨hcode, customers, hinsert, rfl⟩ := insertCustomer_eq_ok h
      exact .customerCreated hcode hinsert
  | updateCustomer id payload =>
      obtain ⟨customer, hget, hrest⟩ := bind_eq_ok.mp h
      replace hget := orRaise_eq_ok.mp hget
      obtain rfl := (Table.get_mem hget).2
      obtain ⟨name, -, hrest⟩ := bind_eq_ok.mp hrest
      obtain ⟨customers, hsave, hrest⟩ := bind_eq_ok.mp hrest
      cases hrest
      refine .customerUpdated hget (List.mem_singleton_self _) ?_ ?_ (orRaise_eq_ok.mp hsave)
      · rfl
      · rfl

@[simp] theorem Opportunity.setStage_id {opportunity : Opportunity} {payload : OpportunityStageUpdate}
    {now : Int} : (opportunity.setStage payload now).id = opportunity.id := by
  unfold setStage
  split
  · rfl
  · rfl

/-- A step leaves the rows alone that the request does not hold. -/
theorem Step.frame {row : CrmRow} (h : Step db rows db') (hrow : row ∉ rows) :
    db'.read row = db.read row ∨ db.read row = none := by
  have hne : ∀ {held : CrmRow}, held ∈ rows → row ≠ held := by
    rintro held hheld rfl
    exact hrow hheld
  cases h with
  | leadCreated _ _ _ _ _ hinsert =>
      cases row with
      | lead id => exact Table.map_get_insert_same hinsert _ id
      | _ => exact .inl rfl
  | leadMoved _ hheld _ hsave =>
      cases row with
      | lead id =>
          have hother : id ≠ _ := fun heq => hne hheld (congrArg CrmRow.lead heq)
          exact .inl (congrArg (Option.map SeenCrm.lead) (Table.get_replace_other hsave rfl hother))
      | _ => exact .inl rfl
  | leadConverted _ hheld _ _ hcustomer hopens hsave =>
      cases row with
      | lead id =>
          have hother : id ≠ _ := fun heq => hne hheld (congrArg CrmRow.lead heq)
          exact .inl (congrArg (Option.map SeenCrm.lead) (Table.get_replace_other hsave rfl hother))
      | customer id => exact Table.map_get_insert_same hcustomer _ id
      | activity id => exact .inl rfl
      | opportunity id =>
          cases hopens with
          | none => exact .inl rfl
          | some _ _ _ _ _ hinsert => exact Table.map_get_insert_same hinsert _ id
  | opportunityCreated _ _ _ _ hinsert =>
      cases row with
      | opportunity id => exact Table.map_get_insert_same hinsert _ id
      | _ => exact .inl rfl
  | stageSet _ hheld _ hsave =>
      cases row with
      | opportunity id =>
          have hother : id ≠ _ := fun heq => hne hheld (congrArg CrmRow.opportunity heq)
          exact .inl (congrArg (Option.map SeenCrm.opportunity) (Table.get_replace_other hsave Opportunity.setStage_id hother))
      | _ => exact .inl rfl
  | activityLogged _ hinsert =>
      cases row with
      | activity id => exact Table.map_get_insert_same hinsert _ id
      | _ => exact .inl rfl
  | activityCompleted _ hheld _ hsave =>
      cases row with
      | activity id =>
          have hother : id ≠ _ := fun heq => hne hheld (congrArg CrmRow.activity heq)
          exact .inl (congrArg (Option.map SeenCrm.activity) (Table.get_replace_other hsave rfl hother))
      | _ => exact .inl rfl
  | noteAdded _ _ =>
      cases row with
      | _ => exact .inl rfl
  | customerCreated _ hinsert =>
      cases row with
      | customer id => exact Table.map_get_insert_same hinsert _ id
      | _ => exact .inl rfl
  | customerUpdated _ hheld hid _ hsave =>
      cases row with
      | customer id =>
          have hother : id ≠ _ := fun heq => hne hheld (congrArg CrmRow.customer heq)
          exact .inl (congrArg (Option.map SeenCrm.customer) (Table.get_replace_other hsave hid hother))
      | _ => exact .inl rfl

theorem CrmDb.see_eq {r : SeenCrm} (h : db.read r.row = some r) : db.see r = db := by
  cases r with
  | lead found | opportunity found | activity found | customer found =>
      obtain ⟨_, hget, heq⟩ := Option.map_eq_some_iff.mp h
      cases heq
      simp only [see, Table.replace_self hget, Option.getD_some]

theorem crmService_lawful : crmService.Lawful where
  row_of_read {db row r} h := by
    cases row with
    | lead id | opportunity id | activity id | customer id =>
        obtain ⟨found, hget, rfl⟩ := Option.map_eq_some_iff.mp h
        obtain rfl := (Table.get_mem hget).2
        rfl
  see_eq := CrmDb.see_eq
  frame h hrow := (perform_step (toOption_eq_some.mp h)).frame hrow

/-! ## What stays -/

/-- The status that a lead can have next. -/
def LeadStatus.Next (s t : LeadStatus) : Prop := t ∈ s.transitions ∨ s = .qualified ∧ t = .converted

/-- What no request changes of a lead. -/
def Lead.identity (lead : Lead) :=
  (lead.code, lead.name, lead.company, lead.email, lead.phone, lead.source, lead.ownerMembershipId,
    lead.estimatedValue, lead.notes)

/-- What no request changes of an opportunity. -/
def Opportunity.identity (opportunity : Opportunity) :=
  (opportunity.customerId, opportunity.name, opportunity.amount, opportunity.expectedCloseDate,
    opportunity.ownerMembershipId, opportunity.notes)

/-- A lead has moved on, unless it was settled. -/
structure Lead.Becomes (lead lead' : Lead) : Prop where
  identity : lead'.identity = lead.identity
  status : Relation.ReflTransGen LeadStatus.Next lead.status lead'.status
  settled : lead.status.transitions = [] → lead' = lead

/-- An opportunity has changed its stage, unless it was closed. -/
structure Opportunity.Becomes (opportunity opportunity' : Opportunity) : Prop where
  identity : opportunity'.identity = opportunity.identity
  closed : opportunity.stage.closed → opportunity' = opportunity

/-- An activity was completed, unless it was before. -/
structure CrmActivity.Becomes (activity activity' : CrmActivity) : Prop where
  same : { activity' with completedAt := activity.completedAt } = activity
  completed : activity.completedAt.isSome → activity' = activity

/-- A later state of the tables. -/
structure Follows (db db' : CrmDb) : Prop where
  leads : Table.Later Lead.Becomes db.leads db'.leads
  opportunities : Table.Later Opportunity.Becomes db.opportunities db'.opportunities
  activities : Table.Later CrmActivity.Becomes db.activities db'.activities
  notes : Table.Later Eq db.notes db'.notes
  customers : Table.Later (fun customer customer' => customer'.code = customer.code) db.customers
    db'.customers

theorem Lead.Becomes.refl (lead : Lead) : lead.Becomes lead := ⟨rfl, .refl, fun _ => rfl⟩

theorem Lead.Becomes.trans {lead lead' lead'' : Lead} (h : lead.Becomes lead')
    (h' : lead'.Becomes lead'') : lead.Becomes lead'' where
  identity := h'.identity.trans h.identity
  status := h.status.trans h'.status
  settled := by
    intro hsettled
    obtain rfl := h.settled hsettled
    exact h'.settled hsettled

theorem Opportunity.Becomes.refl (opportunity : Opportunity) : opportunity.Becomes opportunity :=
  ⟨rfl, fun _ => rfl⟩

theorem Opportunity.Becomes.trans {o o' o'' : Opportunity} (h : o.Becomes o') (h' : o'.Becomes o'') :
    o.Becomes o'' where
  identity := h'.identity.trans h.identity
  closed := by
    intro hclosed
    obtain rfl := h.closed hclosed
    exact h'.closed hclosed

theorem CrmActivity.Becomes.refl (activity : CrmActivity) : activity.Becomes activity :=
  ⟨rfl, fun _ => rfl⟩

theorem CrmActivity.Becomes.trans {a a' a'' : CrmActivity} (h : a.Becomes a') (h' : a'.Becomes a'') :
    a.Becomes a'' where
  same := by
    rw [← h.same, ← h'.same]
  completed := by
    intro hcompleted
    obtain rfl := h.completed hcompleted
    exact h'.completed hcompleted

theorem Follows.refl (db : CrmDb) : Follows db db where
  leads := .refl Lead.Becomes.refl _
  opportunities := .refl Opportunity.Becomes.refl _
  activities := .refl CrmActivity.Becomes.refl _
  notes := .refl (fun _ => rfl) _
  customers := Table.Later.refl (fun customer => Eq.refl customer.code) _

theorem Follows.trans {db'' : CrmDb} (h : Follows db db') (h' : Follows db' db'') : Follows db db'' where
  leads := h.leads.trans .trans h'.leads
  opportunities := h.opportunities.trans .trans h'.opportunities
  activities := h.activities.trans .trans h'.activities
  notes := h.notes.trans .trans h'.notes
  customers := h.customers.trans (fun hcode hcode' => hcode'.trans hcode) h'.customers

theorem Lead.moved_becomes {lead : Lead} {status : LeadStatus} (h : status ∈ lead.status.transitions) :
    lead.Becomes (lead.moved status h) where
  identity := rfl
  status := .single (.inl h)
  settled := by
    intro hsettled
    rw [hsettled] at h
    cases h

theorem Lead.convert_becomes {lead : Lead} (h : lead.status = .qualified) (customerId : Uuid)
    (opened : Option Uuid) (now : Int) : lead.Becomes (lead.convert customerId opened now) where
  identity := rfl
  status := .single (.inr ⟨h, rfl⟩)
  settled := by
    intro hsettled
    rw [h] at hsettled
    cases hsettled

theorem Opportunity.setStage_becomes {opportunity : Opportunity} (h : opportunity.stage.closed = false)
    (payload : OpportunityStageUpdate) (now : Int) :
    opportunity.Becomes (opportunity.setStage payload now) where
  identity := by
    unfold setStage
    split
    · rfl
    · rfl
  closed := by
    intro hclosed
    rw [h] at hclosed
    cases hclosed

theorem Opens.later {lead : Lead} {customerId : Uuid} {opened : Option Uuid}
    {opportunities opportunities' : Table Opportunity.id}
    (h : Opens lead customerId opportunities opened opportunities') :
    Table.Later Opportunity.Becomes opportunities opportunities' := by
  cases h with
  | none => exact .refl Opportunity.Becomes.refl _
  | some _ _ _ _ _ hinsert => exact .insert Opportunity.Becomes.refl hinsert

theorem Step.follows (h : Step db rows db') : Follows db db' := by
  have hsame := Follows.refl db
  cases h with
  | leadCreated _ _ _ _ _ hinsert => exact { hsame with leads := .insert Lead.Becomes.refl hinsert }
  | leadMoved hget _ hstatus hsave =>
      exact { hsame with
        leads := .replace Lead.Becomes.refl hget hsave rfl (Lead.moved_becomes hstatus) }
  | leadConverted hget _ hstatus _ hcustomer hopens hsave =>
      exact { hsame with
        leads := .replace Lead.Becomes.refl hget hsave rfl (Lead.convert_becomes hstatus _ _ _)
        opportunities := hopens.later
        customers := .insert (fun _ => rfl) hcustomer }
  | opportunityCreated _ _ _ _ hinsert =>
      exact { hsame with opportunities := .insert Opportunity.Becomes.refl hinsert }
  | stageSet hget _ hopen hsave =>
      exact { hsame with
        opportunities := .replace Opportunity.Becomes.refl hget hsave Opportunity.setStage_id
          (Opportunity.setStage_becomes hopen _ _) }
  | activityLogged _ hinsert =>
      exact { hsame with activities := .insert CrmActivity.Becomes.refl hinsert }
  | @activityCompleted activity activities now hget _ hopen hsave =>
      have hbecomes : activity.Becomes { activity with completedAt := some now } :=
        ⟨rfl, fun hcompleted => by rw [hopen] at hcompleted; cases hcompleted⟩
      exact { hsame with
        activities := .replace CrmActivity.Becomes.refl hget hsave rfl hbecomes }
  | noteAdded _ hinsert => exact { hsame with notes := .insert (fun _ => rfl) hinsert }
  | customerCreated _ hinsert => exact { hsame with customers := .insert (fun _ => rfl) hinsert }
  | customerUpdated hget _ hid hcode hsave =>
      exact { hsame with customers := .replace (fun _ => rfl) hget hsave hid hcode }

/-! ## What holds at all times -/

/-- A lead names what it became, and nothing before. -/
structure Lead.Sound (db : CrmDb) (lead : Lead) : Prop where
  before : lead.status ≠ .converted →
    lead.convertedCustomerId = none ∧ lead.convertedOpportunityId = none ∧ lead.convertedAt = none
  converted : ∀ id ∈ lead.convertedCustomerId, (db.customers.get id).isSome ∧ lead.convertedAt.isSome
  opened : ∀ id ∈ lead.convertedOpportunityId, ∃ opportunity, db.opportunities.get id = some opportunity ∧
    lead.convertedCustomerId = some opportunity.customerId ∧
    opportunity.ownerMembershipId = lead.ownerMembershipId

/-- An opportunity is closed with a time, a certain outcome and, if it was lost, a reason. -/
structure Opportunity.Sound (db : CrmDb) (opportunity : Opportunity) : Prop where
  customer : (db.customers.get opportunity.customerId).isSome
  closed : opportunity.stage.closed = opportunity.closedAt.isSome
  reason : opportunity.stage.closed = false → opportunity.lostReason = none
  won : opportunity.stage = .won → opportunity.probability = .one
  lost : opportunity.stage = .lost → opportunity.probability = .zero ∧
    ∃ reason ∈ opportunity.lostReason, reason ≠ ""

structure CrmDb.Sound (db : CrmDb) : Prop where
  leadCodes : (db.leads.rows.map (·.code)).Nodup
  customerCodes : (db.customers.rows.map (·.code)).Nodup
  leads : ∀ lead ∈ db.leads.rows, lead.Sound db
  opportunities : ∀ opportunity ∈ db.opportunities.rows, opportunity.Sound db
  /-- No two leads became one customer, or opened one opportunity. -/
  conversions : (db.leads.rows.filterMap (·.convertedCustomerId)).Nodup
  openings : (db.leads.rows.filterMap (·.convertedOpportunityId)).Nodup
  activities : ∀ activity ∈ db.activities.rows, db.hasParent activity.parent
  notes : ∀ note ∈ db.notes.rows, db.hasParent note.parent

theorem Lead.Sound.mono {lead : Lead} (h : lead.Sound db) (hfollows : Follows db db') :
    lead.Sound db' where
  before := h.before
  converted id hid := ⟨hfollows.customers.isSome (h.converted id hid).1, (h.converted id hid).2⟩
  opened id hid := by
    obtain ⟨opportunity, hget, hcustomer, howner⟩ := h.opened id hid
    obtain ⟨opportunity', hget', hbecomes⟩ := hfollows.opportunities id opportunity hget
    have hidentity := hbecomes.identity
    simp only [Opportunity.identity, Prod.mk.injEq] at hidentity
    exact ⟨opportunity', hget', by rw [hidentity.1, hcustomer], by rw [hidentity.2.2.2.2.1, howner]⟩

theorem Opportunity.Sound.mono {opportunity : Opportunity} (h : opportunity.Sound db)
    (hfollows : Follows db db') : opportunity.Sound db' :=
  { h with customer := hfollows.customers.isSome h.customer }

theorem hasParent_mono {parent : Parent} (h : db.hasParent parent) (hfollows : Follows db db') :
    db'.hasParent parent := by
  cases parent with
  | lead id => exact hfollows.leads.isSome h
  | opportunity id => exact hfollows.opportunities.isSome h
  | customer id => exact hfollows.customers.isSome h

/-- A new opportunity is open. -/
theorem Opportunity.Sound.of_new {opportunity : Opportunity}
    (hcustomer : (db.customers.get opportunity.customerId).isSome)
    (hstage : opportunity.stage = .prospecting) (hclosedAt : opportunity.closedAt = none)
    (hreason : opportunity.lostReason = none) : opportunity.Sound db where
  customer := hcustomer
  closed := by
    rw [hstage, hclosedAt]
    rfl
  reason _ := hreason
  won h := by
    rw [hstage] at h
    cases h
  lost h := by
    rw [hstage] at h
    cases h

theorem Opportunity.Sound.setStage {opportunity : Opportunity} (h : opportunity.Sound db)
    (hopen : opportunity.stage.closed = false) (payload : OpportunityStageUpdate) (now : Int) :
    (opportunity.setStage payload now).Sound db := by
  have hclosedAt : opportunity.closedAt = none := by simpa [hopen] using h.closed
  unfold Opportunity.setStage
  split
  next hclosed =>
    refine ⟨h.customer, hclosed, fun hnot => ?_, fun hwon => if_pos hwon, fun hlost => ⟨?_, ?_⟩⟩
    · rw [show payload.stage.closed = true from hclosed] at hnot
      cases hnot
    · have hnot : payload.stage ≠ .won := by
        rw [show payload.stage = .lost from hlost]
        exact OpportunityStage.noConfusion
      exact if_neg hnot
    · exact payload.lost_needs_a_reason hlost
  next hnot =>
    have hnone : payload.stage.closed = false := Bool.eq_false_iff.mpr hnot
    have hstays : payload.stage ≠ .won ∧ payload.stage ≠ .lost := by
      simpa [OpportunityStage.closed] using hnone
    refine ⟨h.customer, ?_, fun _ => h.reason hopen, fun hwon => absurd hwon hstays.1,
      fun hlost => absurd hlost hstays.2⟩
    show payload.stage.closed = opportunity.closedAt.isSome
    rw [hnone, hclosedAt]
    rfl

/-- A lead that is named by no conversion stays so when its status moves. -/
theorem Lead.Sound.moved {lead : Lead} {status : LeadStatus} (h : lead.Sound db)
    (hstatus : status ∈ lead.status.transitions) : (lead.moved status hstatus).Sound db := by
  have hnot : lead.status ≠ .converted := by
    intro hconverted
    rw [hconverted] at hstatus
    cases hstatus
  exact ⟨fun _ => h.before hnot, h.converted, h.opened⟩

/-- What a conversion makes of a lead. -/
theorem Lead.Sound.convert {lead : Lead} {customerId : Uuid} {opened : Option Uuid}
    {opportunities : Table Opportunity.id} (hopens : Opens lead customerId opportunities opened db.opportunities)
    (hcustomer : (db.customers.get customerId).isSome) (now : Int) :
    (lead.convert customerId opened now).Sound db where
  before h := absurd rfl h
  converted id hid := by
    cases hid
    exact ⟨hcustomer, rfl⟩
  opened id hid := by
    cases hopens with
    | none => cases hid
    | @some opportunity _ hparty howner _ _ _ hinsert =>
        cases hid
        refine ⟨opportunity, ?_, congrArg some hparty.symm, howner⟩
        rw [Table.get_insert hinsert, if_pos rfl]

theorem Step.leadCodes (h : Step db rows db') (hdb : db.Sound) :
    (db'.leads.rows.map (·.code)).Nodup := by
  cases h with
  | leadCreated _ _ _ _ hcode hinsert => exact Table.nodup_map_insert hinsert hdb.leadCodes hcode
  | leadMoved hget _ _ hsave | leadConverted hget _ _ _ _ _ hsave =>
      exact (Table.map_rows_replace (·.code) hget hsave rfl).symm ▸ hdb.leadCodes
  | _ => exact hdb.leadCodes

theorem Step.customerCodes (h : Step db rows db') (hdb : db.Sound) :
    (db'.customers.rows.map (·.code)).Nodup := by
  cases h with
  | leadConverted _ _ _ hcode hinsert | customerCreated hcode hinsert =>
      exact Table.nodup_map_insert hinsert hdb.customerCodes hcode
  | customerUpdated hget _ _ hcode hsave =>
      exact (Table.map_rows_replace (·.code) hget hsave hcode).symm ▸ hdb.customerCodes
  | _ => exact hdb.customerCodes

theorem Step.leads (h : Step db rows db') (hdb : db.Sound) : ∀ lead ∈ db'.leads.rows, lead.Sound db' := by
  have hfollows := h.follows
  have hleads : ∀ lead ∈ db.leads.rows, lead.Sound db' := fun lead hlead =>
    (hdb.leads lead hlead).mono hfollows
  cases h with
  | leadCreated hstatus hcustomer hopened hat _ hinsert =>
      refine Table.forall_insert hinsert hleads ⟨fun _ => ⟨hcustomer, hopened, hat⟩, fun id hid => ?_,
        fun id hid => ?_⟩
      · rw [hcustomer] at hid
        cases hid
      · rw [hopened] at hid
        cases hid
  | leadMoved hget _ hstatus hsave =>
      exact Table.forall_replace hget hsave hleads ((hleads _ (Table.get_mem hget).1).moved hstatus)
  | leadConverted hget _ _ _ hcustomer hopens hsave =>
      refine Table.forall_replace hget hsave hleads (.convert hopens ?_ _)
      rw [Table.get_insert hcustomer, if_pos rfl]
      rfl
  | _ => exact hleads

theorem Step.opportunities (h : Step db rows db') (hdb : db.Sound) :
    ∀ opportunity ∈ db'.opportunities.rows, opportunity.Sound db' := by
  have hfollows := h.follows
  have hopportunities : ∀ opportunity ∈ db.opportunities.rows, opportunity.Sound db' :=
    fun opportunity hopportunity => (hdb.opportunities opportunity hopportunity).mono hfollows
  cases h with
  | leadConverted _ _ _ _ hcustomer hopens _ =>
      cases hopens with
      | none => exact hopportunities
      | some hparty _ hstage hclosedAt hreason hinsert =>
          refine Table.forall_insert hinsert hopportunities
            (.of_new ?_ hstage hclosedAt hreason)
          rw [hparty, Table.get_insert hcustomer, if_pos rfl]
          rfl
  | opportunityCreated hcustomer hstage hclosedAt hreason hinsert =>
      exact Table.forall_insert hinsert hopportunities
        (.of_new hcustomer hstage hclosedAt hreason)
  | stageSet hget _ hopen hsave =>
      exact Table.forall_replace hget hsave hopportunities
        ((hopportunities _ (Table.get_mem hget).1).setStage hopen _ _)
  | _ => exact hopportunities

/-- The customer of a conversion is new, and so no lead names it. -/
theorem CrmDb.Sound.fresh_customer (hdb : db.Sound) {id : Uuid} (hnone : db.customers.get id = none) :
    id ∉ db.leads.rows.filterMap (·.convertedCustomerId) := by
  intro hmem
  obtain ⟨lead, hlead, hid⟩ := List.mem_filterMap.mp hmem
  have hsome := ((hdb.leads lead hlead).converted id hid).1
  rw [hnone] at hsome
  cases hsome

theorem CrmDb.Sound.fresh_opportunity (hdb : db.Sound) {id : Uuid}
    (hnone : db.opportunities.get id = none) :
    id ∉ db.leads.rows.filterMap (·.convertedOpportunityId) := by
  intro hmem
  obtain ⟨lead, hlead, hid⟩ := List.mem_filterMap.mp hmem
  obtain ⟨opportunity, hget, -⟩ := (hdb.leads lead hlead).opened id hid
  rw [hnone] at hget
  cases hget

theorem Step.conversions (h : Step db rows db') (hdb : db.Sound) :
    (db'.leads.rows.filterMap (·.convertedCustomerId)).Nodup := by
  cases h with
  | leadCreated _ hcustomer _ _ _ hinsert =>
      exact (Table.filterMap_rows_insert (·.convertedCustomerId) hinsert hcustomer).symm ▸
        hdb.conversions
  | leadMoved hget _ _ hsave =>
      exact (Table.filterMap_rows_replace (·.convertedCustomerId) hget hsave rfl).symm ▸
        hdb.conversions
  | leadConverted hget _ hstatus _ hcustomer _ hsave =>
      have hbefore := (hdb.leads _ (Table.get_mem hget).1).before (by rw [hstatus]; exact nofun)
      exact Table.nodup_filterMap_replace hget hsave hbefore.1 rfl
        (hdb.fresh_customer (Table.insert_eq_some hcustomer).2) hdb.conversions
  | _ => exact hdb.conversions

theorem Step.openings (h : Step db rows db') (hdb : db.Sound) :
    (db'.leads.rows.filterMap (·.convertedOpportunityId)).Nodup := by
  cases h with
  | leadCreated _ _ hopened _ _ hinsert =>
      exact (Table.filterMap_rows_insert (·.convertedOpportunityId) hinsert hopened).symm ▸
        hdb.openings
  | leadMoved hget _ _ hsave =>
      exact (Table.filterMap_rows_replace (·.convertedOpportunityId) hget hsave rfl).symm ▸
        hdb.openings
  | leadConverted hget _ hstatus _ _ hopens hsave =>
      have hbefore := (hdb.leads _ (Table.get_mem hget).1).before (by rw [hstatus]; exact nofun)
      cases hopens with
      | none =>
          exact (Table.filterMap_rows_replace (·.convertedOpportunityId) hget hsave
            hbefore.2.1.symm).symm ▸ hdb.openings
      | some _ _ _ _ _ hinsert =>
          exact Table.nodup_filterMap_replace hget hsave hbefore.2.1 rfl
            (hdb.fresh_opportunity (Table.insert_eq_some hinsert).2) hdb.openings
  | _ => exact hdb.openings

theorem Step.activities (h : Step db rows db') (hdb : db.Sound) :
    ∀ activity ∈ db'.activities.rows, db'.hasParent activity.parent := by
  have hfollows := h.follows
  have hactivities : ∀ activity ∈ db.activities.rows, db'.hasParent activity.parent :=
    fun activity hactivity => hasParent_mono (hdb.activities activity hactivity) hfollows
  cases h with
  | activityLogged hparent hinsert =>
      exact Table.forall_insert hinsert hactivities (hasParent_mono hparent hfollows)
  | @activityCompleted activity _ _ hget _ _ hsave =>
      exact Table.forall_replace hget hsave hactivities
        (hactivities activity (Table.get_mem hget).1)
  | _ => exact hactivities

theorem Step.notes (h : Step db rows db') (hdb : db.Sound) :
    ∀ note ∈ db'.notes.rows, db'.hasParent note.parent := by
  have hfollows := h.follows
  have hnotes : ∀ note ∈ db.notes.rows, db'.hasParent note.parent :=
    fun note hnote => hasParent_mono (hdb.notes note hnote) hfollows
  cases h with
  | noteAdded hparent hinsert =>
      exact Table.forall_insert hinsert hnotes (hasParent_mono hparent hfollows)
  | _ => exact hnotes

theorem Step.sound (h : Step db rows db') (hdb : db.Sound) : db'.Sound where
  leadCodes := h.leadCodes hdb
  customerCodes := h.customerCodes hdb
  leads := h.leads hdb
  opportunities := h.opportunities hdb
  conversions := h.conversions hdb
  openings := h.openings hdb
  activities := h.activities hdb
  notes := h.notes hdb

theorem CrmDb.empty_sound : CrmDb.empty.Sound where
  leadCodes := .nil
  customerCodes := .nil
  leads := List.forall_mem_nil _
  opportunities := List.forall_mem_nil _
  conversions := .nil
  openings := .nil
  activities := List.forall_mem_nil _
  notes := List.forall_mem_nil _

/-! ## Every interleaving -/

theorem crmService_step {db db' : CrmDb} {request : CrmRequest}
    (h : crmService.body db request = some db') : Step db request.rows db' :=
  perform_step (toOption_eq_some.mp h)

/-- What was settled stays.  Of two states of one interleaving, the later has every row of the earlier:
converted and disqualified leads, closed opportunities, completed activities and notes as they were, and
other leads at a status that the transitions lead to. -/
theorem crm_follows {s t : crmService.Interleaving}
    (hs : crmService.protocol.Reaches (Protocol.init .empty) s) (ht : crmService.protocol.Reaches s t) :
    Follows s.committed t.committed := by
  refine crmService_lawful.follows (I := fun _ => True) Follows.refl Follows.trans ?_ trivial hs ht
  exact fun db request db' _ hbody => ⟨trivial, (crmService_step hbody).follows⟩

/-! ## Two clerks convert one lead -/

def clerk : TenantContext := ⟨1, 2, 3, ∅, ∅, none⟩

def leadPayload : LeadCreate where
  code := "L-1"
  name := "Ada"
  company := some ""
  email := none
  phone := none
  source := .web
  estimatedValue := 250
  notes := none
  estimatedValue_nonneg := by norm_num

/-- The conversion opens an opportunity whose amount is that of the lead. -/
def convertPayload (code : String) : LeadConvert where
  customerCode := code
  opportunityName := some "First order"
  opportunityAmount := some 0
  opportunityAmount_nonneg := by simp

/-- The lead is qualified. -/
def qualifiedLead : List (TxAction CrmRequest Unit) :=
  [.begin 1 (.createLead clerk leadPayload 10), .run 1 (), .finish 1,
   .begin 2 (.setLeadStatus 10 .contacted), .run 2 (), .run 2 (), .finish 2,
   .begin 3 (.setLeadStatus 10 .qualified), .run 3 (), .run 3 (), .finish 3]

/-- Both clerks begin, and the second has to wait for the row. -/
def convertedTwice : List (TxAction CrmRequest Unit) :=
  [.begin 4 (.convertLead 10 (convertPayload "C-1") 20 30 7),
   .begin 5 (.convertLead 10 (convertPayload "C-2") 21 31 8),
   .run 4 (), .run 4 (), .finish 4, .run 5 (), .run 5 (), .finish 5]

/-- The lead became one customer. -/
def ConvertedOnce (s : crmService.Interleaving) : Prop :=
  s.committed.leads.rows.map (·.convertedCustomerId) = [some 20] ∧
    s.committed.customers.rows.map (·.name) = ["Ada"] ∧
    s.committed.opportunities.rows.map (·.amount) = [2500000]

instance : DecidablePred ConvertedOnce := fun _ => inferInstanceAs (Decidable (_ ∧ _))

theorem convertedTwice_reaches : ∃ s t : crmService.Interleaving,
    crmService.protocol.Reaches (Protocol.init .empty) s ∧ crmService.protocol.Reaches s t ∧
      s.committed.leads.rows.map (·.status) = [.qualified] ∧ ConvertedOnce t := by
  obtain ⟨s, hs, hqualified, hconverted⟩ :=
    Protocol.Reaches.exists_of_any (p := crmService.protocol) (s := Protocol.init .empty)
      (F := fun s => s.committed.leads.rows.map (·.status) = [.qualified] ∧
        (convertedTwice.foldlM crmService.protocol.step s).any fun t => ConvertedOnce t)
      qualifiedLead (by decide +kernel)
  obtain ⟨t, ht, honce⟩ := Protocol.Reaches.exists_of_any convertedTwice hconverted
  exact ⟨s, t, hs, ht, hqualified, honce⟩

theorem crm_follows_convertedTwice : ∃ s t : crmService.Interleaving,
    s.committed.leads.rows.map (·.status) = [.qualified] ∧ ConvertedOnce t ∧
      Follows s.committed t.committed := by
  obtain ⟨s, t, hs, ht, hqualified, honce⟩ := convertedTwice_reaches
  exact ⟨s, t, hqualified, honce, crm_follows hs ht⟩

end Nexora.Crm
