import Nexora.Foundations.RowServices
import Nexora.Tenant.TillRuns

/-!
# Held carts

`hold`, `resume` and `list_holds` of `app/modules/pos/service.py`, between the opening and the closing of
their session.  A cart is held under the row of its session; to resume it, its own row is locked and then
that of its session.  The row is deleted, so no one else is handed the same cart.

Every cart that was held is there still or was handed back once, to the member who held it
(`carts_sound`).  `close_session` asks for no carts: those that are held when their session closes stay
where they are, and are handed to no one (`carts_follow`).
-/

namespace Nexora.Tenant

open Nexora Nexora.Pos Foundations
open Nexora.Accounting (Money)

/-! ## Carts -/

/-- `HeldSale`. -/
structure HeldSale where
  id : Uuid
  sessionId : Uuid
  terminalId : Uuid
  heldByMembershipId : Uuid
  label : Option String
  lines : List CartLine
  heldAt : Nat

/-- `HoldCreate`. -/
structure HoldCreate where
  sessionId : Uuid
  label : Option String
  lines : List CartLine
  lines_ne : lines ≠ []

/-- A cart that `resume` has handed to a member. -/
structure HandedBack where
  cart : HeldSale
  membershipId : Uuid

/-- The tables, with the carts that were ever held, and those that were handed back. -/
structure CartState where
  sessions : Table PosSession.id
  held : Table HeldSale.id
  parked : List HeldSale
  handed : List HandedBack

def CartState.empty : CartState := ⟨.empty _, .empty _, [], []⟩

/-- The tenant, with the sessions as they are. -/
def CartState.within (state : CartState) (around : TenantDb) : TenantDb :=
  { around with pos := { around.pos with sessions := state.sessions } }

/-- `hold`. -/
def hold (request : Request) (around : TenantDb) (state : CartState) (payload : HoldCreate) :
    Except Err CartState := do
  let (session, _) ← requireSession request (state.within around) payload.sessionId
  let terminal ← requireTerminal request (state.within around) session.terminalId
  let cart : HeldSale :=
    { id := request.documentId
      sessionId := session.id
      terminalId := terminal.id
      heldByMembershipId := request.env.context.membershipId
      label := payload.label
      lines := payload.lines
      heldAt := request.env.now }
  let held ← orRaise (.integrity "pk_held_sales") (state.held.insert cart)
  .ok { state with held := held, parked := state.parked ++ [cart] }

/-- `resume`: the lines are what is answered. -/
def resume (request : Request) (around : TenantDb) (state : CartState) (heldId : Uuid) :
    Except Err (CartState × List CartLine) := do
  let cart ← orRaise .notFound (state.held.get heldId)
  let _ ← requireSession request (state.within around) cart.sessionId
  let handed : HandedBack := ⟨cart, request.env.context.membershipId⟩
  .ok ({ state with held := state.held.erase cart.id, handed := state.handed ++ [handed] }, cart.lines)

/-- `list_holds`, the last one first. -/
def listHolds (request : Request) (around : TenantDb) (state : CartState) (sessionId : Uuid) :
    Except Err (List HeldSale) := do
  let _ ← requireSession request (state.within around) sessionId
  .ok ((state.held.rows.filter (·.sessionId = sessionId)).insertionSort fun cart cart' =>
    cart'.heldAt ≤ cart.heldAt)

/-! ## Requests -/

inductive CartCall where
  | openSession (payload : SessionOpen)
  | closeSession (sessionId : Uuid) (countedCash : Money)
  | hold (payload : HoldCreate)
  | resume (heldId : Uuid)

/-- What a request does to the tables, that finds the rest of the tenant to be something. -/
def CartCall.perform (request : Request) (around : TenantDb) (state : CartState) :
    CartCall → Except Err CartState
  | .openSession payload => do
      let db ← Pos.openSession request (state.within around) payload
      .ok { state with sessions := db.pos.sessions }
  | .closeSession sessionId countedCash => do
      let db ← Pos.closeSession request (state.within around) sessionId countedCash
      .ok { state with sessions := db.pos.sessions }
  | .hold payload => Tenant.hold request around state payload
  | .resume heldId => do
      let (state, _) ← Tenant.resume request around state heldId
      .ok state

inductive CartRow where
  | held (id : Uuid)
  | session (id : Uuid)
deriving DecidableEq

inductive SeenCart where
  | held (cart : HeldSale)
  | session (opened : PosSession)

def SeenCart.row : SeenCart → CartRow
  | .held cart => .held cart.id
  | .session opened => .session opened.id

def CartCall.rows : CartCall → List CartRow
  | .openSession _ => []
  | .closeSession id _ => [.session id]
  | .hold payload => [.session payload.sessionId]
  | .resume heldId => [.held heldId]

/-- The session of the cart. -/
def SeenCart.more : SeenCart → List CartRow
  | .held cart => [.session cart.sessionId]
  | .session _ => []

namespace CartState

def read (state : CartState) : CartRow → Option SeenCart
  | .held id => (state.held.get id).map .held
  | .session id => (state.sessions.get id).map .session

/-- The tables with a row as it was read. -/
def see (state : CartState) : SeenCart → CartState
  | .held cart => { state with held := (state.held.replace cart.id cart).getD state.held }
  | .session opened =>
      { state with sessions := (state.sessions.replace opened.id opened).getD state.sessions }

end CartState

def cartService : LockedReads CartState (Request × CartCall) CartRow SeenCart Unit TenantDb where
  plan _ call := call.2.rows
  more _ := SeenCart.more
  read := CartState.read
  row := SeenCart.row
  view _ _ := ()
  write state call seen _ around :=
    (call.2.perform call.1 around (seen.foldl CartState.see state)).toOption

abbrev CartRun : Type := Interleaved CartState (LockedPhase (Request × CartCall) CartRow SeenCart Unit TenantDb)

/-! ## What a request writes -/

inductive CartWrites (state : CartState) : CartCall → CartState → Prop
  | openSession {payload : SessionOpen} {session : PosSession} {sessions : Table PosSession.id}
      (hinsert : state.sessions.insert session = some sessions) :
      CartWrites state (.openSession payload) { state with sessions := sessions }
  | closeSession {countedCash : Money} {session closed : PosSession} {sessions : Table PosSession.id}
      (hget : state.sessions.get session.id = some session) (hopen : session.status = .opened)
      (hid : closed.id = session.id) (howner : closed.openedByMembershipId = session.openedByMembershipId)
      (hterminal : closed.terminalId = session.terminalId)
      (hreplace : state.sessions.replace session.id closed = some sessions) :
      CartWrites state (.closeSession session.id countedCash) { state with sessions := sessions }
  | hold {payload : HoldCreate} {session : PosSession} {cart : HeldSale} {held : Table HeldSale.id}
      (hget : state.sessions.get payload.sessionId = some session) (hopen : session.status = .opened)
      (hsession : cart.sessionId = payload.sessionId)
      (howner : cart.heldByMembershipId = session.openedByMembershipId)
      (hterminal : cart.terminalId = session.terminalId) (hlines : cart.lines = payload.lines)
      (hinsert : state.held.insert cart = some held) :
      CartWrites state (.hold payload) { state with held := held, parked := state.parked ++ [cart] }
  | resume {cart : HeldSale} {session : PosSession} (hheld : state.held.get cart.id = some cart)
      (hget : state.sessions.get cart.sessionId = some session) (hopen : session.status = .opened) :
      CartWrites state (.resume cart.id)
        { state with
          held := state.held.erase cart.id
          handed := state.handed ++ [⟨cart, session.openedByMembershipId⟩] }

variable {request : Request} {around db : TenantDb} {state state' : CartState} {call : CartCall}

theorem requireTerminal_eq_ok {terminalId : Uuid} {terminal : PosTerminal}
    (h : requireTerminal request db terminalId = .ok terminal) : terminal.id = terminalId := by
  obtain ⟨terminal', hget, hrest⟩ := bind_eq_ok.mp h
  obtain ⟨_, -, hrest⟩ := bind_eq_ok.mp hrest
  cases hrest
  exact (Table.get_mem (orRaise_eq_ok.mp hget)).2

theorem requireSession_own {sessionId : Uuid} {session : PosSession} {terminal : PosTerminal}
    (h : requireSession request db sessionId = .ok (session, terminal)) :
    session.openedByMembershipId = request.env.context.membershipId := by
  obtain ⟨session', -, h⟩ := bind_eq_ok.mp h
  obtain ⟨terminal', -, h⟩ := bind_eq_ok.mp h
  obtain ⟨_, -, h⟩ := bind_eq_ok.mp h
  obtain ⟨_, hown, h⟩ := bind_eq_ok.mp h
  obtain ⟨_, -, h⟩ := bind_eq_ok.mp h
  cases h
  unfold requireOwn at hown
  split at hown
  next heq => exact heq
  next => cases hown

theorem perform_writes (h : call.perform request around state = .ok state') :
    CartWrites state call state' := by
  cases call with
  | openSession payload =>
      obtain ⟨db, hopened, hrest⟩ := bind_eq_ok.mp h
      cases hrest
      obtain ⟨terminal, -, hopened⟩ := bind_eq_ok.mp hopened
      obtain ⟨_, -, hopened⟩ := bind_eq_ok.mp hopened
      obtain ⟨_, -, hopened⟩ := bind_eq_ok.mp hopened
      obtain ⟨sessions, hinsert, hopened⟩ := bind_eq_ok.mp hopened
      cases hopened
      exact .openSession (orRaise_eq_ok.mp hinsert)
  | closeSession sessionId countedCash =>
      obtain ⟨db, hclosed, hrest⟩ := bind_eq_ok.mp h
      cases hrest
      obtain ⟨⟨session, terminal⟩, hsession, hclosed⟩ := bind_eq_ok.mp hclosed
      obtain ⟨_, -, hclosed⟩ := bind_eq_ok.mp hclosed
      obtain ⟨_, -, hclosed⟩ := bind_eq_ok.mp hclosed
      obtain ⟨_, -, hclosed⟩ := bind_eq_ok.mp hclosed
      obtain ⟨sessions, hreplace, hclosed⟩ := bind_eq_ok.mp hclosed
      cases hclosed
      obtain ⟨hget, hopen⟩ := requireSession_eq_ok hsession
      obtain rfl := (Table.get_mem hget).2
      refine .closeSession hget hopen ?_ ?_ ?_ (orRaise_eq_ok.mp hreplace)
      · rfl
      · rfl
      · rfl
  | hold payload =>
      obtain ⟨⟨session, _⟩, hsession, hrest⟩ := bind_eq_ok.mp h
      obtain ⟨terminal, hterminal, hrest⟩ := bind_eq_ok.mp hrest
      obtain ⟨held, hinsert, hrest⟩ := bind_eq_ok.mp hrest
      cases hrest
      obtain ⟨hget, hopen⟩ := requireSession_eq_ok hsession
      exact .hold hget hopen (Table.get_mem hget).2 (requireSession_own hsession).symm
        (requireTerminal_eq_ok hterminal) rfl (orRaise_eq_ok.mp hinsert)
  | resume heldId =>
      obtain ⟨⟨state, lines⟩, hresumed, hrest⟩ := bind_eq_ok.mp h
      cases hrest
      obtain ⟨cart, hcart, hresumed⟩ := bind_eq_ok.mp hresumed
      obtain ⟨⟨session, terminal⟩, hsession, hresumed⟩ := bind_eq_ok.mp hresumed
      cases hresumed
      have hheld := orRaise_eq_ok.mp hcart
      obtain ⟨hget, hopen⟩ := requireSession_eq_ok hsession
      obtain rfl := (Table.get_mem hheld).2
      rw [← requireSession_own hsession]
      exact .resume hheld hget hopen

/-! ## Rows -/

theorem CartState.row_of_read {row : CartRow} {r : SeenCart} (h : state.read row = some r) : r.row = row := by
  cases row with
  | held id =>
      obtain ⟨cart, hget, rfl⟩ := Option.map_eq_some_iff.mp h
      exact congrArg CartRow.held (Table.get_mem hget).2
  | session id =>
      obtain ⟨session, hget, rfl⟩ := Option.map_eq_some_iff.mp h
      exact congrArg CartRow.session (Table.get_mem hget).2

theorem CartState.see_eq {r : SeenCart} (h : state.read r.row = some r) : state.see r = state := by
  cases r with
  | held cart =>
      obtain ⟨_, hget, heq⟩ := Option.map_eq_some_iff.mp h
      cases heq
      simp only [see, Table.replace_self hget, Option.getD_some]
  | session session =>
      obtain ⟨_, hget, heq⟩ := Option.map_eq_some_iff.mp h
      cases heq
      simp only [see, Table.replace_self hget, Option.getD_some]

theorem CartState.seeAll_eq {seen : List SeenCart} (h : ∀ r ∈ seen, state.read r.row = some r) :
    seen.foldl see state = state := by
  induction seen with
  | nil => rfl
  | cons r seen ih =>
      rw [List.foldl_cons, see_eq (h r List.mem_cons_self)]
      exact ih fun r' hr' => h r' (List.mem_cons_of_mem _ hr')

theorem CartWrites.read (h : CartWrites state call state') {row : CartRow} (hrow : row ∉ call.rows)
    {r : SeenCart} (hread : state.read row = some r) : state'.read row = some r := by
  cases row with
  | held id =>
      obtain ⟨cart, hget, rfl⟩ := Option.map_eq_some_iff.mp hread
      refine Option.map_eq_some_iff.mpr ⟨cart, ?_, rfl⟩
      cases h with
      | openSession | closeSession => exact hget
      | hold _ _ _ _ _ _ hinsert =>
          exact (Table.get_insert_of_some hinsert (Option.isSome_of_eq_some hget)).trans hget
      | resume =>
          refine (Table.get_erase _ _ _).trans ((if_neg fun heq => hrow ?_).trans hget)
          rw [heq]
          exact List.mem_singleton_self _
  | session id =>
      obtain ⟨session, hget, rfl⟩ := Option.map_eq_some_iff.mp hread
      refine Option.map_eq_some_iff.mpr ⟨session, ?_, rfl⟩
      cases h with
      | hold | resume => exact hget
      | openSession hinsert =>
          exact (Table.get_insert_of_some hinsert (Option.isSome_of_eq_some hget)).trans hget
      | closeSession hsession _ hid _ _ hreplace =>
          refine (Table.get_replace_other hreplace hid fun heq => hrow ?_).trans hget
          rw [heq]
          exact List.mem_singleton_self _

theorem cartService_rules : cartService.Rules fun state call state' => CartWrites state call.2 state' where
  row_of_read := CartState.row_of_read
  write hseen _ hwrite := by
    simp only [cartService] at hseen hwrite
    rw [CartState.seeAll_eq hseen] at hwrite
    exact .inr (perform_writes (toOption_eq_some.mp hwrite))
  frame hwrites hlocks hread := hwrites.read (fun hrow => hlocks (.plan hrow)) hread
  plan _ hrow := hrow
  view _ _ := rfl

/-! ## What holds of every cart -/

/-- A session keeps its member and its terminal, and is not opened again. -/
structure SessionBecomes (session session' : PosSession) : Prop where
  owner : session'.openedByMembershipId = session.openedByMembershipId
  terminal : session'.terminalId = session.terminalId
  closed : session.status = .closed → session' = session

theorem SessionBecomes.refl (session : PosSession) : SessionBecomes session session :=
  ⟨rfl, rfl, fun _ => rfl⟩

theorem SessionBecomes.trans {session session' session'' : PosSession}
    (h : SessionBecomes session session') (h' : SessionBecomes session' session'') :
    SessionBecomes session session'' := by
  refine ⟨h'.owner.trans h.owner, h'.terminal.trans h.terminal, fun hclosed => ?_⟩
  obtain rfl := h.closed hclosed
  exact h'.closed hclosed

theorem CartWrites.sessions (h : CartWrites state call state') :
    Table.Later SessionBecomes state.sessions state'.sessions := by
  cases h with
  | hold | resume => exact .refl SessionBecomes.refl _
  | openSession hinsert => exact .insert SessionBecomes.refl hinsert
  | closeSession hget hopen hid howner hterminal hreplace =>
      refine .replace SessionBecomes.refl hget hreplace hid ⟨howner, hterminal, fun hclosed => ?_⟩
      rw [hopen] at hclosed
      cases hclosed

/-- A cart belongs to the member and the terminal of its session. -/
def CartState.Owns (state : CartState) (cart : HeldSale) : Prop :=
  ∃ session, state.sessions.get cart.sessionId = some session ∧
    cart.heldByMembershipId = session.openedByMembershipId ∧ cart.terminalId = session.terminalId

theorem CartState.Owns.later {cart : HeldSale} (h : state.Owns cart)
    (hlater : Table.Later SessionBecomes state.sessions state'.sessions) : state'.Owns cart := by
  obtain ⟨session, hget, howner, hterminal⟩ := h
  obtain ⟨session', hget', hbecomes⟩ := hlater _ session hget
  exact ⟨session', hget', howner.trans hbecomes.owner.symm, hterminal.trans hbecomes.terminal.symm⟩

structure CartsSound (state : CartState) : Prop where
  /-- The carts that were held are those that are there, and those that were handed back. -/
  conserved : state.parked.Perm (state.handed.map (·.cart) ++ state.held.rows)
  owned : ∀ cart ∈ state.parked, state.Owns cart
  /-- A cart is handed to the member who held it. -/
  handed : ∀ handed ∈ state.handed, handed.membershipId = handed.cart.heldByMembershipId

theorem CartsSound.empty : CartsSound .empty :=
  ⟨.refl _, List.forall_mem_nil _, List.forall_mem_nil _⟩

theorem CartsSound.owned_held (h : CartsSound state) {cart : HeldSale} (hcart : cart ∈ state.held.rows) :
    state.Owns cart :=
  h.owned cart (h.conserved.mem_iff.mpr (List.mem_append_right _ hcart))

theorem CartsSound.writes (h : CartsSound state) (hwrites : CartWrites state call state') :
    CartsSound state' := by
  have hlater := hwrites.sessions
  have howned : ∀ cart ∈ state.parked, state'.Owns cart :=
    fun cart hcart => (h.owned cart hcart).later hlater
  cases hwrites with
  | openSession | closeSession => exact ⟨h.conserved, howned, h.handed⟩
  | @hold payload session cart held hget hopen hsession howner hterminal hlines hinsert =>
      refine ⟨?_, ?_, h.handed⟩
      · rw [(Table.insert_eq_some hinsert).1, ← List.append_assoc]
        exact h.conserved.append_right [cart]
      · rw [List.forall_mem_append, List.forall_mem_singleton]
        exact ⟨howned, session, hsession ▸ hget, howner, hterminal⟩
  | @resume cart session hheld hget hopen =>
      refine ⟨?_, howned, ?_⟩
      · obtain ⟨before, after, hrows, herased⟩ := Table.erase_rows hheld
        refine h.conserved.trans ?_
        rw [hrows, herased, List.map_append, List.map_singleton, List.append_assoc]
        exact List.perm_middle.append_left _
      · rw [List.forall_mem_append, List.forall_mem_singleton]
        refine ⟨h.handed, ?_⟩
        obtain ⟨session', hget', howner, -⟩ := h.owned_held (Table.get_mem hheld).1
        rw [hget] at hget'
        rw [howner, Option.some.inj hget']

/-! ## Carts of a closed session -/

/-- The carts of a session, with those that were handed back. -/
def CartState.cartsOf (state : CartState) (sessionId : Uuid) : List HeldSale × List HandedBack :=
  (state.held.rows.filter (·.sessionId = sessionId), state.handed.filter (·.cart.sessionId = sessionId))

structure CartsFollow (state state' : CartState) : Prop where
  sessions : Table.Later SessionBecomes state.sessions state'.sessions
  /-- A closed session keeps its carts. -/
  stranded : ∀ session ∈ state.sessions.rows, session.status = .closed →
    state'.cartsOf session.id = state.cartsOf session.id

theorem CartsFollow.refl (state : CartState) : CartsFollow state state :=
  ⟨.refl SessionBecomes.refl _, fun _ _ _ => rfl⟩

theorem CartsFollow.trans {state'' : CartState} (h : CartsFollow state state')
    (h' : CartsFollow state' state'') : CartsFollow state state'' := by
  refine ⟨h.sessions.trans SessionBecomes.trans h'.sessions, fun session hsession hclosed => ?_⟩
  obtain ⟨session', hget, hbecomes⟩ := h.sessions _ session (Table.get_eq_some.mpr ⟨hsession, rfl⟩)
  obtain rfl := hbecomes.closed hclosed
  exact (h'.stranded _ (Table.get_mem hget).1 hclosed).trans (h.stranded _ hsession hclosed)

theorem CartWrites.follows (h : CartWrites state call state') : CartsFollow state state' := by
  refine ⟨h.sessions, fun session hsession hclosed => ?_⟩
  -- an open session is another one
  have hother {sessionId : Uuid} {opened : PosSession} (hget : state.sessions.get sessionId = some opened)
      (hopen : opened.status = .opened) : sessionId ≠ session.id := by
    rintro rfl
    rw [Table.get_eq_some.mpr ⟨hsession, rfl⟩] at hget
    cases hget
    rw [hclosed] at hopen
    cases hopen
  cases h with
  | openSession | closeSession => rfl
  | hold hget hopen hcart _ _ _ hinsert =>
      have hne := hother hget hopen
      rw [← hcart] at hne
      refine Prod.ext ?_ rfl
      simp [CartState.cartsOf, (Table.insert_eq_some hinsert).1, hne]
  | @resume cart opened hheld hget hopen =>
      have hne := hother hget hopen
      obtain ⟨before, after, hrows, herased⟩ := Table.erase_rows hheld
      refine Prod.ext ?_ ?_
      · simp [CartState.cartsOf, hrows, herased, hne]
      · simp [CartState.cartsOf, hne]

/-! ## Carts in every interleaving -/

/-- A cart that is listed resumes, with its lines. -/
theorem listHolds_resume {sessionId : Uuid} {carts : List HeldSale}
    (h : listHolds request around state sessionId = .ok carts) :
    ∀ cart ∈ carts, ∃ state', resume request around state cart.id = .ok (state', cart.lines) := by
  obtain ⟨session, hsession, hrest⟩ := bind_eq_ok.mp h
  cases hrest
  intro cart hcart
  rw [List.mem_insertionSort, List.mem_filter, decide_eq_true_iff] at hcart
  obtain ⟨hmem, rfl⟩ := hcart
  exact ⟨_, bind_eq_ok.mpr ⟨cart, orRaise_eq_ok.mpr (Table.get_eq_some.mpr ⟨hmem, rfl⟩),
    bind_eq_ok.mpr ⟨session, hsession, rfl⟩⟩⟩

/-- In every interleaving the carts that were held are there still or were handed back once, each to the
member who held it, and those that are listed resume. -/
theorem carts_sound {s : CartRun} (h : cartService.protocol.Reaches (Protocol.init .empty) s) :
    CartsSound s.committed ∧
      ∀ (request : Request) (around : TenantDb) (sessionId : Uuid) (carts : List HeldSale),
        listHolds request around s.committed sessionId = .ok carts → ∀ cart ∈ carts,
          cart ∈ s.committed.parked ∧
            ∃ state', resume request around s.committed cart.id = .ok (state', cart.lines) := by
  have hsound : CartsSound s.committed :=
    ((cartService_rules.sound fun _ _ _ hsound hwrites => hsound.writes hwrites).runs h
      (.init .empty)).committed
  refine ⟨hsound, fun request around sessionId carts hlist cart hcart => ⟨?_, listHolds_resume hlist cart hcart⟩⟩
  obtain ⟨_, -, hrest⟩ := bind_eq_ok.mp hlist
  cases hrest
  rw [List.mem_insertionSort, List.mem_filter] at hcart
  exact hsound.conserved.mem_iff.mpr (List.mem_append_right _ hcart.1)

/-- In every interleaving a session that is closed keeps the carts that it has: none is added to it, and none
is handed back. -/
theorem carts_follow {s t : CartRun} (hs : cartService.protocol.Reaches (Protocol.init .empty) s)
    (ht : cartService.protocol.Reaches s t) : CartsFollow s.committed t.committed :=
  cartService_rules.follows (I := CartsSound) .refl (fun h h' => h.trans h')
    (fun _ _ _ hsound hwrites => ⟨hsound.writes hwrites, hwrites.follows⟩) .empty hs ht

/-! ## Two carts -/

/-- A cart with one line. -/
def oneCart (label : String) : HoldCreate :=
  ⟨1, some label, [⟨8, 1000000, 0, Sample.onePiece_pos, Sample.onePiece_lt, Sample.zero_le,
    Sample.zero_le_rate⟩], List.cons_ne_nil _ _⟩

/-- A request that reads some rows and runs to its end, while no other does. -/
def cartAlone (t : Nat) (call : CartCall) (rows : Nat) : List (TxAction (Request × CartCall) TenantDb) :=
  .begin t (cornerRequest t, call) :: (List.replicate (rows + 1) (.run t (.start corner)) ++ [.finish t])

theorem float_range : 0 ≤ (1000000 : Money) ∧ (1000000 : Money) < 10 ^ 18 := by decide

/-- Two carts are held, and the first is resumed twice before the session is closed.  The second request has
to wait, and then finds no cart. -/
def resumedTwice : List (TxAction (Request × CartCall) TenantDb) :=
  cartAlone 1 (.openSession ⟨5, 1000000, float_range⟩) 0 ++
  cartAlone 2 (.hold (oneCart "door")) 1 ++
  cartAlone 3 (.hold (oneCart "window")) 1 ++
  [.begin 4 (cornerRequest 4, .resume 2), .begin 5 (cornerRequest 5, .resume 2), .run 4 (.start corner),
   .run 4 (.start corner), .run 4 (.start corner), .finish 4, .run 5 (.start corner), .finish 5] ++
  cartAlone 6 (.closeSession 1 1000000) 1

/-- The other cart is asked for. -/
def resumedLate : List (TxAction (Request × CartCall) TenantDb) := cartAlone 7 (.resume 3) 2

theorem resumedTwice_reaches : ∃ s t : CartRun,
    cartService.protocol.Reaches (Protocol.init .empty) s ∧ cartService.protocol.Reaches s t ∧
      s.committed.sessions.rows.map (·.status) = [.closed] ∧
        s.committed.parked.map (·.id) = [2, 3] ∧ s.committed.handed.map (·.cart.id) = [2] ∧
          t.committed.held.rows.map (·.id) = [3] := by
  obtain ⟨s, hs, hclosed, hparked, hhanded, hlate⟩ :=
    Protocol.Reaches.exists_of_any (p := cartService.protocol) (s := Protocol.init .empty)
      (F := fun s => s.committed.sessions.rows.map (·.status) = [.closed] ∧
        s.committed.parked.map (·.id) = [2, 3] ∧ s.committed.handed.map (·.cart.id) = [2] ∧
          (resumedLate.foldlM cartService.protocol.step s).any fun t =>
            t.committed.held.rows.map (·.id) = [3])
      resumedTwice (by decide +kernel)
  obtain ⟨t, ht, hheld⟩ := Protocol.Reaches.exists_of_any resumedLate hlate
  exact ⟨s, t, hs, ht, hclosed, hparked, hhanded, hheld⟩

theorem carts_sound_resumedTwice : ∃ s : CartRun,
    s.committed.parked.map (·.id) = [2, 3] ∧ s.committed.handed.map (·.cart.id) = [2] ∧
      CartsSound s.committed := by
  obtain ⟨s, t, hs, -, -, hparked, hhanded, -⟩ := resumedTwice_reaches
  exact ⟨s, hparked, hhanded, (carts_sound hs).1⟩

theorem carts_follow_resumedLate : ∃ s t : CartRun,
    s.committed.sessions.rows.map (·.status) = [.closed] ∧ t.committed.held.rows.map (·.id) = [3] ∧
      CartsFollow s.committed t.committed := by
  obtain ⟨s, t, hs, ht, hclosed, -, -, hheld⟩ := resumedTwice_reaches
  exact ⟨s, t, hclosed, hheld, carts_follow hs ht⟩

end Nexora.Tenant
