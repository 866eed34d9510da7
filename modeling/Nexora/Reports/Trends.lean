import Nexora.Accounting.GeneralLedger
import Nexora.Reports.GrossProfit

/-!
# The sales of a range, day by day and product by product

`sales_trend` and `top_products` of `app/modules/reporting/service.py`, next to the dashboard of the same
range.  The trend has a row for each day of the range, with the sales of that day, and `generate_series`
makes the days.  The products are ranked by what their lines come to.

The days add up to the dashboard (`sales_trend_adds_up`).  The products do too, with those that the limit
has cut off (`top_products_add_up`): a sale comes to what its lines come to, in every run.
-/

namespace Nexora

open Catalog Sales Pos Tenant Foundations
open Accounting (Date Money between money)

/-! ## Days of a range -/

namespace Accounting

/-- The number of a day. -/
def Date.number (d : Date) : ℕ := ordinal d.year d.month d.day

/-- A day and those after it. -/
def Date.days : ℕ → Date → List Date
  | 0, _ => []
  | n + 1, d => d :: Date.days n d.next

/-- `generate_series(start, stop, interval '1 day')`. -/
def generateSeries (start stop : Date) : List Date := Date.days (stop.number + 1 - start.number) start

theorem daysInMonth_pos (year month : ℕ) : 1 ≤ daysInMonth year month := by
  unfold daysInMonth
  split
  · split <;> omega
  all_goals omega

theorem Date.IsDay.next {d : Date} (h : d.IsDay) : d.next.IsDay := by
  obtain ⟨⟨hyear, hmonth⟩, htwelve, hone, hday⟩ := h
  unfold Date.next
  split_ifs with hlast hdecember
  · exact ⟨⟨hyear, hmonth⟩, htwelve, Nat.le_add_left 1 _, hlast⟩
  · exact ⟨⟨hyear, Nat.le_add_left 1 _⟩, hdecember, le_rfl, daysInMonth_pos _ _⟩
  · exact ⟨⟨Nat.le_add_left 1 _, le_rfl⟩, Nat.le_of_ble_eq_true rfl, le_rfl, daysInMonth_pos _ _⟩

theorem Date.number_next {d : Date} (h : d.IsDay) : d.next.number = d.number + 1 := by
  obtain ⟨⟨hyear, hmonth⟩, htwelve, hone, hday⟩ := h
  have hover : daysBeforeMonth d.year (d.month + 1) =
      daysBeforeMonth d.year d.month + daysInMonth d.year d.month := daysBeforeMonth_succ hmonth
  unfold Date.next
  split_ifs with hlast hdecember
  · rfl
  · simp only [number, ordinal]
    omega
  · -- the last day of the year
    have hyears := daysBeforeYear_succ hyear
    have hmonths : d.month + 1 = 13 := by omega
    rw [hmonths] at hover
    have hfirst : daysBeforeMonth (d.year + 1) 1 = 0 := rfl
    simp only [number, ordinal]
    omega

theorem Date.number_lt {d d' : Date} (hd : d.IsDay) (hd' : d'.IsDay) (h : d < d') : d.number < d'.number := by
  refine ordinal_lt hd hd' ?_
  rw [← not_le, Date.le_iff] at h
  omega

theorem Date.number_le_iff {d d' : Date} (hd : d.IsDay) (hd' : d'.IsDay) : d.number ≤ d'.number ↔ d ≤ d' := by
  constructor
  · intro h
    by_contra hlt
    exact absurd (number_lt hd' hd (not_le.mp hlt)) (by omega)
  · intro h
    rcases h.eq_or_lt with rfl | hlt
    · exact le_rfl
    · exact (number_lt hd hd' hlt).le

theorem Date.mem_days {d : Date} (hd : d.IsDay) (n : ℕ) {day : Date} :
    day ∈ d.days n ↔ day.IsDay ∧ d ≤ day ∧ day.number < d.number + n := by
  induction n generalizing d with
  | zero =>
      refine ⟨fun hday => absurd hday List.not_mem_nil, fun ⟨hday, hle, hlt⟩ => ?_⟩
      exact absurd ((number_le_iff hd hday).mpr hle) (by omega)
  | succ n ih =>
      rw [days, List.mem_cons, ih hd.next, number_next hd]
      constructor
      · rintro (rfl | ⟨hday, hle, hlt⟩)
        · exact ⟨hd, le_rfl, by omega⟩
        · exact ⟨hday, ((lt_next hd).trans_le hle).le, by omega⟩
      · rintro ⟨hday, hle, hlt⟩
        rcases hle.eq_or_lt with rfl | hafter
        · exact .inl rfl
        · refine .inr ⟨hday, not_lt.mp fun hbefore => ?_, by omega⟩
          exact absurd ((lt_next_iff hday hd).mp hbefore) (not_le.mpr hafter)

theorem Date.pairwise_days {d : Date} (hd : d.IsDay) (n : ℕ) : (d.days n).Pairwise (· < ·) := by
  induction n generalizing d with
  | zero => exact .nil
  | succ n ih =>
      refine .cons (fun day hday => ?_) (ih hd.next)
      exact (lt_next hd).trans_le ((mem_days hd.next n).mp hday).2.1

/-- Every day of the range, and no other. -/
theorem mem_generateSeries {start stop day : Date} (hstart : start.IsDay) (hstop : stop.IsDay)
    (hle : start ≤ stop) : day ∈ generateSeries start stop ↔ day.IsDay ∧ between start stop day = true := by
  have hnumbers := (Date.number_le_iff hstart hstop).mpr hle
  rw [generateSeries, Date.mem_days hstart, between, Bool.and_eq_true, decide_eq_true_iff, decide_eq_true_iff]
  refine and_congr_right fun hday => and_congr_right fun _ => ?_
  rw [← Date.number_le_iff hday hstop]
  omega

end Accounting

/-! ## Groups -/

/-- The sums of the groups of some keys are the sum of what has one of these keys. -/
theorem sum_groups {X K M : Type} [DecidableEq K] [AddCommMonoid M] (g : X → K) (f : X → M) (xs : List X)
    {keys : List K} (hkeys : keys.Nodup) : (keys.map fun k => ((xs.filter (g · = k)).map f).sum).sum =
      ((xs.filter (g · ∈ keys)).map f).sum := by
  let table : Table (id : K → K) := ⟨keys, by rwa [List.map_id]⟩
  have hgroup := table.sum_group (fun _ => true) g f xs
  rw [List.filter_true] at hgroup
  refine hgroup.trans ?_
  congr 2
  refine List.filter_congr fun x _ => ?_
  rw [Bool.eq_iff_iff, decide_eq_true_iff, Option.any_true, Option.isSome_iff_exists]
  constructor
  · rintro ⟨key, hget⟩
    obtain ⟨hmem, rfl⟩ := Table.get_mem hget
    exact hmem
  · exact fun hmem => ⟨_, Table.get_eq_some.mpr ⟨hmem, rfl⟩⟩

/-! ## The trend -/

/-- A row of the trend.  The revenue is the text of this decimal. -/
structure Reports.TrendDay where
  date : Date
  revenue : ℚ
  transactions : ℕ

/-- The sales of a day. -/
def Tenant.TenantDb.salesOn (db : TenantDb) (day : Date) : List SaleRow :=
  db.pos.sales.rows.filter (·.occurredOn = day)

def Tenant.TenantDb.trendDay (db : TenantDb) (day : Date) : Reports.TrendDay where
  date := day
  revenue := money ((db.salesOn day).map (·.sale.totalAmount)).sum
  transactions := (db.salesOn day).length

/-- `sales_trend`.  `cached` is what an earlier request has stored, if it is still there. -/
def Tenant.TenantDb.salesTrend (db : TenantDb) (cached : Option (List Reports.TrendDay))
    (start stop : Date) : Except Err (List Reports.TrendDay) := do
  Reports.validateRange start stop
  match cached with
  | some hit => .ok hit
  | none => .ok ((Accounting.generateSeries start stop).map db.trendDay)

namespace Tenant

variable {db db' : TenantDb} {start stop : Date}

theorem validateRange_eq_ok {u : Unit} (h : Reports.validateRange start stop = .ok u) : start ≤ stop := by
  obtain ⟨hle, -⟩ := ite_error_eq_ok.mp h
  exact not_lt.mp hle

/-- The trend of a range has each of its days once and in order, and adds up to the revenue and to the
transactions of the dashboard. -/
theorem sales_trend_adds_up (hdays : ∀ row ∈ db.pos.sales.rows, row.occurredOn.IsDay)
    (hstart : start.IsDay) (hstop : stop.IsDay) {trend : List Reports.TrendDay}
    {dashboard : Reports.Dashboard} (htrend : db.salesTrend none start stop = .ok trend)
    (hdashboard : db.dashboard none start stop = .ok dashboard) :
    (trend.map (·.date)).Pairwise (· < ·) ∧
      (∀ day, day ∈ trend.map (·.date) ↔ day.IsDay ∧ between start stop day = true) ∧
        (trend.map (·.revenue)).sum = dashboard.posRevenue ∧
          (trend.map (·.transactions)).sum = dashboard.transactions := by
  obtain ⟨_, hrange, hrest⟩ := bind_eq_ok.mp htrend
  cases hrest
  obtain ⟨_, -, hrest⟩ := bind_eq_ok.mp hdashboard
  cases hrest
  have hle := validateRange_eq_ok hrange
  have hsorted := Accounting.Date.pairwise_days hstart (stop.number + 1 - start.number)
  have hnodup : (Accounting.generateSeries start stop).Nodup := hsorted.imp ne_of_lt
  have hdates : ((Accounting.generateSeries start stop).map db.trendDay).map (·.date) =
      Accounting.generateSeries start stop := by
    rw [List.map_map]
    exact List.map_id _
  have hrows : (db.pos.sales.rows.filter fun row => row.occurredOn ∈ Accounting.generateSeries start stop) =
      db.salesBetween start stop := by
    refine List.filter_congr fun row hrow => ?_
    rw [Bool.eq_iff_iff, decide_eq_true_iff, Accounting.mem_generateSeries hstart hstop hle]
    exact and_iff_right (hdays row hrow)
  rw [hdates]
  refine ⟨hsorted, fun day => Accounting.mem_generateSeries hstart hstop hle, ?_, ?_⟩
  · have hsum := sum_groups SaleRow.occurredOn (fun row => row.sale.totalAmount) db.pos.sales.rows hnodup
    rw [hrows] at hsum
    show _ = money (db.posRevenue start stop)
    rw [TenantDb.posRevenue, ← hsum, money, ← sum_places, List.map_map, List.map_map]
    rfl
  · have hsum := sum_groups SaleRow.occurredOn (fun _ => 1) db.pos.sales.rows hnodup
    rw [hrows] at hsum
    simp only [List.map_const', List.sum_replicate, smul_eq_mul, mul_one] at hsum
    rw [List.map_map]
    exact hsum

/-- A month with one sale. -/
theorem sales_trend_adds_up_two_pieces : ∃ trend dashboard,
    (afterTwoPieces untaxed 100000).salesTrend none ⟨2026, 1, 1⟩ ⟨2026, 1, 31⟩ = .ok trend ∧
      (afterTwoPieces untaxed 100000).dashboard none ⟨2026, 1, 1⟩ ⟨2026, 1, 31⟩ = .ok dashboard ∧
        (trend.map (·.revenue)).sum = dashboard.posRevenue := by
  have hdays : ∀ row ∈ (afterTwoPieces untaxed 100000).pos.sales.rows, row.occurredOn.IsDay := by
    decide +kernel
  have htrend : (afterTwoPieces untaxed 100000).salesTrend none ⟨2026, 1, 1⟩ ⟨2026, 1, 31⟩ = .ok _ := rfl
  have hdashboard : (afterTwoPieces untaxed 100000).dashboard none ⟨2026, 1, 1⟩ ⟨2026, 1, 31⟩ =
      .ok ((afterTwoPieces untaxed 100000).figures ⟨2026, 1, 1⟩ ⟨2026, 1, 31⟩) := rfl
  obtain ⟨-, -, hrevenue, -⟩ :=
    sales_trend_adds_up hdays (by decide) (by decide) htrend hdashboard
  exact ⟨_, _, htrend, hdashboard, hrevenue⟩

end Tenant

/-! ## The products -/

/-- A row of `top_products`.  The figures are texts of these decimals. -/
structure Reports.TopProduct where
  productId : Uuid
  quantity : ℚ
  revenue : ℚ
  margin : ℚ

/-- `ORDER BY revenue DESC`. -/
def Reports.TopProduct.Ranks (item other : Reports.TopProduct) : Prop := other.revenue ≤ item.revenue

instance : DecidableRel Reports.TopProduct.Ranks := fun _ _ => inferInstanceAs (Decidable (_ ≤ _))

instance : Std.Total Reports.TopProduct.Ranks := ⟨fun item other => le_total other.revenue item.revenue⟩

instance : IsTrans Reports.TopProduct Reports.TopProduct.Ranks := ⟨fun _ _ _ h h' => le_trans h' h⟩

/-- The lines of the sales of the query. -/
def Tenant.TenantDb.linesBetween (db : TenantDb) (start stop : Date) : List SaleLine :=
  (db.salesBetween start stop).flatMap fun row => row.sale.lines

/-- What the lines of a product come to. -/
def Reports.topProduct (lines : List SaleLine) (productId : Uuid) : Reports.TopProduct :=
  let own := lines.filter (·.productId = productId)
  { productId := productId
    quantity := ((own.map SaleLine.quantity).sum : ℤ) / 10 ^ 6
    revenue := money (own.map SaleLine.totalAmount).sum
    margin := money (own.map SaleLine.totalAmount).sum - (own.map SaleLine.cost).sum }

/-- The groups of the query, in their order. -/
def Tenant.TenantDb.rankedProducts (db : TenantDb) (start stop : Date) : List Reports.TopProduct :=
  let lines := db.linesBetween start stop
  ((lines.map SaleLine.productId).dedup.map (Reports.topProduct lines)).insertionSort Reports.TopProduct.Ranks

/-- `top_products`. -/
def Tenant.TenantDb.topProducts (db : TenantDb) (cached : Option (List Reports.TopProduct))
    (start stop : Date) (limit : ℕ) : Except Err (List Reports.TopProduct) := do
  Reports.validateRange start stop
  match cached with
  | some hit => .ok hit
  | none => .ok ((db.rankedProducts start stop).take limit)

namespace Tenant

variable {db db' : TenantDb} {start stop : Date}

/-- A sale comes to what its lines come to. -/
structure SumsUp (db : TenantDb) : Prop where
  linked : db.ledger.Linked
  total : ∀ row ∈ db.pos.sales.rows, row.sale.totalAmount = (row.sale.lines.map SaleLine.totalAmount).sum

theorem sumsUp_refund {request : Request} {payload : RefundCreate} {claim : Except Err (Option Uuid)}
    (h : SumsUp db) (hok : Pos.refund request db payload claim = .ok db') :
    ∀ row ∈ db'.pos.sales.rows, row.sale.totalAmount = (row.sale.lines.map SaleLine.totalAmount).sum := by
  obtain ⟨-, rfl⟩ | ⟨-, row, state, sale, saleReturn, inventory, returns, sales, rows, hget, hitems,
    hloop, ⟨hlines, hfigures⟩, -, -, hreplace, -, -, htables⟩ := refund_eq_ok h.linked hok
  · exact h.total
  · rw [htables]
    refine Table.forall_replace (Table.get_self hget) hreplace h.total ?_
    show sale.totalAmount = (sale.lines.map SaleLine.totalAmount).sum
    have hsold := congrArg (List.map SaleLine.totalAmount) (refundItems_sold hloop)
    rw [List.map_map, List.map_map] at hsold
    rw [hlines, hfigures.totalAmount, h.total row (Table.get_mem hget).1]
    exact congrArg List.sum hsold.symm

theorem Op.keeps_sumsUp {request : Request} {op : Op} (h : SumsUp db) (hok : op.body request db = .ok db') :
    ∀ row ∈ db'.pos.sales.rows, row.sale.totalAmount = (row.sale.lines.map SaleLine.totalAmount).sum := by
  cases op with
  | openSession payload =>
      obtain ⟨_, htables⟩ := (openSession_eq_ok hok).tables
      rw [htables]
      exact h.total
  | closeSession id countedCash =>
      obtain ⟨_, htables⟩ := (closeSession_eq_ok hok).tables
      rw [htables]
      exact h.total
  | checkout payload claim =>
      obtain ⟨-, rfl⟩ | ⟨-, row, _, sales, _, hsale, -, -, -, hinsert, -, -, htables⟩ :=
        checkout_eq_ok h.linked hok
      · exact h.total
      · rw [htables]
        exact Table.forall_insert hinsert h.total (Till.checkout_completed hsale).total
  | refund payload claim => exact sumsUp_refund h hok
  | _ =>
      rw [(Op.keeps_till h.linked rfl hok).sales]
      exact h.total

theorem TenantDb.run_sumsUp (configuration : Configuration) (calls : List Call) :
    SumsUp ((TenantDb.start configuration).run calls) := by
  refine TenantDb.run_invariant ?_ calls ⟨Accounting.LedgerDb.linked_empty, fun row hrow => by cases hrow⟩
  intro db call db' hdb hok
  obtain ⟨_, _, hbooks, -⟩ := Op.books hdb.linked hok
  exact ⟨hbooks.linked, Op.keeps_sumsUp hdb hok⟩

/-! ## The whole ranking -/

theorem sum_map_topProduct {M : Type} [AddCommMonoid M] (f : SaleLine → M) (lines : List SaleLine) :
    ((lines.map SaleLine.productId).dedup.map fun id =>
      ((lines.filter (·.productId = id)).map f).sum).sum = (lines.map f).sum := by
  rw [sum_groups _ f lines (List.nodup_dedup _)]
  congr 2
  refine List.filter_eq_self.mpr fun line hline => decide_eq_true ?_
  exact List.mem_dedup.mpr (List.mem_map_of_mem hline)

theorem revenue_linesBetween (h : SumsUp db) (start stop : Date) :
    ((db.linesBetween start stop).map SaleLine.totalAmount).sum = db.posRevenue start stop := by
  rw [TenantDb.linesBetween, List.map_flatMap, List.flatMap, List.sum_flatten, List.map_map,
    TenantDb.posRevenue]
  congr 1
  refine List.map_congr_left fun row hrow => ?_
  exact (h.total row (List.mem_filter.mp hrow).1).symm

theorem cost_linesBetween (db : TenantDb) (start stop : Date) :
    ((db.linesBetween start stop).map SaleLine.cost).sum = db.costOfGoodsSold start stop := by
  rw [TenantDb.linesBetween, List.map_flatMap, TenantDb.costOfGoodsSold]

theorem map_rankedProducts_perm {X : Type} (f : Reports.TopProduct → X) (db : TenantDb) (start stop : Date) :
    ((db.rankedProducts start stop).map f).Perm
      (((db.linesBetween start stop).map SaleLine.productId).dedup.map
        fun id => f (Reports.topProduct (db.linesBetween start stop) id)) := by
  refine ((List.perm_insertionSort Reports.TopProduct.Ranks _).map f).trans (.of_eq ?_)
  rw [List.map_map]
  rfl

theorem sum_revenue (h : SumsUp db) (start stop : Date) :
    ((db.rankedProducts start stop).map (·.revenue)).sum = money (db.posRevenue start stop) := by
  refine (map_rankedProducts_perm _ db start stop).sum_eq.trans ?_
  rw [← revenue_linesBetween h, ← sum_map_topProduct SaleLine.totalAmount, money, ← sum_places, List.map_map]
  rfl

theorem sum_margin (h : SumsUp db) (start stop : Date) :
    ((db.rankedProducts start stop).map (·.margin)).sum =
      money (db.posRevenue start stop) - db.costOfGoodsSold start stop := by
  have hrevenue := (map_rankedProducts_perm (·.revenue) db start stop).sum_eq
  refine (map_rankedProducts_perm _ db start stop).sum_eq.trans ?_
  rw [← sum_revenue h, hrevenue, ← cost_linesBetween, ← sum_map_topProduct SaleLine.cost]
  let ids := ((db.linesBetween start stop).map SaleLine.productId).dedup
  let own := fun id => (db.linesBetween start stop).filter (·.productId = id)
  exact Multiset.sum_map_sub (m := ids) (f := fun id => money ((own id).map SaleLine.totalAmount).sum)
    (g := fun id => ((own id).map SaleLine.cost).sum)

/-- The products of a range, in every run: each that was sold is ranked once, by what its lines come to, and
together with those that the limit has cut off they come to the revenue of the dashboard, and their margins
to the revenue less the cost. -/
theorem top_products_add_up (configuration : Configuration) (calls : List Call) {limit : ℕ}
    {items : List Reports.TopProduct} {dashboard : Reports.Dashboard}
    (hitems : ((TenantDb.start configuration).run calls).topProducts none start stop limit = .ok items)
    (hdashboard : ((TenantDb.start configuration).run calls).dashboard none start stop = .ok dashboard) :
    ∃ rest : List Reports.TopProduct,
      ((items ++ rest).map (·.productId)).Nodup ∧
        (∀ id, id ∈ (items ++ rest).map (·.productId) ↔
          ∃ line ∈ ((TenantDb.start configuration).run calls).linesBetween start stop, line.productId = id) ∧
        (items ++ rest).Pairwise Reports.TopProduct.Ranks ∧ (rest ≠ [] → items.length = limit) ∧
          ((items ++ rest).map (·.revenue)).sum = dashboard.posRevenue ∧
            ((items ++ rest).map (·.margin)).sum = dashboard.posRevenue - dashboard.costOfGoodsSold := by
  have hsums := TenantDb.run_sumsUp configuration calls
  generalize (TenantDb.start configuration).run calls = db at *
  obtain ⟨_, -, hrest⟩ := bind_eq_ok.mp hitems
  cases hrest
  obtain ⟨_, -, hrest⟩ := bind_eq_ok.mp hdashboard
  cases hrest
  have hperm := map_rankedProducts_perm (·.productId) db start stop
  have hids : (((db.linesBetween start stop).map SaleLine.productId).dedup.map
      fun id => (Reports.topProduct (db.linesBetween start stop) id).productId) =
        ((db.linesBetween start stop).map SaleLine.productId).dedup := List.map_id _
  rw [hids] at hperm
  refine ⟨(db.rankedProducts start stop).drop limit, ?_⟩
  rw [List.take_append_drop]
  refine ⟨hperm.nodup_iff.mpr (List.nodup_dedup _), fun id => ?_, List.pairwise_insertionSort _ _,
    fun hne => ?_, sum_revenue hsums start stop, sum_margin hsums start stop⟩
  · refine hperm.mem_iff.trans ?_
    rw [List.mem_dedup, List.mem_map]
  · rw [List.length_take]
    have hlt := List.length_lt_of_drop_ne_nil hne
    omega

/-- Two pieces are sold. -/
theorem top_products_add_up_two_pieces : ∃ items rest dashboard,
    (afterTwoPieces untaxed 100000).topProducts none ⟨2026, 1, 1⟩ ⟨2026, 1, 31⟩ 10 = .ok items ∧
      (afterTwoPieces untaxed 100000).dashboard none ⟨2026, 1, 1⟩ ⟨2026, 1, 31⟩ = .ok dashboard ∧
        ((items ++ rest).map (·.revenue)).sum = dashboard.posRevenue := by
  have hitems : (afterTwoPieces untaxed 100000).topProducts none ⟨2026, 1, 1⟩ ⟨2026, 1, 31⟩ 10 =
      .ok (((afterTwoPieces untaxed 100000).rankedProducts ⟨2026, 1, 1⟩ ⟨2026, 1, 31⟩).take 10) := rfl
  have hdashboard : (afterTwoPieces untaxed 100000).dashboard none ⟨2026, 1, 1⟩ ⟨2026, 1, 31⟩ =
      .ok ((afterTwoPieces untaxed 100000).figures ⟨2026, 1, 1⟩ ⟨2026, 1, 31⟩) := rfl
  obtain ⟨rest, -, -, -, -, hrevenue, -⟩ :=
    top_products_add_up untaxed (twoPieces untaxed 100000) hitems hdashboard
  exact ⟨_, rest, _, hitems, hdashboard, hrevenue⟩

end Tenant

end Nexora
