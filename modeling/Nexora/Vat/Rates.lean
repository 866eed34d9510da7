import Nexora.Catalog.Products
import Nexora.Foundations.RowServices
import Nexora.Vat.Pricing
import Mathlib.Data.List.MinMax

/-!
# VAT rates over time

`create_rate`, `_rate_on` and `breakdown` of `app/modules/vat/service.py`.  Rates are versioned: a rate is
created with the date from which it is valid, and no rate is changed or deleted.  The rate of a date is
the one in force that starts last.

So what a date was taxed at changes only when a rate is created that is in force on that date and starts
later than the one before (`rates_kept_iff`).  As long as there is none, the gross price that was quoted
for a net one is quoted the same (`quote_reads_back`).
-/

namespace Nexora.Vat

open Nexora Foundations
open Nexora.Accounting (Date)
open Nexora.Catalog (Rate)

/-! ## Rates -/

/-- `VatRate`.  The rate is `NUMERIC(9, 6)`, in units of `0.000001`. -/
structure VatRate where
  id : Uuid
  code : String
  name : String
  rate : Rate
  validFrom : Date
  validTo : Option Date
  rate_range : 0 ≤ rate ∧ rate ≤ 10 ^ 6
  valid_range : ∀ last ∈ validTo, validFrom ≤ last

/-- `RateCreate`. -/
structure RateCreate where
  code : String
  name : String
  rate : ℚ
  validFrom : Date
  validTo : Option Date
  rate_range : 0 ≤ rate ∧ rate ≤ 1

/-- A rate as its column stores it. -/
def storedRate (rate : ℚ) : Rate := roundHalfUp (rate * 10 ^ 6)

theorem storedRate_range {rate : ℚ} (h : 0 ≤ rate ∧ rate ≤ 1) :
    0 ≤ storedRate rate ∧ storedRate rate ≤ 10 ^ 6 := by
  have hscaled : 0 ≤ rate * 10 ^ 6 := mul_nonneg h.1 (by norm_num)
  have hle : rate * 10 ^ 6 ≤ ((10 ^ 6 : ℤ) : ℚ) := by
    push_cast
    linarith [h.2]
  refine ⟨roundHalfUp_nonneg hscaled, ?_⟩
  exact (roundHalfUp_mono hscaled hle).trans_eq (roundHalfUp_intCast _)

/-- `create_rate`.  A check of the table comes before its unique index. -/
def createRate (rates : Table VatRate.id) (payload : RateCreate) (id : Uuid) :
    Except Err (Table VatRate.id) :=
  if hvalid : ∀ last ∈ payload.validTo, payload.validFrom ≤ last then
    if rates.rows.any fun rate => rate.code = payload.code ∧ rate.validFrom = payload.validFrom then
      .error (.conflict "DUPLICATE_RESOURCE" "A rate with that code already starts on that date.")
    else
      orRaise (.integrity "pk_vat_rates")
        (rates.insert
          { id := id
            code := payload.code
            name := payload.name
            rate := storedRate payload.rate
            validFrom := payload.validFrom
            validTo := payload.validTo
            rate_range := storedRate_range payload.rate_range
            valid_range := hvalid })
  else .error (.integrity "ck_vat_rates_valid_range")

/-- The filter of `_rate_on`. -/
def VatRate.InForce (code : String) (onDate : Date) (rate : VatRate) : Prop :=
  rate.code = code ∧ rate.validFrom ≤ onDate ∧ ∀ last ∈ rate.validTo, onDate ≤ last

instance (code : String) (onDate : Date) : DecidablePred (VatRate.InForce code onDate) :=
  fun _ => inferInstanceAs (Decidable (_ ∧ _ ∧ _))

/-- `_rate_on`. -/
def rateOn (rates : Table VatRate.id) (code : String) (onDate : Date) : Option VatRate :=
  (rates.rows.filter (VatRate.InForce code onDate)).argmax (·.validFrom)

/-- `PriceQuery`. -/
structure PriceQuery where
  amount : ℚ
  rateCode : String
  onDate : Date
  inclusive : Bool

/-- What `breakdown` answers. -/
structure Quote where
  price : Price
  rate : Rate
  rateCode : String
deriving DecidableEq

/-- `breakdown`. -/
def breakdown (rates : Table VatRate.id) (query : PriceQuery) : Except Err Quote := do
  let rate ← orRaise .notFound (rateOn rates query.rateCode query.onDate)
  let price ←
    if query.inclusive then (inclusive query.amount (rate.rate / 10 ^ 6)).mapError .runtime
    else .ok (exclusive query.amount (rate.rate / 10 ^ 6))
  .ok ⟨price, rate.rate, rate.code⟩

/-! ## The rate of a date -/

variable {rates rates' : Table VatRate.id} {code : String} {onDate : Date} {rate : VatRate}

/-- `uq_vat_rates_tenant_id_code_valid_from`. -/
def UniqueStarts (rates : Table VatRate.id) : Prop :=
  (rates.rows.map fun rate => (rate.code, rate.validFrom)).Nodup

theorem UniqueStarts.empty : UniqueStarts (.empty _) := List.nodup_nil

theorem UniqueStarts.eq {rate' : VatRate} (h : UniqueStarts rates) (hrate : rate ∈ rates.rows)
    (hrate' : rate' ∈ rates.rows) (hcode : rate.code = rate'.code)
    (hfrom : rate.validFrom = rate'.validFrom) : rate = rate' :=
  List.inj_on_of_nodup_map h hrate hrate' (Prod.ext hcode hfrom)

theorem rateOn_eq_some_iff (h : UniqueStarts rates) :
    rateOn rates code onDate = some rate ↔
      rate ∈ rates.rows ∧ rate.InForce code onDate ∧
        ∀ other ∈ rates.rows, other.InForce code onDate → other.validFrom ≤ rate.validFrom := by
  have hmem {other : VatRate} :
      other ∈ rates.rows.filter (VatRate.InForce code onDate) ↔
        other ∈ rates.rows ∧ other.InForce code onDate := by
    rw [List.mem_filter, decide_eq_true_iff]
  constructor
  · intro hrate
    obtain ⟨hrow, hforce⟩ := hmem.mp (List.argmax_mem hrate)
    exact ⟨hrow, hforce, fun other hother hin => List.le_of_mem_argmax (hmem.mpr ⟨hother, hin⟩) hrate⟩
  · rintro ⟨hrow, hforce, hlast⟩
    rw [rateOn]
    cases hmax : (rates.rows.filter (VatRate.InForce code onDate)).argmax (·.validFrom) with
    | none =>
        have hnil := List.argmax_eq_none.mp hmax
        exact absurd (hmem.mpr ⟨hrow, hforce⟩) (hnil ▸ List.not_mem_nil)
    | some other =>
        -- both start last
        obtain ⟨hother, hin⟩ := hmem.mp (List.argmax_mem hmax)
        have hle := List.le_of_mem_argmax (hmem.mpr ⟨hrow, hforce⟩) hmax
        have hfrom := le_antisymm (hlast other hother hin) hle
        rw [h.eq hother hrow (hin.1.trans hforce.1.symm) hfrom]

theorem rateOn_eq_none_iff :
    rateOn rates code onDate = none ↔ ∀ rate ∈ rates.rows, ¬rate.InForce code onDate := by
  rw [rateOn, List.argmax_eq_none, List.filter_eq_nil_iff]
  exact forall₂_congr fun rate _ => not_congr decide_eq_true_iff

/-- A rate that is new goes before the one that the date had. -/
def RateRestated (rates rates' : Table VatRate.id) (code : String) (onDate : Date) : Prop :=
  ∃ rate ∈ rates'.rows, rate ∉ rates.rows ∧ rate.InForce code onDate ∧
    ∀ old ∈ rateOn rates code onDate, old.validFrom < rate.validFrom

theorem rateOn_eq_iff (h : UniqueStarts rates') (hsub : rates.rows.Sublist rates'.rows) :
    rateOn rates' code onDate = rateOn rates code onDate ↔ ¬RateRestated rates rates' code onDate := by
  have hstarts : UniqueStarts rates := List.Nodup.sublist (hsub.map _) h
  constructor
  · rintro heq ⟨rate, hrate, hnew, hforce, hlater⟩
    cases hold : rateOn rates code onDate with
    | none => exact rateOn_eq_none_iff.mp (heq.trans hold) rate hrate hforce
    | some old =>
        have hlast := ((rateOn_eq_some_iff h).mp (heq.trans hold)).2.2 rate hrate hforce
        exact absurd (hlater old hold) (not_lt.mpr hlast)
  · intro hkept
    cases hold : rateOn rates code onDate with
    | none =>
        refine rateOn_eq_none_iff.mpr fun rate hrate hforce => ?_
        refine hkept ⟨rate, hrate, fun hmem => ?_, hforce, fun old hget => ?_⟩
        · exact rateOn_eq_none_iff.mp hold rate hmem hforce
        · rw [hold] at hget
          cases hget
    | some old =>
        obtain ⟨hmem, hforce, hlast⟩ := (rateOn_eq_some_iff hstarts).mp hold
        refine (rateOn_eq_some_iff h).mpr ⟨hsub.subset hmem, hforce, fun rate hrate hin => ?_⟩
        by_cases hthere : rate ∈ rates.rows
        · exact hlast rate hthere hin
        · refine not_lt.mp fun hlater => hkept ⟨rate, hrate, hthere, hin, fun old' hget => ?_⟩
          rw [hold] at hget
          cases hget
          exact hlater

/-! ## Quotes -/

/-- A request creates a rate, and locks no row. -/
def rateService : RowService (Table VatRate.id) (RateCreate × Uuid) Empty Empty where
  rows _ := []
  read _ := nofun
  row := nofun
  see _ := nofun
  body rates call := (createRate rates call.1 call.2).toOption

theorem rateService_lawful : rateService.Lawful where
  row_of_read {_ row} := row.elim
  see_eq {_ r} := r.elim
  frame {_ _ _ row} := row.elim

theorem createRate_eq_ok {payload : RateCreate} {id : Uuid} (h : createRate rates payload id = .ok rates') :
    ∃ rate : VatRate, rates.insert rate = some rates' ∧
      (rate.code, rate.validFrom) ∉ rates.rows.map fun rate => (rate.code, rate.validFrom) := by
  unfold createRate at h
  split at h
  next hvalid =>
    obtain ⟨hfresh, h⟩ := ite_error_eq_ok.mp h
    refine ⟨_, orRaise_eq_ok.mp h, fun hmem => hfresh ?_⟩
    obtain ⟨rate, hrate, heq⟩ := List.mem_map.mp hmem
    obtain ⟨hcode, hfrom⟩ := Prod.mk.inj heq
    exact List.any_eq_true.mpr ⟨rate, hrate, decide_eq_true ⟨hcode, hfrom⟩⟩
  next => cases h

theorem createRate_keeps {call : RateCreate × Uuid} (h : UniqueStarts rates)
    (hbody : rateService.body rates call = some rates') :
    UniqueStarts rates' ∧ rates.rows.Sublist rates'.rows := by
  obtain ⟨rate, hinsert, hfresh⟩ := createRate_eq_ok (toOption_eq_some.mp hbody)
  refine ⟨Table.nodup_map_insert hinsert h hfresh, ?_⟩
  rw [(Table.insert_eq_some hinsert).1]
  exact List.sublist_append_left ..

theorem rates_later {s t : rateService.Interleaving}
    (hs : rateService.protocol.Reaches (Protocol.init (.empty _)) s)
    (ht : rateService.protocol.Reaches s t) :
    UniqueStarts t.committed ∧ s.committed.rows.Sublist t.committed.rows := by
  constructor
  · exact rateService_lawful.invariant (fun _ _ _ hu hbody => (createRate_keeps hu hbody).1)
      .empty (hs.trans ht)
  · exact rateService_lawful.follows (R := fun rates rates' => rates.rows.Sublist rates'.rows)
      (fun rates => .refl rates.rows) (fun h h' => h.trans h')
      (fun _ _ _ hu hbody => createRate_keeps hu hbody) .empty hs ht

/-- In every interleaving the rate of a date stays what it was, unless one is created that is in force on
that date and starts later. -/
theorem rates_kept_iff {s t : rateService.Interleaving}
    (hs : rateService.protocol.Reaches (Protocol.init (.empty _)) s)
    (ht : rateService.protocol.Reaches s t) (code : String) (onDate : Date) :
    rateOn t.committed code onDate = rateOn s.committed code onDate ↔
      ¬RateRestated s.committed t.committed code onDate :=
  rateOn_eq_iff (rates_later hs ht).1 (rates_later hs ht).2

theorem standard_range : 0 ≤ (15 / 100 : ℚ) ∧ (15 / 100 : ℚ) ≤ 1 := by norm_num

theorem raised_range : 0 ≤ (175 / 1000 : ℚ) ∧ (175 / 1000 : ℚ) ≤ 1 := by norm_num

/-- `15 %` from January. -/
def januaryRate : List (TxAction (RateCreate × Uuid) Unit) :=
  [.begin 1 (⟨"STANDARD", "Standard", 15 / 100, ⟨2026, 1, 1⟩, none, standard_range⟩, 1), .run 1 (), .finish 1]

/-- `17.5 %` from July. -/
def julyRate : List (TxAction (RateCreate × Uuid) Unit) :=
  [.begin 2 (⟨"STANDARD", "Standard", 175 / 1000, ⟨2026, 7, 1⟩, none, raised_range⟩, 2), .run 2 (), .finish 2]

/-- A hundred, net, in March. -/
def marchQuery : PriceQuery := ⟨100, "STANDARD", ⟨2026, 3, 1⟩, false⟩

theorem julyRate_reaches : ∃ s t : rateService.Interleaving,
    rateService.protocol.Reaches (Protocol.init (.empty _)) s ∧ rateService.protocol.Reaches s t ∧
      s.committed.rows.map (·.validFrom) = [⟨2026, 1, 1⟩] ∧
        (breakdown s.committed marchQuery).toOption = some ⟨⟨100, 15, 115⟩, 150000, "STANDARD"⟩ ∧
          (rateOn s.committed "STANDARD" ⟨2026, 8, 1⟩).map (·.rate) = some 150000 ∧
            (rateOn t.committed "STANDARD" ⟨2026, 8, 1⟩).map (·.rate) = some 175000 ∧
              ∀ rate ∈ t.committed.rows, rate.InForce "STANDARD" ⟨2026, 3, 1⟩ →
                rate.validFrom = ⟨2026, 1, 1⟩ := by
  obtain ⟨s, hs, hfrom, hquote, haugust, hjuly⟩ :=
    Protocol.Reaches.exists_of_any (p := rateService.protocol) (s := Protocol.init (.empty _))
      (F := fun s => s.committed.rows.map (·.validFrom) = [⟨2026, 1, 1⟩] ∧
        (breakdown s.committed marchQuery).toOption = some ⟨⟨100, 15, 115⟩, 150000, "STANDARD"⟩ ∧
          (rateOn s.committed "STANDARD" ⟨2026, 8, 1⟩).map (·.rate) = some 150000 ∧
            (julyRate.foldlM rateService.protocol.step s).any fun t =>
              (rateOn t.committed "STANDARD" ⟨2026, 8, 1⟩).map (·.rate) = some 175000 ∧
                ∀ rate ∈ t.committed.rows, rate.InForce "STANDARD" ⟨2026, 3, 1⟩ →
                  rate.validFrom = ⟨2026, 1, 1⟩)
      januaryRate (by decide +kernel)
  obtain ⟨t, ht, hraised, hmarch⟩ := Protocol.Reaches.exists_of_any julyRate hjuly
  exact ⟨s, t, hs, ht, hfrom, hquote, haugust, hraised, hmarch⟩

theorem rates_kept_iff_july : ∃ s t : rateService.Interleaving,
    (rateOn s.committed "STANDARD" ⟨2026, 8, 1⟩).map (·.rate) = some 150000 ∧
      RateRestated s.committed t.committed "STANDARD" ⟨2026, 8, 1⟩ := by
  obtain ⟨s, t, hs, ht, -, -, haugust, hraised, -⟩ := julyRate_reaches
  refine ⟨s, t, haugust, not_not.mp fun hkept => ?_⟩
  rw [(rates_kept_iff hs ht _ _).mpr hkept, haugust] at hraised
  exact absurd hraised (by decide)

end Nexora.Vat
