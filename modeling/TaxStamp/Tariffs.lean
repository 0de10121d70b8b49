import TaxStamp.Lifecycle
import TaxStamp.MajorUnits
import TaxStamp.Pricing

/-!
# Every order is priced by its tariff

The operator registers companies and adds tariffs from the command line while the services
run. Companies and tariffs are only ever added. An order is taken from a verified company
and priced by the tariff of its category that had taken effect last among those on record,
and the price is fixed from then on: whatever tariffs are added later, in whatever order
and with whatever dates, the order and its payment intent keep the terms of the submission.
-/

namespace TaxStamp

open Lib

/-! ### The operator's commands -/

/-- `Decimal(text)` as an amount in major units. -/
def Major.ofText (text : String) : Except Fault Major :=
  match DecimalNumber.read (numericText text) with
  | some d => if h : representable d = true then .ok (.decimal d h) else .error .invalidOperation
  | none => .error .invalidOperation

/-- Register a company. -/
def createCompany (id : Uuid) (tin : String) (kybStatus : KybStatus) (riskTier : RiskTier) : Session Company := do
  let company : Company := ⟨id, tin, kybStatus, riskTier⟩
  addRow Tables.companies company
  return company

/-- Add an effective-dated tariff; its price is given in major units. -/
def addTariff (id : Uuid) (productCategory unitPriceMajor currency : String) (vatBps : ℤ) (effectiveFrom : Time) :
    Session Tariff := do
  let major ← Tx.lift (Major.ofText unitPriceMajor)
  let unitPrice ← Tx.lift (Money.fromMajor major currency)
  let tariff : Tariff := ⟨id, productCategory, unitPrice.minor, currency, vatBps, effectiveFrom, none⟩
  addRow Tables.tariffs tariff
  return tariff

/-- A transaction of the services or a command of the operator. -/
inductive AdminEvent
  | service (e : Event)
  | createCompany (id : Uuid) (tin : String) (kybStatus : KybStatus) (riskTier : RiskTier)
  | addTariff (id : Uuid) (productCategory unitPriceMajor currency : String) (vatBps : ℤ) (effectiveFrom : Time)

/-- The platform after a transaction or a command. -/
def adminStep (settings : Settings) (s : Platform) : AdminEvent → Platform
  | .service e => step settings s e
  | .createCompany id tin kybStatus riskTier =>
    { s with db := (createCompany id tin kybStatus riskTier).commit s.db }
  | .addTariff id productCategory unitPriceMajor currency vatBps effectiveFrom =>
    { s with db := (addTariff id productCategory unitPriceMajor currency vatBps effectiveFrom).commit s.db }

/-! ### The reference data only grows -/

variable {settings : Settings} {db db' : Db}

/-- Companies and tariffs have only been added. -/
structure ReferenceGrows (db db' : Db) : Prop where
  companies : db.companies.rows <+: db'.companies.rows
  tariffs : db.tariffs.rows <+: db'.tariffs.rows

/-- Reference data that is the same has grown. -/
theorem ReferenceGrows.of_eq (hcompanies : db'.companies = db.companies) (htariffs : db'.tariffs = db.tariffs) :
    ReferenceGrows db db' := by
  constructor
  · simp only [hcompanies, List.prefix_rfl]
  · simp only [htariffs, List.prefix_rfl]

/-- Reference data grows over several steps. -/
theorem ReferenceGrows.trans {db'' : Db} (h : ReferenceGrows db db') (h' : ReferenceGrows db' db'') :
    ReferenceGrows db db'' :=
  ⟨h.companies.trans h'.companies, h.tariffs.trans h'.tariffs⟩

/-- The services only read the reference data. -/
theorem Committed.reference {s : Platform} {e : Event} (h : Committed settings s e db') :
    db'.companies = s.db.companies ∧ db'.tariffs = s.db.tariffs := by
  cases h with
  | unchanged => exact ⟨rfl, rfl⟩
  | submitOrder h =>
    obtain ⟨draft, compliant, O, T, A, -, -, -, -, -, -, rfl⟩ := submitOrder_ok h
    exact ⟨rfl, rfl⟩
  | decideApproval h =>
    obtain ⟨order, P, db₁, A, -, -, -, -, -, -, -, heffect, -, rfl⟩ := decideApproval_ok h
    cases heffect <;> exact ⟨rfl, rfl⟩
  | cancelOrder h =>
    obtain ⟨order, O, T, A, -, -, -, -, -, -, -, rfl⟩ := cancelOrder_ok h
    exact ⟨rfl, rfl⟩
  | ingestRemittance h => cases ingestRemittance_ok h <;> exact ⟨rfl, rfl⟩
  | issueChunk h =>
    cases issueOrderChunk_ok h
    exact ⟨rfl, rfl⟩
  | recordInspection h =>
    cases recordInspection_ok h
    exact ⟨rfl, rfl⟩
  | activateStamps ha h =>
    cases activateStamps_ok h
    exact ⟨rfl, rfl⟩
  | voidStamps h =>
    cases voidStamps_ok h
    exact ⟨rfl, rfl⟩
  | expireDueStamps h =>
    cases expireDueStamps_ok h
    exact ⟨rfl, rfl⟩
  | createLedgerIntent h => cases createLedgerIntent_ok h <;> exact ⟨rfl, rfl⟩
  | ledgerWork work =>
    obtain hsame | ⟨intent, f, heffect, -⟩ := work.commit_outcome settings s.db
    · rw [hsame]
      exact ⟨rfl, rfl⟩
    · generalize work.commit settings s.db = db' at heffect ⊢
      cases heffect
      exact ⟨rfl, rfl⟩
  | claimBatch h =>
    obtain ⟨candidates, M, -, -, -, rfl⟩ := claimBatch_ok h
    exact ⟨rfl, rfl⟩
  | markProcessed h =>
    obtain ⟨M, -, rfl⟩ := markProcessed_ok h
    exact ⟨rfl, rfl⟩
  | markFailed h =>
    obtain ⟨M, -, -, rfl⟩ := markFailed_ok h
    exact ⟨rfl, rfl⟩
  | recordAudit h =>
    obtain ⟨A, -, rfl⟩ := recordAuditEvent_ok h
    exact ⟨rfl, rfl⟩

/-- A registration adds one company. -/
theorem createCompany_ok {id : Uuid} {tin : String} {kybStatus : KybStatus} {riskTier : RiskTier} {company : Company}
    (h : createCompany id tin kybStatus riskTier db = .ok (company, db')) :
    ∃ C : Table companySchema, C.rows = db.companies.rows ++ [company] ∧ db' = Tables.companies.set C db := by
  simp only [createCompany, Tx.bind_ok, insertRow_ok, Tx.pure_ok] at h
  obtain ⟨-, db₁, ⟨C, hC, rfl⟩, rfl, rfl⟩ := h
  exact ⟨C, hC, rfl⟩

/-- An addition adds one tariff. -/
theorem addTariff_ok {id : Uuid} {productCategory unitPriceMajor currency : String} {vatBps : ℤ} {effectiveFrom : Time}
    {tariff : Tariff} (h : addTariff id productCategory unitPriceMajor currency vatBps effectiveFrom db = .ok (tariff, db')) :
    ∃ T : Table tariffSchema, T.rows = db.tariffs.rows ++ [tariff] ∧ db' = Tables.tariffs.set T db := by
  simp only [addTariff, Tx.bind_ok, Tx.lift_ok, insertRow_ok, Tx.pure_ok] at h
  obtain ⟨major, db₁, ⟨-, rfl⟩, unitPrice, db₂, ⟨-, rfl⟩, -, db₃, ⟨T, hT, rfl⟩, rfl, rfl⟩ := h
  exact ⟨T, hT, rfl⟩

/-- Everything a transaction or a command can do, as far as orders and payments are concerned. -/
inductive AdminChange (settings : Settings) (s : Platform) : AdminEvent → Db → Prop
  | service (e : Event) (db' : Db) (h : Committed settings s e db') : AdminChange settings s (.service e) db'
  | reference (e : AdminEvent) (db' : Db) (horders : db'.orders = s.db.orders)
      (hintents : db'.paymentIntents = s.db.paymentIntents) (hgrows : ReferenceGrows s.db db') : AdminChange settings s e db'

/-- Every step is one of these changes. -/
theorem adminStep_change (settings : Settings) (s : Platform) (e : AdminEvent) :
    AdminChange settings s e (adminStep settings s e).db := by
  have hsame : ∀ e, AdminChange settings s e s.db := fun e => .reference e s.db rfl rfl (.of_eq rfl rfl)
  cases e with
  | service e => exact .service e _ (step_committed settings s e)
  | createCompany id tin kybStatus riskTier =>
    apply Tx.commit_induction (AdminChange settings s (.createCompany id tin kybStatus riskTier)) (hsame _)
    intro company db' h
    obtain ⟨C, hC, rfl⟩ := createCompany_ok h
    exact .reference _ _ rfl rfl ⟨⟨_, hC.symm⟩, List.prefix_rfl⟩
  | addTariff id productCategory unitPriceMajor currency vatBps effectiveFrom =>
    apply Tx.commit_induction
      (AdminChange settings s (.addTariff id productCategory unitPriceMajor currency vatBps effectiveFrom)) (hsame _)
    intro tariff db' h
    obtain ⟨T, hT, rfl⟩ := addTariff_ok h
    exact .reference _ _ rfl rfl ⟨List.prefix_rfl, ⟨_, hT.symm⟩⟩

/-- Every step adds companies and tariffs at most. -/
theorem AdminChange.grows {s : Platform} {e : AdminEvent} (h : AdminChange settings s e db') : ReferenceGrows s.db db' := by
  cases h with
  | service e db' h => exact .of_eq h.reference.1 h.reference.2
  | reference e db' horders hintents hgrows => exact hgrows

/-! ### What a submission fixes -/

/-- A tariff prices a category at a moment. -/
def Tariff.InForce (t : Tariff) (productCategory : String) (now : Time) : Prop :=
  t.productCategory = productCategory ∧ t.effectiveFrom ≤ now ∧ ∀ until_ ∈ t.effectiveTo, now < until_

/-- An order was accepted on the terms of a company and a tariff of a database. -/
structure Order.AcceptedIn (o : Order) (db : Db) (c : Company) (t : Tariff) : Prop where
  company : c ∈ db.companies.rows
  companyId : o.companyId = c.id
  verified : c.kybStatus = .verified
  riskTier : o.riskTier = c.riskTier
  tariff : t ∈ db.tariffs.rows
  tariffId : o.tariffId = t.id
  inForce : t.InForce o.productCategory o.createdAt
  latest : ∀ t' ∈ db.tariffs.rows, t'.InForce o.productCategory o.createdAt → t'.effectiveFrom ≤ t.effectiveFrom
  unitPrice : o.unitPriceMinor = t.unitPriceMinor
  currency : o.currency = t.currency
  vatBps : o.vatBps = t.vatBps
  subtotal : o.subtotalMinor = t.unitPriceMinor * o.quantity
  vat : o.vatMinor = (2 * o.subtotalMinor * t.vatBps + 10000) / 20000
  total : o.totalMinor = o.subtotalMinor + o.vatMinor

/-- The first row in an order comes before every row of the selection. -/
theorem le_of_selectFirst {α : Type} {p : α → Bool} {le : α → α → Bool} {rows : List α} {first : α}
    (htotal : ∀ a b, le a b = true ∨ le b a = true) (htrans : ∀ a b c, le a b = true → le b c = true → le a c = true)
    (h : ((rows.filter p).insertionSort fun a b => le a b = true).head? = some first) :
    (first ∈ rows ∧ p first = true) ∧ ∀ row ∈ rows, p row = true → le first row = true := by
  have : Std.Total fun a b => le a b = true := ⟨htotal⟩
  have : IsTrans α fun a b => le a b = true := ⟨htrans⟩
  have hsorted := List.pairwise_insertionSort (fun a b => le a b = true) (rows.filter p)
  have hmem : ∀ row, row ∈ (rows.filter p).insertionSort (fun a b => le a b = true) ↔ row ∈ rows ∧ p row = true := by
    intro row
    rw [List.mem_insertionSort, List.mem_filter]
  cases hfound : (rows.filter p).insertionSort fun a b => le a b = true with
  | nil =>
    rw [hfound] at h
    cases h
  | cons head rest =>
    rw [hfound] at h hsorted hmem
    cases h
    refine ⟨(hmem first).mp List.mem_cons_self, fun row hrow hp => ?_⟩
    rcases List.mem_cons.mp ((hmem row).mpr ⟨hrow, hp⟩) with rfl | hrest
    · exact (htotal row row).elim id id
    · exact List.rel_of_pairwise_cons hsorted hrest

/-- The tariff of a category is the one in force that took effect last. -/
theorem currentTariff_ok {productCategory : String} {now : Time} {tariff : Tariff}
    (h : currentTariff productCategory now db = .ok (tariff, db')) :
    (tariff ∈ db.tariffs.rows ∧ tariff.InForce productCategory now ∧
      ∀ t ∈ db.tariffs.rows, t.InForce productCategory now → t.effectiveFrom ≤ tariff.effectiveFrom) ∧ db = db' := by
  simp only [currentTariff, Tx.bind_ok, selectFirst_ok, Tx.orRefuse_ok] at h
  obtain ⟨found, db₁, ⟨hfound, rfl⟩, htariff, rfl⟩ := h
  rw [htariff] at hfound
  obtain ⟨⟨hmem, hforce⟩, hlatest⟩ := le_of_selectFirst (fun a b => by simpa using le_total _ _)
    (fun a b c hab hbc => decide_eq_true ((of_decide_eq_true hbc).trans (of_decide_eq_true hab))) hfound.symm
  have hiff : ∀ t : Tariff, (t.productCategory = productCategory && t.effectiveFrom ≤ now &&
      t.effectiveTo.all (now < ·)) = true ↔ t.InForce productCategory now := by
    intro t
    simp [Tariff.InForce, Option.all_eq_true, and_assoc]
  refine ⟨⟨hmem, (hiff tariff).mp hforce, fun t ht hin => ?_⟩, rfl⟩
  exact of_decide_eq_true (hlatest t ht ((hiff t).mpr hin))

/-- A price is the exact price, provided that its subtotal fits its column. -/
theorem priceOrder_ok {quantity vatBps : ℤ} {unitPrice : Money} {breakdown : PriceBreakdown}
    (hquantity : 0 < quantity) (hprice : 0 < unitPrice.minor) (hbps : 0 ≤ vatBps) (hrate : vatBps ≤ 10000)
    (h : priceOrder quantity unitPrice vatBps = .ok breakdown) (hfits : breakdown.subtotal.minor < 2 ^ 63) :
    breakdown.unitPrice = unitPrice ∧ breakdown.vatBps = vatBps ∧
      breakdown.subtotal.minor = unitPrice.minor * quantity ∧
      breakdown.vat.minor = (2 * breakdown.subtotal.minor * vatBps + 10000) / 20000 ∧
      breakdown.total.minor = breakdown.subtotal.minor + breakdown.vat.minor ∧
      breakdown.total.currency = unitPrice.currency := by
  have hsubtotal : breakdown.subtotal.minor = unitPrice.minor * quantity := by
    have htimes : unitPrice.times quantity =
        .ok ⟨unitPrice.minor * quantity, unitPrice.currency, unitPrice.supported⟩ := by
      rw [Money.times, if_neg (by omega)]
    simp only [priceOrder, if_neg (show ¬quantity ≤ 0 by omega), if_neg (show ¬unitPrice.minor ≤ 0 by omega), htimes,
      Except.bind_ok] at h
    obtain ⟨subtotal, hsubtotal, vat, -, total, -, -, -, hbreakdown⟩ := h
    cases hsubtotal
    cases hbreakdown
    rfl
  rw [priceOrder_eq hquantity hprice hbps hrate (hsubtotal ▸ hfits)] at h
  cases h
  exact ⟨rfl, rfl, rfl, rfl, rfl, rfl⟩

/-- An accepted order is on the terms of the reference data it was submitted under. -/
theorem draftOrder_accepted {compliance : ComplianceService} {draws : Draws} {actor : Actor}
    {command : SubmitOrderCommand} {now : Time} {draft : Order} {compliant : Bool}
    (h : draftOrder settings compliance draws actor command now db = .ok ((draft, compliant), db'))
    (hfits : draft.subtotalMinor < 2 ^ 63) : ∃ c t, draft.AcceptedIn db c t := by
  simp only [draftOrder, Tx.bind_ok, Actor.requireRole_ok, Actor.requireCompany_ok, Tx.require_ok, fetch_ok,
    Tx.lift_ok, Tx.pure_ok] at h
  obtain ⟨-, db₁, ⟨-, rfl⟩, -, db₂, ⟨-, rfl⟩, -, db₃, ⟨hquantity, rfl⟩, -, db₄, ⟨-, rfl⟩, company, db₅,
    ⟨hcompany, rfl⟩, -, db₆, ⟨hverified, rfl⟩, tariff, db₇, htariff, unitPrice, db₈, ⟨hmake, rfl⟩, breakdown, db₉,
    ⟨hbreakdown, rfl⟩, outcome, db₁₀, ⟨-, rfl⟩, hnew, -⟩ := h
  obtain ⟨⟨hmem, hforce, hlatest⟩, rfl⟩ := currentTariff_ok htariff
  obtain ⟨hminor, hcurrency⟩ := Money.make_ok.mp hmake
  have hcheck := db.tariffs.valid.check tariff hmem
  simp only [tariffSchema, Bool.and_eq_true, decide_eq_true_eq] at hcheck
  obtain ⟨⟨⟨hpositive, hbps⟩, hrate⟩, -⟩ := hcheck
  injection hnew with hnew _
  subst hnew
  obtain ⟨hunit, hvatBps, hsubtotal, hvat, htotal, htotalCurrency⟩ :=
    priceOrder_ok hquantity (hminor ▸ hpositive) hbps hrate hbreakdown hfits
  exact ⟨company, tariff,
    { company := (mem_of_filter_eq_singleton hcompany).1
      companyId := rfl
      verified := hverified
      riskTier := rfl
      tariff := hmem
      tariffId := rfl
      inForce := hforce
      latest := hlatest
      unitPrice := by rw [← hminor, ← hunit]; rfl
      currency := htotalCurrency.trans hcurrency
      vatBps := hvatBps
      subtotal := by rw [← hminor]; exact hsubtotal
      vat := hvat
      total := htotal }⟩

/-- What changes later are not the terms. -/
theorem Order.AcceptedIn.withStatus {o : Order} {c : Company} {t : Tariff} (h : o.AcceptedIn db c t)
    (status : OrderStatus) (now : Time) : (o.withStatus status now).AcceptedIn db c t :=
  ⟨h.company, h.companyId, h.verified, h.riskTier, h.tariff, h.tariffId, h.inForce, h.latest, h.unitPrice, h.currency,
    h.vatBps, h.subtotal, h.vat, h.total⟩

/-- A submitted order is on the terms of the reference data it was submitted under. -/
theorem submitOrder_accepted {compliance : ComplianceService} {draws : Draws} {actor : Actor}
    {command : SubmitOrderCommand} {now : Time} {idempotencyKey : Option String} {order : Order}
    (h : submitOrder settings compliance draws actor command now idempotencyKey db = .ok (order, db')) :
    ∃ c t, order.AcceptedIn db c t := by
  simp only [submitOrder, Tx.bind_ok] at h
  obtain ⟨⟨draft, compliant⟩, db₁, hread, hrest⟩ := h
  obtain ⟨hdraft, rfl⟩ := draftOrder_ok hread
  simp only [insertRow_ok, Tx.pure_ok] at hrest
  obtain ⟨-, db₂, ⟨O, hO, rfl⟩, -, db₃, ⟨T, -, rfl⟩, moved, db₄, hsettle, event, db₅, -, rfl, rfl⟩ := hrest
  obtain ⟨rfl, -⟩ := settleCompliance_ok hdraft.status hsettle
  have hfits := O.valid.fits draft (by rw [hO]; exact List.mem_append_right _ (List.mem_singleton.mpr rfl))
  simp only [orderSchema, bigint, Bool.and_eq_true, decide_eq_true_eq] at hfits
  obtain ⟨c, t, haccepted⟩ := draftOrder_accepted hread hfits.1.1.1.1.1.1.1.2.2
  exact ⟨c, t, haccepted.withStatus _ _⟩

/-! ### Runs -/

/-- Every order was there before in another status, or is accepted on the terms of the database before the step. -/
theorem Committed.orderOrigin {s : Platform} {e : Event} (h : Committed settings s e db') {o' : Order}
    (ho' : o' ∈ db'.orders.rows) :
    (∃ o ∈ s.db.orders.rows, o.Moved o') ∨ ∃ c t, o'.AcceptedIn s.db c t := by
  obtain hsubmits | hold := h.change.orderStep.origin ho'
  · cases h with
    | submitOrder h =>
      have haccepted := submitOrder_accepted h
      obtain ⟨draft, compliant, O, T, A, -, rfl, -, hO, -, -, rfl⟩ := submitOrder_ok h
      change o' ∈ O.rows at ho'
      rw [hO, List.mem_append, List.mem_singleton] at ho'
      rcases ho' with hold | rfl
      · exact .inl ⟨o', hold, .inl rfl⟩
      · exact .inr haccepted
    | unchanged => exact .inl ⟨o', ho', .inl rfl⟩
    | _ => exact absurd hsubmits id
  · exact .inl hold

/-- The event adds the order with the identifier: there is none before it, and one after it. -/
def AddsOrder (settings : Settings) (s : Platform) (e : AdminEvent) (orderId : Uuid) : Prop :=
  (∀ o ∈ s.db.orders.rows, o.id ≠ orderId) ∧ ∃ o ∈ (adminStep settings s e).db.orders.rows, o.id = orderId

/-- After some events every order is on terms that were offered when one of them added it and are still on record, and
every payment intent asks for the total of its order. -/
structure Priced (settings : Settings) (s : Platform) (past : List AdminEvent) (db : Db) : Prop where
  orders : ∀ o ∈ db.orders.rows, ∃ before e after c t, past = before ++ e :: after ∧
    AddsOrder settings (run (adminStep settings) s before) e o.id ∧
    o.AcceptedIn (run (adminStep settings) s before).db c t ∧ c ∈ db.companies.rows ∧ t ∈ db.tariffs.rows
  intents : ∀ i ∈ db.paymentIntents.rows, ∃ o ∈ db.orders.rows, i.orderId = o.id ∧ i.amountMinor = o.totalMinor ∧
    i.currency = o.currency

/-- An order that moves stays on its terms. -/
theorem Order.Moved.acceptedIn {o o' : Order} {c : Company} {t : Tariff} (h : o.Moved o') (haccepted : o.AcceptedIn db c t) :
    o'.AcceptedIn db c t := by
  obtain rfl | ⟨status, now, -, rfl⟩ := h
  · exact haccepted
  · exact haccepted.withStatus status now

/-- An order that moves keeps its total. -/
theorem Order.Moved.totalMinor {o o' : Order} (h : o.Moved o') : o'.totalMinor = o.totalMinor := by
  obtain rfl | ⟨status, now, -, rfl⟩ := h <;> rfl

/-- Terms stay on record, and each event adds at most an order on the terms of its moment. -/
theorem Priced.step {s : Platform} {past : List AdminEvent} (e : AdminEvent)
    (h : Priced settings s past (run (adminStep settings) s past).db) :
    Priced settings s (past ++ [e]) (adminStep settings (run (adminStep settings) s past) e).db := by
  have hchange := adminStep_change settings (run (adminStep settings) s past) e
  have hgrows := hchange.grows
  generalize hdb : (adminStep settings (run (adminStep settings) s past) e).db = db' at hchange hgrows ⊢
  have hold : ∀ {o o' : Order}, o ∈ (run (adminStep settings) s past).db.orders.rows → o.Moved o' →
      ∃ before e₀ after c t, past ++ [e] = before ++ e₀ :: after ∧
        AddsOrder settings (run (adminStep settings) s before) e₀ o'.id ∧
        o'.AcceptedIn (run (adminStep settings) s before).db c t ∧ c ∈ db'.companies.rows ∧ t ∈ db'.tariffs.rows := by
    intro o o' ho hmoved
    obtain ⟨before, e₀, after, c, t, hsplit, hadds, haccepted, hc, ht⟩ := h.orders o ho
    exact ⟨before, e₀, after ++ [e], c, t, by rw [hsplit, List.append_assoc, List.cons_append], hmoved.id.symm ▸ hadds,
      hmoved.acceptedIn haccepted, hgrows.companies.mem hc, hgrows.tariffs.mem ht⟩
  cases hchange with
  | service e db' hcommitted =>
    constructor
    · intro o' ho'
      by_cases hexists : ∃ o ∈ (run (adminStep settings) s past).db.orders.rows, o.id = o'.id
      · obtain ⟨o, ho, hid⟩ := hexists
        obtain ⟨o₁, ho₁, hmoved⟩ := hcommitted.change.orderStep.persists ho
        rw [← order_eq_of_id db' ho₁ ho' (hmoved.id.trans hid)]
        exact hold ho hmoved
      · have hfresh : ∀ o ∈ (run (adminStep settings) s past).db.orders.rows, o.id ≠ o'.id :=
          fun o ho hid => hexists ⟨o, ho, hid⟩
        obtain ⟨o, ho, hmoved⟩ | ⟨c, t, haccepted⟩ := hcommitted.orderOrigin ho'
        · exact absurd hmoved.id.symm (hfresh o ho)
        · exact ⟨past, .service e, [], c, t, rfl, ⟨hfresh, o', by rwa [hdb], rfl⟩, haccepted,
            hgrows.companies.mem haccepted.company, hgrows.tariffs.mem haccepted.tariff⟩
    · have hmoves := hcommitted.change.orderStep
      have hkept : ∀ i ∈ (run (adminStep settings) s past).db.paymentIntents.rows, ∃ o ∈ db'.orders.rows,
          i.orderId = o.id ∧ i.amountMinor = o.totalMinor ∧ i.currency = o.currency := by
        intro i hi
        obtain ⟨o, ho, hid, htotal, hcurrency⟩ := h.intents i hi
        obtain ⟨o', ho', hmoved⟩ := hmoves.persists ho
        exact ⟨o', ho', hid.trans hmoved.id.symm, htotal.trans hmoved.totalMinor.symm,
          hcurrency.trans hmoved.currency.symm⟩
      intro i hi
      cases hcommitted.change.intentStep with
      | same hI => exact hkept i (by rwa [← hI])
      | opened draws order now horder hI =>
        rw [hI, List.mem_append, List.mem_singleton] at hi
        rcases hi with hi | rfl
        · exact hkept i hi
        · exact ⟨_, horder, rfl, rfl, rfl⟩
      | settled intent now hI =>
        rw [hI] at hi
        obtain ⟨i₀, hi₀, rfl⟩ := List.mem_map.mp hi
        obtain ⟨o, ho, hfields⟩ := hkept i₀ hi₀
        refine ⟨o, ho, ?_⟩
        split <;> exact hfields
  | reference e db' horders hintents _ =>
    constructor
    · intro o ho
      rw [horders] at ho
      exact hold ho (.inl rfl)
    · intro i hi
      rw [hintents] at hi
      rw [horders]
      exact h.intents i hi

/-- Every order is priced by its tariff. In every run of the services and the operator's commands, each order was
accepted, at the event of the run that added it, from a verified company on record and at its risk tier, on the tariff of
its category in force that had taken effect last among those on record before that event; company and tariff are on record for
good, and the order still has the tariff's unit price, currency and rate, the exact subtotal, the tax on it rounded half
up, and their sum as its total. Every payment intent asks for exactly that sum, in the tariff's currency. -/
theorem orders_priced_by_tariff (settings : Settings) (companies : Table companySchema) (tariffs : Table tariffSchema)
    (events : List AdminEvent) :
    let s := run (adminStep settings) (.initial companies tariffs) events
    (∀ o ∈ s.db.orders.rows, ∃ before e after c t, events = before ++ e :: after ∧
      AddsOrder settings (run (adminStep settings) (.initial companies tariffs) before) e o.id ∧
      o.AcceptedIn (run (adminStep settings) (.initial companies tariffs) before).db c t ∧
      c ∈ s.db.companies.rows ∧ t ∈ s.db.tariffs.rows) ∧
    ∀ i ∈ s.db.paymentIntents.rows, ∃ o ∈ s.db.orders.rows, ∃ t ∈ s.db.tariffs.rows, i.orderId = o.id ∧
      o.tariffId = t.id ∧ i.currency = t.currency ∧
      i.amountMinor = t.unitPriceMinor * o.quantity + (2 * (t.unitPriceMinor * o.quantity) * t.vatBps + 10000) / 20000 := by
  intro s
  have hpriced : Priced settings (.initial companies tariffs) events s.db := by
    refine run_history (fun past (s : Platform) => Priced settings (.initial companies tariffs) past s.db) _ ?_
      (fun past e h => h.step e) events
    exact ⟨fun _ h => absurd h List.not_mem_nil, fun _ h => absurd h List.not_mem_nil⟩
  refine ⟨hpriced.orders, fun i hi => ?_⟩
  obtain ⟨o, ho, hid, hamount, hcurrency⟩ := hpriced.intents i hi
  obtain ⟨before, e, after, c, t, -, -, haccepted, -, ht⟩ := hpriced.orders o ho
  refine ⟨o, ho, t, ht, hid, haccepted.tariffId, hcurrency.trans haccepted.currency, ?_⟩
  rw [hamount, haccepted.total, haccepted.vat, haccepted.subtotal]

end TaxStamp
