import TaxStamp.Lifecycle
import TaxStamp.Reads
import TaxStamp.Stocktake

/-!
# Isolation of companies

A company owns its orders and its stamps, with everything that refers to them. A call of a requester leaves the rows of
every other company as they were, and it answers from the rows of its own: two states that hold the same rows of a
company give the same answers.

An activation marks stamps one after the other and meets a stamp of another company wherever it comes in the list; the
refusal rolls back what it has marked. It reads the statuses of the batches in a statement of its own, so the state it
reads them from may be earlier than the one it commits to.
-/

namespace TaxStamp

open Lib

/-! ### What belongs to a company -/

namespace Db

/-- The orders of a company. -/
def companyOrders (db : Db) (company : Uuid) : List Order := db.orders.rows.filter fun o => o.companyId = company

/-- The batches of the orders of a company. -/
def companyBatches (db : Db) (company : Uuid) : List StampBatch :=
  db.stampBatches.rows.filter fun b => b.orderId ∈ (db.companyOrders company).map Order.id

/-- The stamps of a company. -/
def companyStamps (db : Db) (company : Uuid) : List Stamp := db.stamps.rows.filter fun s => s.companyId = company

end Db

/-- The rows of one company: its orders and its stamps with everything that refers to them. -/
structure Tenant where
  orders : List Order
  orderTransitions : List OrderTransition
  approvals : List Approval
  paymentIntents : List PaymentIntent
  stampBatches : List StampBatch
  inspections : List Inspection
  stamps : List Stamp
  stampEvents : List StampEvent

/-- The rows of a company in a database. -/
def Db.tenant (db : Db) (company : Uuid) : Tenant where
  orders := db.companyOrders company
  orderTransitions := db.orderTransitions.rows.filter fun t => t.orderId ∈ (db.companyOrders company).map Order.id
  approvals := db.approvals.rows.filter fun a => a.orderId ∈ (db.companyOrders company).map Order.id
  paymentIntents := db.paymentIntents.rows.filter fun i => i.orderId ∈ (db.companyOrders company).map Order.id
  stampBatches := db.companyBatches company
  inspections := db.inspections.rows.filter fun i => i.batchId ∈ (db.companyBatches company).map StampBatch.id
  stamps := db.companyStamps company
  stampEvents := db.stampEvents.rows.filter fun e => e.stampId ∈ (db.companyStamps company).map Stamp.id

/-- What a requester can call. -/
inductive RequesterCall
  | submitOrder (compliance : ComplianceService) (draws : Draws) (command : SubmitOrderCommand) (now : Time)
      (idempotencyKey : Option String)
  | cancelOrder (draws : Draws) (orderId : Uuid) (reason : String) (now : Time)
  | activateStamps (draws : Draws) (serials : List String) (now : Time) (idempotencyKey : Option String)
  | getOrder (orderId : Uuid)
  | listOrders (limit offset : ℤ)
  | getStamp (serial : String)
  | getBatch (batchId : Uuid)

/-- What a call returns. -/
inductive Answer
  | order (order : Order)
  | outcomes (result : BulkResult)
  | document (fields : JsonObject)

/-- The transaction of a call. An activation reads the statuses of its batches from an earlier state. -/
def RequesterCall.run (settings : Settings) (actor : Actor) (read : Db) : RequesterCall → Session Answer
  | .submitOrder compliance draws command now key => do
    return .order (← TaxStamp.submitOrder settings compliance draws actor command now key)
  | .cancelOrder draws orderId reason now => do
    return .order (← TaxStamp.cancelOrder settings draws actor orderId reason now)
  | .activateStamps draws serials now key => do
    let statuses := readBatchStatuses serials read
    return .outcomes (← TaxStamp.activateStamps settings draws actor serials statuses now key)
  | .getOrder orderId => do return .document (← TaxStamp.getOrder actor orderId)
  | .listOrders limit offset => do return .document (← TaxStamp.listOrders actor limit offset)
  | .getStamp serial => do return .document (stampDocument (← TaxStamp.getStamp serial actor))
  | .getBatch batchId => do return .document (← TaxStamp.getBatch actor batchId)

/-- The calls whose answer tells what the database holds: the reads and the activation. -/
def RequesterCall.Tells : RequesterCall → Prop
  | .submitOrder .. | .cancelOrder .. => False
  | _ => True

/-! ### Nothing of another company changes -/

variable {settings : Settings} {actor : Actor} {company other : Uuid} {read db db' : Db}

/-- The order with an identifier is of another company only if it is listed there. -/
theorem not_mem_companyOrders {o : Order} (ho : o ∈ db.orders.rows) (hother : o.companyId ≠ other) :
    o.id ∉ (db.companyOrders other).map Order.id := by
  intro hmem
  obtain ⟨o', ho', hid⟩ := List.mem_map.mp hmem
  obtain ⟨hrow, hcompany⟩ := List.mem_filter.mp ho'
  rw [order_eq_of_id db hrow ho hid] at hcompany
  exact hother (of_decide_eq_true hcompany)

/-- Writes to orders and their history keep the rows of a company whose orders and history they keep. -/
theorem tenant_of_orders {O : Table orderSchema} {T : Table orderTransitionSchema} {A : Table auditEventSchema}
    (horders : (O.rows.filter fun o => o.companyId = other) = db.companyOrders other)
    (hhistory : (T.rows.filter fun t => t.orderId ∈ (db.companyOrders other).map Order.id) =
      db.orderTransitions.rows.filter fun t => t.orderId ∈ (db.companyOrders other).map Order.id) :
    (Tables.auditEvents.set A (Tables.orderTransitions.set T (Tables.orders.set O db))).tenant other =
      db.tenant other := by
  have hcompany : (Tables.auditEvents.set A (Tables.orderTransitions.set T
      (Tables.orders.set O db))).companyOrders other = db.companyOrders other := horders
  simp only [Db.tenant, Db.companyBatches, Db.companyStamps, hcompany, Tenant.mk.injEq, true_and]
  exact ⟨hhistory, rfl, rfl⟩

/-- An order is drafted for the company of the request, and for no other by a requester. -/
theorem draftOrder_company {compliance : ComplianceService} {draws : Draws} {command : SubmitOrderCommand} {now : Time}
    {draft : Order} {compliant : Bool}
    (h : draftOrder settings compliance draws actor command now db = .ok ((draft, compliant), db')) :
    actor.role = .admin ∨ actor.companyId = some draft.companyId := by
  simp only [draftOrder, currentTariff, Tx.bind_ok, Actor.requireRole_ok, Actor.requireCompany_ok, Tx.require_ok,
    fetch_ok, selectFirst_ok, Tx.orRefuse_ok, Tx.lift_ok, Tx.pure_ok] at h
  obtain ⟨-, db₁, ⟨-, rfl⟩, -, db₂, ⟨hmay, rfl⟩, -, db₃, ⟨-, rfl⟩, -, db₄, ⟨-, rfl⟩, company, db₅, ⟨hfound, rfl⟩, -,
    db₆, ⟨-, rfl⟩, tariff, db₇, ⟨-, db₈, ⟨-, rfl⟩, -, rfl⟩, unitPrice, db₉, ⟨-, rfl⟩, breakdown, db₁₀,
    ⟨-, rfl⟩, outcome, db₁₁, ⟨houtcome, rfl⟩, hdraft, rfl⟩ := h
  injection hdraft with hdraft
  subst hdraft
  have hid := of_decide_eq_true (mem_of_filter_eq_singleton hfound).2
  exact hmay.imp id fun hcompany => hcompany.trans (congrArg some hid.symm)

/-- A submitted order is of the requester's company. -/
theorem submitOrder_company {compliance : ComplianceService} {draws : Draws} {command : SubmitOrderCommand} {now : Time}
    {key : Option String} {order : Order}
    (h : submitOrder settings compliance draws actor command now key db = .ok (order, db')) :
    actor.role = .admin ∨ actor.companyId = some order.companyId := by
  simp only [submitOrder, Tx.bind_ok] at h
  obtain ⟨⟨draft, compliant⟩, db₁, hdraft, -, db₂, -, -, db₃, -, moved, db₄, hsettle, event, db₅, -, hrest⟩ := h
  obtain ⟨rfl, -⟩ := Tx.pure_ok.mp hrest
  obtain ⟨rfl, -⟩ := settleCompliance_ok (draftOrder_ok hdraft).1.status hsettle
  have hown := draftOrder_company hdraft
  exact hown

section Calls

variable (hrole : actor.role = .requester) (hcompany : actor.companyId = some company) (hother : other ≠ company)
include hrole hcompany hother

/-- A submission adds an order of the requester's company. -/
theorem submitOrder_keepsOthers {compliance : ComplianceService} {draws : Draws} {command : SubmitOrderCommand}
    {now : Time} {key : Option String} {order : Order}
    (h : submitOrder settings compliance draws actor command now key db = .ok (order, db')) :
    db'.tenant other = db.tenant other := by
  have hof : order.companyId = company := by
    rcases submitOrder_company h with hadmin | hown
    · rw [hrole] at hadmin
      cases hadmin
    · rw [hcompany] at hown
      exact (Option.some.inj hown).symm
  obtain ⟨draft, compliant, O, T, A, -, -, hfresh, hO, hT, -, rfl⟩ := submitOrder_ok h
  refine tenant_of_orders ?_ ?_
  · rw [hO]
    refine filter_append_of_frame fun o ho => decide_eq_false fun hcompany => hother ?_
    rw [← hcompany, List.mem_singleton.mp ho, hof]
  · rw [hT]
    refine filter_append_of_frame fun t ht => decide_eq_false fun hmem => ?_
    obtain ⟨o, ho, hid⟩ := List.mem_map.mp hmem
    have horder : t.orderId = order.id := by
      cases compliant <;> simp only [submissionHistory, List.mem_cons, List.not_mem_nil, if_true, if_false,
        Bool.false_eq_true, or_false] at ht
      · rcases ht with rfl | rfl | rfl <;> rfl
      · rcases ht with rfl | rfl <;> rfl
    exact hfresh o (List.mem_filter.mp ho).1 (hid.trans horder)

/-- A cancellation moves an order of the requester's company. -/
theorem cancelOrder_keepsOthers {draws : Draws} {orderId : Uuid} {reason : String} {now : Time} {order : Order}
    (h : cancelOrder settings draws actor orderId reason now db = .ok (order, db')) :
    db'.tenant other = db.tenant other := by
  obtain ⟨cancelled, O, T, A, horder, -, hmay, -, hO, hT, -, rfl⟩ := cancelOrder_ok h
  have hof : cancelled.companyId ≠ other := by
    rcases hmay with hadmin | ⟨-, hown⟩
    · rw [hrole] at hadmin
      cases hadmin
    · rw [hcompany] at hown
      exact Option.some.inj hown ▸ hother.symm
  refine tenant_of_orders ?_ ?_
  · rw [hO]
    refine filter_map_of_frame (fun o _ => ?_) fun o ho hcompany => if_neg fun hid => hof ?_
    · split <;> rfl
    · rw [← order_eq_of_id db ho horder hid]
      exact of_decide_eq_true hcompany
  · rw [hT]
    refine filter_append_of_frame fun t ht => decide_eq_false ?_
    rw [List.mem_singleton.mp ht]
    exact not_mem_companyOrders horder hof

end Calls

/-! ### An activation -/

/-- What a committed activation found, changed and answered. -/
theorem activateStamps_found {draws : Draws} {serials : List String} {statuses : BatchStatuses} {now : Time}
    {key : Option String} {result : BulkResult}
    (h : activateStamps settings draws actor serials statuses now key db = .ok (result, db')) :
    (actor.role = .admin ∨ actor.role = .operator ∨
        ∀ s ∈ db.stamps.rows, s.serial ∈ distinct serials → actor.companyId = some s.companyId) ∧
      result = (distinct serials).map
        (activationOutcome (db.stamps.rows.filter fun s => s.serial ∈ distinct serials) statuses now) ∧
      ∃ (S : Table stampSchema) (V : Table stampEventSchema) (A : Table auditEventSchema),
        (S.rows = db.stamps.rows.map fun s =>
          if s.serial ∈ distinct serials && (activationRefusal statuses now s).isNone then s.activate now else s) ∧
        V.rows = db.stampEvents.rows ++ (((db.stamps.rows.filter fun s => s.serial ∈ distinct serials).filter fun s =>
          (activationRefusal statuses now s).isNone).map fun s => activatedEvent s actor now) ∧
        db' = Tables.auditEvents.set A (Tables.stampEvents.set V (Tables.stamps.set S db)) := by
  simp only [activateStamps, Tx.bind_ok, Actor.requireRole_ok, selectAll_ok, Tx.require_ok, updateRows_ok,
    insertRows_ok, Tx.pure_ok] at h
  obtain ⟨-, db₁, ⟨-, rfl⟩, wanted, db₂, hvalidate, found, db₃, ⟨rfl, rfl⟩, -, db₄, ⟨howned, rfl⟩, -, db₅,
    ⟨S, hS, rfl⟩, -, db₆, ⟨V, hV, rfl⟩, event, db₇, haudit, rfl, rfl⟩ := h
  obtain ⟨rfl, rfl⟩ := validateSerials_ok hvalidate
  obtain ⟨A, -, rfl⟩ := recordAuditEvent_ok haudit
  refine ⟨howned.imp_right (Or.imp_right fun hall s hs hserial => ?_), rfl, S, V, A, hS, hV, rfl⟩
  exact hall s (List.mem_filter.mpr ⟨hs, decide_eq_true hserial⟩)

/-- The loop of a committed activation finishes with its answer, having changed the stamps that are written. -/
theorem activateStamps_loop {draws : Draws} {serials : List String} {statuses : BatchStatuses} {now : Time}
    {key : Option String} {result : BulkResult}
    (h : activateStamps settings draws actor serials statuses now key db = .ok (result, db')) :
    ∃ changed, activationLoop actor (db.stamps.rows.filter fun s => s.serial ∈ distinct serials) statuses now
        (distinct serials) = .ok (result, changed) ∧
      ∀ s, s ∈ changed ↔
        s ∈ db.stamps.rows ∧ s.serial ∈ distinct serials ∧ activationRefusal statuses now s = none := by
  obtain ⟨hmay, rfl, -⟩ := activateStamps_found h
  refine ⟨_, (activationLoop_eq _).trans (if_pos ?_), fun s => ?_⟩
  · exact hmay.imp_right (Or.imp_right fun hall s hs => hall s (mem_stampsMet.mp hs).1 (mem_stampsMet.mp hs).2)
  · rw [List.mem_filter, mem_stampsMet, Option.isNone_iff_eq_none, and_assoc]

section Activation

variable (hrole : actor.role = .requester) (hcompany : actor.companyId = some company)
include hrole hcompany

/-- A requester's activation commits only when every stamp it names is of the requester's company. -/
theorem activateStamps_owned {draws : Draws} {serials : List String} {statuses : BatchStatuses} {now : Time}
    {key : Option String} {result : BulkResult}
    (h : activateStamps settings draws actor serials statuses now key db = .ok (result, db')) :
    ∀ s ∈ db.stamps.rows, s.serial ∈ distinct serials → s.companyId = company := by
  intro s hs hserial
  rcases (activateStamps_found h).1 with hadmin | hoperator | hall
  · rw [hrole] at hadmin
    cases hadmin
  · rw [hrole] at hoperator
    cases hoperator
  · have hown := hall s hs hserial
    rw [hcompany] at hown
    exact (Option.some.inj hown).symm

/-- An activation marks stamps of the requester's company. -/
theorem activateStamps_keepsOthers (hother : other ≠ company) {draws : Draws} {serials : List String}
    {statuses : BatchStatuses} {now : Time} {key : Option String} {result : BulkResult}
    (h : activateStamps settings draws actor serials statuses now key db = .ok (result, db')) :
    db'.tenant other = db.tenant other := by
  have howned := activateStamps_owned hrole hcompany h
  obtain ⟨-, -, S, V, A, hS, hV, rfl⟩ := activateStamps_found h
  have hstamps : (Tables.auditEvents.set A (Tables.stampEvents.set V (Tables.stamps.set S db))).companyStamps other =
      db.companyStamps other := by
    change S.rows.filter _ = _
    rw [hS]
    refine filter_map_of_frame (fun s _ => ?_) fun s hs hcompany => if_neg fun hselected => hother ?_
    · split <;> rfl
    · rw [Bool.and_eq_true, decide_eq_true_eq] at hselected
      rw [← howned s hs hselected.1]
      exact (of_decide_eq_true hcompany).symm
  have hevents : (V.rows.filter fun e => e.stampId ∈ (db.companyStamps other).map Stamp.id) =
      db.stampEvents.rows.filter fun e => e.stampId ∈ (db.companyStamps other).map Stamp.id := by
    rw [hV]
    refine filter_append_of_frame fun e he => decide_eq_false fun hmem => ?_
    obtain ⟨s, hs, rfl⟩ := List.mem_map.mp he
    obtain ⟨hs, hserial⟩ := List.mem_filter.mp (List.mem_filter.mp hs).1
    obtain ⟨s', hs', hid⟩ := List.mem_map.mp hmem
    obtain ⟨hrow, hcompany⟩ := List.mem_filter.mp hs'
    rw [stamp_eq_of_id hrow hs hid, howned s hs (of_decide_eq_true hserial)] at hcompany
    exact hother (of_decide_eq_true hcompany).symm
  simp only [Db.tenant, Db.companyBatches, Db.companyOrders, hstamps, Tenant.mk.injEq, true_and]
  exact ⟨rfl, rfl, rfl, rfl, rfl, hevents⟩

end Activation

/-! ### Every stamp is of the company of its order -/

/-- Every stamp has its order, of the same company. -/
def StampsOwned (db : Db) : Prop :=
  ∀ s ∈ db.stamps.rows, ∃ o ∈ db.orders.rows, o.id = s.orderId ∧ o.companyId = s.companyId

/-- A stamp left alone or marked is of the order and the company that it was of. -/
theorem Relabelled.owner {t t' : Stamp} (h : Relabelled t t') :
    t'.serial = t.serial ∧ t'.orderId = t.orderId ∧ t'.companyId = t.companyId := by
  obtain rfl | ⟨now, f, kind, eligible, hmarking, rfl⟩ := h
  · exact ⟨rfl, rfl, rfl⟩
  · cases hmarking <;> exact ⟨rfl, rfl, rfl⟩

/-- Every transaction keeps the owners of the stamps. -/
theorem StampsOwned.step (s : Platform) (e : Event) (h : StampsOwned s.db) : StampsOwned (step settings s e).db := by
  have hchange := step_change settings s e
  generalize (TaxStamp.step settings s e).db = db' at hchange ⊢
  have hordered : ∀ t : Stamp, (∃ o ∈ s.db.orders.rows, o.id = t.orderId ∧ o.companyId = t.companyId) →
      ∃ o ∈ db'.orders.rows, o.id = t.orderId ∧ o.companyId = t.companyId := by
    rintro t ⟨o, ho, hid, hcompany⟩
    obtain ⟨o', ho', hmoved⟩ := hchange.orderStep.persists ho
    exact ⟨o', ho', hmoved.id.trans hid, hmoved.companyId.trans hcompany⟩
  have hold : ∀ {t t' : Stamp}, t ∈ s.db.stamps.rows → Relabelled t t' →
      ∃ o ∈ db'.orders.rows, o.id = t'.orderId ∧ o.companyId = t'.companyId := by
    intro t t' ht hrelabelled
    obtain ⟨-, horder, hcompany⟩ := hrelabelled.owner
    rw [horder, hcompany]
    exact hordered t (h t ht)
  intro t' ht'
  obtain ⟨draws, orderId, chunkSize, now, -, heffect⟩ | ⟨g, hg, hrelabelled⟩ := hchange.relabels
  · obtain ⟨order, batch, base, added, complete, f, O, T, B, C, S, M, A, horder, hid, hstatus, hbatch, hbase, hadded,
      hcount, hcomplete, hf, hO, hT, hB, hS, hM, hissued, hfresh, hclaimed⟩ := heffect
    change t' ∈ S.rows at ht'
    rw [hS] at ht'
    rcases List.mem_append.mp ht' with hmem | hnew
    · exact hold hmem (.inl rfl)
    · obtain ⟨stampId, hprinted⟩ := hclaimed.printed t' hnew
      refine hordered t' ⟨order, horder, ?_, ?_⟩ <;> rw [hprinted] <;> rfl
  · rw [hg] at ht'
    obtain ⟨t, ht, rfl⟩ := List.mem_map.mp ht'
    exact hold ht (hrelabelled t)

/-- A platform with reference data only has no stamps. -/
theorem StampsOwned.initial (companies : Table companySchema) (tariffs : Table tariffSchema) :
    StampsOwned (Db.initial companies tariffs) := by
  intro s hs
  cases hs

/-- Every stamp of a run is of the company of its order. -/
theorem StampsOwned.run (settings : Settings) (companies : Table companySchema) (tariffs : Table tariffSchema)
    (events : List Event) : StampsOwned (Lib.run (TaxStamp.step settings) (.initial companies tariffs) events).db :=
  run_invariant (fun s => StampsOwned s.db) (fun s e h => h.step s e) _ (.initial companies tariffs) events

/-- No transaction removes a stamp or changes its serial or its company. -/
theorem step_keepsStamps (s : Platform) (e : Event) {t : Stamp} (ht : t ∈ s.db.stamps.rows) :
    ∃ t' ∈ (step settings s e).db.stamps.rows, t'.serial = t.serial ∧ t'.companyId = t.companyId := by
  have hchange := step_change settings s e
  generalize (step settings s e).db = db' at hchange ⊢
  obtain ⟨draws, orderId, chunkSize, now, -, heffect⟩ | ⟨g, hg, hrelabelled⟩ := hchange.relabels
  · obtain ⟨order, batch, base, added, complete, f, O, T, B, C, S, M, A, horder, hid, hstatus, hbatch, hbase, hadded,
      hcount, hcomplete, hf, hO, hT, hB, hS⟩ := heffect
    refine ⟨t, ?_, rfl, rfl⟩
    change t ∈ S.rows
    rw [hS]
    exact List.mem_append_left _ ht
  · obtain ⟨hserial, -, hcompany⟩ := (hrelabelled t).owner
    refine ⟨g t, ?_, hserial, hcompany⟩
    rw [hg]
    exact List.mem_map_of_mem ht

/-! ### The answers are those of the company's rows -/

/-- A state of a run and an earlier state of it, from which an activation reads the statuses of the batches. -/
inductive Observed (settings : Settings) : Db → Db → Prop
  | reached (companies : Table companySchema) (tariffs : Table tariffSchema) (before after : List Event) :
      Observed settings (Lib.run (step settings) (.initial companies tariffs) before).db
        (Lib.run (step settings) (.initial companies tariffs) (before ++ after)).db

/-- A stamp that was read is still there. -/
theorem Observed.stamp (h : Observed settings read db) {t : Stamp} (ht : t ∈ read.stamps.rows) :
    ∃ t' ∈ db.stamps.rows, t'.serial = t.serial ∧ t'.companyId = t.companyId := by
  obtain ⟨companies, tariffs, before, after⟩ := h
  rw [run_append]
  refine run_invariant (fun s : Platform => ∃ t' ∈ s.db.stamps.rows, t'.serial = t.serial ∧ t'.companyId = t.companyId)
    ?_ _ ⟨t, ht, rfl, rfl⟩ after
  rintro s e ⟨t', ht', hserial, hcompany⟩
  obtain ⟨t'', ht'', hserial', hcompany'⟩ := step_keepsStamps s e ht'
  exact ⟨t'', ht'', hserial'.trans hserial, hcompany'.trans hcompany⟩

/-- The statuses read for stamps of one company are those of its batches. -/
theorem readBatchStatuses_tenant (hstock : Stocktake read) (howned : StampsOwned read) {serials : List String}
    (hread : ∀ s ∈ read.stamps.rows, s.serial ∈ distinct serials → s.companyId = company) :
    readBatchStatuses serials read =
      (((read.tenant company).stampBatches.filter fun b =>
        b.id ∈ ((read.tenant company).stamps.filter fun s => s.serial ∈ distinct serials).map Stamp.batchId).map
          fun b => (b.id, b.status)) := by
  have hstamps : ((read.tenant company).stamps.filter fun s => s.serial ∈ distinct serials) =
      read.stamps.rows.filter fun s => s.serial ∈ distinct serials :=
    filter_of_selected fun s hs hserial => decide_eq_true (hread s hs (of_decide_eq_true hserial))
  rw [hstamps]
  refine congrArg (List.map fun b : StampBatch => (b.id, b.status)) (filter_of_selected fun b hb hid => ?_).symm
  obtain ⟨s, hs, hsbatch⟩ := List.mem_map.mp (of_decide_eq_true hid)
  obtain ⟨hs, hserial⟩ := List.mem_filter.mp hs
  obtain ⟨b', hb', hid', horder'⟩ := hstock.stamps s hs
  obtain ⟨o, ho, hoid, hcompany⟩ := howned s hs
  have hsame : b' = b := read.stock.batch_eq_of_id hb' hb (hid'.trans hsbatch)
  refine decide_eq_true (List.mem_map.mpr ⟨o, List.mem_filter.mpr ⟨ho, decide_eq_true ?_⟩, ?_⟩)
  · exact hcompany.trans (hread s hs (of_decide_eq_true hserial))
  · rw [hoid, ← horder', hsame]

/-- In both runs an activation finds the same stamps and has read the same statuses. -/
theorem activateStamps_tells (hrole : actor.role = .requester) (hcompany : actor.companyId = some company)
    {read' d d' : Db} (hobserved : Observed settings read db) (hobserved' : Observed settings read' db')
    (hread : read.tenant company = read'.tenant company) (hdb : db.tenant company = db'.tenant company) {draws : Draws}
    {serials : List String} {now : Time} {key : Option String} {result result' : BulkResult}
    (h : activateStamps settings draws actor serials (readBatchStatuses serials read) now key db = .ok (result, d))
    (h' : activateStamps settings draws actor serials (readBatchStatuses serials read') now key db' =
      .ok (result', d')) : result = result' := by
  have hstatuses : ∀ {read db d : Db} {result : BulkResult}, Observed settings read db →
      activateStamps settings draws actor serials (readBatchStatuses serials read) now key db = .ok (result, d) →
      readBatchStatuses serials read = (((read.tenant company).stampBatches.filter fun b =>
        b.id ∈ ((read.tenant company).stamps.filter fun s => s.serial ∈ distinct serials).map Stamp.batchId).map
          fun b => (b.id, b.status)) := by
    intro read db d result hobserved h
    have howned := activateStamps_owned hrole hcompany h
    have hsound : Stocktake read ∧ StampsOwned read := by
      obtain ⟨companies, tariffs, before, after⟩ := hobserved
      exact ⟨.run settings companies tariffs before, .run settings companies tariffs before⟩
    refine readBatchStatuses_tenant hsound.1 hsound.2 fun t ht hserial => ?_
    obtain ⟨t', ht', hserial', hcompany'⟩ := hobserved.stamp ht
    rw [← hcompany']
    exact howned t' ht' (hserial' ▸ hserial)
  have hfound : ∀ {read db d : Db} {result : BulkResult},
      activateStamps settings draws actor serials (readBatchStatuses serials read) now key db = .ok (result, d) →
      (db.stamps.rows.filter fun s => s.serial ∈ distinct serials) =
        (db.tenant company).stamps.filter fun s => s.serial ∈ distinct serials := by
    intro read db d result h
    refine (filter_of_selected fun s hs hserial => decide_eq_true ?_).symm
    exact activateStamps_owned hrole hcompany h s hs (of_decide_eq_true hserial)
  obtain ⟨-, hresult, -⟩ := activateStamps_found h
  obtain ⟨-, hresult', -⟩ := activateStamps_found h'
  rw [hresult, hresult', hfound h, hfound h', hstatuses hobserved h, hstatuses hobserved' h', hread, hdb]

section Reading

variable (hrole : actor.role = .requester) (hcompany : actor.companyId = some company)
include hrole hcompany

/-- What a requester may read is of its company. -/
theorem owner_eq {companyId : Uuid} (howner : actor.role = .requester → actor.companyId = some companyId) :
    companyId = company := by
  have hown := howner hrole
  rw [hcompany] at hown
  exact (Option.some.inj hown).symm

/-- A requester reads an order from the rows of its company. -/
theorem getOrder_tenant {orderId : Uuid} {document : JsonObject} (h : getOrder actor orderId db = .ok (document, db')) :
    ∃ order ∈ (db.tenant company).orders, order.id = orderId ∧ document = orderDocument order ++
      [("approvals", .arr (((db.tenant company).approvals.filter fun a => a.orderId = order.id).map approvalDocument)),
        ("payment", (((db.tenant company).paymentIntents.filter fun i => i.orderId = order.id).head?.map
          paymentDocument).getD .null)] := by
  obtain ⟨order, horder, howner, rfl, -⟩ := getOrder_ok h
  obtain ⟨hrow, hid⟩ := mem_of_filter_eq_singleton horder
  have hmem : order ∈ (db.tenant company).orders :=
    List.mem_filter.mpr ⟨hrow, decide_eq_true (owner_eq hrole hcompany howner)⟩
  have hrefers : ∀ id : Uuid, id = order.id → id ∈ (db.companyOrders company).map Order.id := by
    rintro id rfl
    exact List.mem_map_of_mem hmem
  have happrovals : ((db.tenant company).approvals.filter fun a => a.orderId = order.id) =
      db.approvals.rows.filter fun a => a.orderId = order.id :=
    filter_of_selected fun a _ ha => decide_eq_true (hrefers _ (of_decide_eq_true ha))
  have hintents : ((db.tenant company).paymentIntents.filter fun i => i.orderId = order.id) =
      db.paymentIntents.rows.filter fun i => i.orderId = order.id :=
    filter_of_selected fun i _ hi => decide_eq_true (hrefers _ (of_decide_eq_true hi))
  refine ⟨order, hmem, of_decide_eq_true hid, ?_⟩
  rw [happrovals, hintents]

/-- A requester lists the orders of its company. -/
theorem listOrders_tenant {limit offset : ℤ} {document : JsonObject}
    (h : listOrders actor limit offset db = .ok (document, db')) :
    document = [("orders", .arr (((((db.tenant company).orders.insertionSort fun a b =>
        decide (b.createdAt ≤ a.createdAt) = true).take (max offset 0 + max 1 (min limit 200)).toNat).drop
          (max offset 0).toNat).map fun o => .obj (orderDocument o))),
      ("limit", .int (max 1 (min limit 200)))] := by
  obtain ⟨rfl, -⟩ := listOrders_ok h
  have hlisted : (db.orders.rows.filter fun o => actor.role ≠ .requester || actor.companyId = some o.companyId) =
      (db.tenant company).orders := by
    refine List.filter_congr fun o _ => ?_
    simp only [hrole, hcompany, ne_eq, not_true_eq_false, decide_false, Bool.false_or, Option.some.injEq, eq_comm]
  rw [hlisted]

/-- A requester reads a stamp of its company. -/
theorem getStamp_tenant {serial : String} {stamp : Stamp} (h : getStamp serial actor db = .ok (stamp, db')) :
    stamp ∈ (db.tenant company).stamps ∧ stamp.serial = serial := by
  obtain ⟨hfound, howner, -⟩ := getStamp_ok h
  obtain ⟨hrow, hserial⟩ := mem_of_filter_eq_singleton hfound
  exact ⟨List.mem_filter.mpr ⟨hrow, decide_eq_true (owner_eq hrole hcompany howner)⟩, of_decide_eq_true hserial⟩

/-- A requester reads a batch from the rows of its company. -/
theorem getBatch_tenant {batchId : Uuid} {document : JsonObject} (h : getBatch actor batchId db = .ok (document, db')) :
    ∃ batch ∈ (db.tenant company).stampBatches, batch.id = batchId ∧
      document = batchDocument batch ((db.tenant company).inspections.filter fun i => i.batchId = batch.id).head? := by
  obtain ⟨batch, order, hbatch, horder, howner, rfl, -⟩ := getBatch_ok h
  obtain ⟨hrow, hid⟩ := mem_of_filter_eq_singleton hbatch
  obtain ⟨horow, hoid⟩ := mem_of_filter_eq_singleton horder
  have hof : order ∈ db.companyOrders company :=
    List.mem_filter.mpr ⟨horow, decide_eq_true (owner_eq hrole hcompany howner)⟩
  have hmem : batch ∈ (db.tenant company).stampBatches := by
    refine List.mem_filter.mpr ⟨hrow, decide_eq_true ?_⟩
    rw [← of_decide_eq_true hoid]
    exact List.mem_map_of_mem hof
  have hinspections : ((db.tenant company).inspections.filter fun i => i.batchId = batch.id) =
      db.inspections.rows.filter fun i => i.batchId = batch.id := by
    refine filter_of_selected fun i _ hi => decide_eq_true ?_
    rw [of_decide_eq_true hi]
    exact List.mem_map_of_mem hmem
  refine ⟨batch, hmem, of_decide_eq_true hid, ?_⟩
  rw [hinspections]

end Reading

/-- A call that answers in two states with the same rows of the company gives the same answer. -/
theorem RequesterCall.answer_eq (hrole : actor.role = .requester) (hcompany : actor.companyId = some company)
    {call : RequesterCall} (htells : call.Tells) {read' d d' : Db} (hobserved : Observed settings read db)
    (hobserved' : Observed settings read' db') (hread : read.tenant company = read'.tenant company)
    (hdb : db.tenant company = db'.tenant company) {answer answer' : Answer}
    (h : call.run settings actor read db = .ok (answer, d))
    (h' : call.run settings actor read' db' = .ok (answer', d')) : answer = answer' := by
  cases call with
  | submitOrder => exact absurd htells id
  | cancelOrder => exact absurd htells id
  | activateStamps draws serials now key =>
    obtain ⟨result, db₁, hrun, hpure⟩ := Tx.bind_ok.mp h
    obtain ⟨result', db₁', hrun', hpure'⟩ := Tx.bind_ok.mp h'
    rw [(Tx.pure_ok.mp hpure).1, (Tx.pure_ok.mp hpure').1,
      activateStamps_tells hrole hcompany hobserved hobserved' hread hdb hrun hrun']
  | getOrder orderId =>
    obtain ⟨document, db₁, hrun, hpure⟩ := Tx.bind_ok.mp h
    obtain ⟨document', db₁', hrun', hpure'⟩ := Tx.bind_ok.mp h'
    obtain ⟨order, horder, hid, hdocument⟩ := getOrder_tenant hrole hcompany hrun
    obtain ⟨order', horder', hid', hdocument'⟩ := getOrder_tenant hrole hcompany hrun'
    rw [hdb] at horder hdocument
    obtain rfl : order = order' := order_eq_of_id db' (List.mem_filter.mp horder).1 (List.mem_filter.mp horder').1
      (hid.trans hid'.symm)
    rw [(Tx.pure_ok.mp hpure).1, (Tx.pure_ok.mp hpure').1, hdocument, hdocument']
  | listOrders limit offset =>
    obtain ⟨document, db₁, hrun, hpure⟩ := Tx.bind_ok.mp h
    obtain ⟨document', db₁', hrun', hpure'⟩ := Tx.bind_ok.mp h'
    rw [(Tx.pure_ok.mp hpure).1, (Tx.pure_ok.mp hpure').1, listOrders_tenant hrole hcompany hrun,
      listOrders_tenant hrole hcompany hrun', hdb]
  | getStamp serial =>
    obtain ⟨stamp, db₁, hrun, hpure⟩ := Tx.bind_ok.mp h
    obtain ⟨stamp', db₁', hrun', hpure'⟩ := Tx.bind_ok.mp h'
    obtain ⟨hstamp, hserial⟩ := getStamp_tenant hrole hcompany hrun
    obtain ⟨hstamp', hserial'⟩ := getStamp_tenant hrole hcompany hrun'
    rw [hdb] at hstamp
    obtain rfl : stamp = stamp' := db'.stamps.eq_of_clash (List.mem_filter.mp hstamp).1 (List.mem_filter.mp hstamp').1
      (by simp [stampSchema, hserial, hserial'])
    rw [(Tx.pure_ok.mp hpure).1, (Tx.pure_ok.mp hpure').1]
  | getBatch batchId =>
    obtain ⟨document, db₁, hrun, hpure⟩ := Tx.bind_ok.mp h
    obtain ⟨document', db₁', hrun', hpure'⟩ := Tx.bind_ok.mp h'
    obtain ⟨batch, hbatch, hid, hdocument⟩ := getBatch_tenant hrole hcompany hrun
    obtain ⟨batch', hbatch', hid', hdocument'⟩ := getBatch_tenant hrole hcompany hrun'
    rw [hdb] at hbatch hdocument
    obtain rfl : batch = batch' := db'.stock.batch_eq_of_id (List.mem_filter.mp hbatch).1 (List.mem_filter.mp hbatch').1
      (hid.trans hid'.symm)
    rw [(Tx.pure_ok.mp hpure).1, (Tx.pure_ok.mp hpure').1, hdocument, hdocument']

/-- A call that finishes leaves the rows of every other company. -/
theorem RequesterCall.keepsOthers (hrole : actor.role = .requester) (hcompany : actor.companyId = some company)
    (hother : other ≠ company) {call : RequesterCall} {answer : Answer}
    (h : call.run settings actor read db = .ok (answer, db')) : db'.tenant other = db.tenant other := by
  cases call with
  | submitOrder compliance draws command now key =>
    obtain ⟨order, db₁, hrun, hpure⟩ := Tx.bind_ok.mp h
    obtain ⟨-, rfl⟩ := Tx.pure_ok.mp hpure
    exact submitOrder_keepsOthers hrole hcompany hother hrun
  | cancelOrder draws orderId reason now =>
    obtain ⟨order, db₁, hrun, hpure⟩ := Tx.bind_ok.mp h
    obtain ⟨-, rfl⟩ := Tx.pure_ok.mp hpure
    exact cancelOrder_keepsOthers hrole hcompany hother hrun
  | activateStamps draws serials now key =>
    obtain ⟨result, db₁, hrun, hpure⟩ := Tx.bind_ok.mp h
    obtain ⟨-, rfl⟩ := Tx.pure_ok.mp hpure
    exact activateStamps_keepsOthers hrole hcompany hother hrun
  | getOrder orderId =>
    obtain ⟨document, db₁, hrun, hpure⟩ := Tx.bind_ok.mp h
    obtain ⟨-, rfl⟩ := Tx.pure_ok.mp hpure
    obtain ⟨order, -, -, -, rfl⟩ := getOrder_ok hrun
    rfl
  | listOrders limit offset =>
    obtain ⟨document, db₁, hrun, hpure⟩ := Tx.bind_ok.mp h
    obtain ⟨-, rfl⟩ := Tx.pure_ok.mp hpure
    obtain ⟨-, rfl⟩ := listOrders_ok hrun
    rfl
  | getStamp serial =>
    obtain ⟨stamp, db₁, hrun, hpure⟩ := Tx.bind_ok.mp h
    obtain ⟨-, rfl⟩ := Tx.pure_ok.mp hpure
    obtain ⟨-, -, rfl⟩ := getStamp_ok hrun
    rfl
  | getBatch batchId =>
    obtain ⟨document, db₁, hrun, hpure⟩ := Tx.bind_ok.mp h
    obtain ⟨-, rfl⟩ := Tx.pure_ok.mp hpure
    obtain ⟨batch, order, -, -, -, -, rfl⟩ := getBatch_ok hrun
    rfl

/-! ### The calls are transactions of the platform -/

/-- The platform's events of a call; a read is none. -/
def RequesterCall.events (actor : Actor) (s : Platform) : RequesterCall → List Event
  | .submitOrder compliance draws command now key => [.submitOrder compliance draws actor command now key]
  | .cancelOrder draws orderId reason now => [.cancelOrder draws actor orderId reason now]
  | .activateStamps draws serials now key =>
    [.readStatuses serials, .activateStamps s.activations.length draws actor now key]
  | _ => []

/-- Packing the result of a transaction commits the same. -/
theorem commit_packed {α β : Type} (x : Session α) (f : α → β) (db : Db) :
    Tx.commit (do return f (← x)) db = x.commit db := by
  cases h : x db with
  | error fault => rw [Tx.commit, Tx.commit, Tx.bind_of_error _ h, h]
  | ok r => rw [Tx.commit, Tx.commit, Tx.bind_of_ok _ h, h]; rfl

/-- The events of a call commit what the call does from the state in which it is made. -/
theorem RequesterCall.run_events (settings : Settings) (actor : Actor) (s : Platform) (call : RequesterCall) :
    Lib.run (step settings) s (call.events actor s) = { s with db := (call.run settings actor s.db).commit s.db } := by
  have hread : ∀ {α : Type} (x : Session α) (f : α → Answer), (∀ a db', x s.db = .ok (a, db') → s.db = db') →
      s = { s with db := Tx.commit (do return f (← x)) s.db } := by
    intro α x f hx
    rw [commit_packed]
    exact Tx.commit_induction (fun db' => s = { s with db := db' }) rfl fun a db' h => by rw [← hx a db' h]
  cases call with
  | submitOrder compliance draws command now key => rw [RequesterCall.run, commit_packed]; rfl
  | cancelOrder draws orderId reason now => rw [RequesterCall.run, commit_packed]; rfl
  | activateStamps draws serials now key =>
    rw [RequesterCall.run, commit_packed]
    simp [RequesterCall.events, Lib.run, step, List.eraseIdx_append_of_length_le]
  | getOrder orderId => exact hread _ _ fun document db' h => (getOrder_ok h).choose_spec.2.2.2
  | listOrders limit offset => exact hread _ _ fun document db' h => (listOrders_ok h).2
  | getStamp serial => exact hread _ _ fun stamp db' h => (getStamp_ok h).2.2
  | getBatch batchId =>
    refine hread _ _ fun document db' h => ?_
    obtain ⟨batch, order, -, -, -, -, hdb⟩ := getBatch_ok h
    exact hdb

/-- Tenants are isolated: in every reachable state, whatever a requester calls leaves the rows of every other company,
a refused call leaves everything, and what a read or an activation answers depends on the rows of its company only. -/
theorem tenants_isolated (settings : Settings) (actor : Actor) (company : Uuid) (hrole : actor.role = .requester)
    (hcompany : actor.companyId = some company) (call : RequesterCall) (read db : Db)
    (hobserved : Observed settings read db) :
    (∀ other, other ≠ company → ((call.run settings actor read).commit db).tenant other = db.tenant other) ∧
      (∀ fault, call.run settings actor read db = .error fault → (call.run settings actor read).commit db = db) ∧
      (call.Tells → ∀ read' db', Observed settings read' db' → read.tenant company = read'.tenant company →
        db.tenant company = db'.tenant company → ∀ answer answer' d d',
          call.run settings actor read db = .ok (answer, d) → call.run settings actor read' db' = .ok (answer', d') →
            answer = answer') := by
  refine ⟨fun other hother => ?_, fun fault h => ?_, ?_⟩
  · exact Tx.commit_induction (fun d : Db => d.tenant other = db.tenant other) rfl fun answer d h =>
      RequesterCall.keepsOthers hrole hcompany hother h
  · rw [Tx.commit, h]
  · intro htells read' db' hobserved' hread hdb answer answer' d d' h h'
    exact RequesterCall.answer_eq hrole hcompany htells hobserved hobserved' hread hdb h h'

/-- A submission commits what its service commits. -/
theorem RequesterCall.commit_submitOrder {compliance : ComplianceService} {draws : Draws} {command : SubmitOrderCommand}
    {now : Time} {key : Option String} :
    ((RequesterCall.submitOrder compliance draws command now key).run settings actor read).commit db =
      (TaxStamp.submitOrder settings compliance draws actor command now key).commit db := by
  rw [RequesterCall.run, Tx.commit, Tx.commit]
  cases h : TaxStamp.submitOrder settings compliance draws actor command now key db with
  | error fault => rw [Tx.bind_of_error _ h]
  | ok r =>
    rw [Tx.bind_of_ok _ h]
    rfl

/-- Two verified companies of low risk. -/
def sampleNeighbours : Table companySchema :=
  ⟨[⟨⟨1⟩, "12345678", .verified, .low⟩, ⟨⟨9⟩, "87654321", .verified, .low⟩], by decide +kernel⟩

/-- The other company orders a stamp, pays it exactly, and it is printed. -/
def sampleOtherIssued : List Event :=
  [.submitOrder sampleRegistries (sampleDraws 11) ⟨⟨19⟩, "other", .requester, some ⟨9⟩, none⟩
      ⟨⟨9⟩, "beverages", 1, "Kano", "Market"⟩ sampleNow none,
    .decideApproval (sampleDraws 12) sampleAnalyst ⟨⟨1100⟩, .analyst, .approved, "ok"⟩ sampleNow none,
    .ingestRemittance (sampleDraws 13)
      ⟨"BANK-9", reference "PAY" sampleNow (sampleDraws 12).choices, 1344, "NGN", sampleNow, []⟩ sampleNow,
    .issueChunk (sampleDraws 14) ⟨1100⟩ 100 sampleNow]

/-- A requester of the other company. -/
def sampleNeighbour : Actor := ⟨⟨19⟩, "other", .requester, some ⟨9⟩, none⟩

/-- A later order of the other company. -/
def sampleLaterOrder : SubmitOrderCommand := ⟨⟨9⟩, "beverages", 2, "Kano", "Market"⟩

/-- The platform with a stamp of each company. -/
def sampleBoth : Platform :=
  run (step sampleSettings) (.initial sampleNeighbours sampleTariffs) (sampleIssued ++ sampleOtherIssued)

/-- The platform after the later order. -/
def sampleLater : Platform :=
  step sampleSettings sampleBoth
    (.submitOrder sampleRegistries (sampleDraws 15) sampleNeighbour sampleLaterOrder sampleNow none)

/-- The later order is committed by its service. -/
theorem sampleLater_db : sampleLater.db = (submitOrder sampleSettings sampleRegistries (sampleDraws 15) sampleNeighbour
    sampleLaterOrder sampleNow none).commit sampleBoth.db := by
  rw [sampleLater, step]

/-- Both platforms can be observed. -/
theorem sampleNeighbours_observed :
    Observed sampleSettings sampleBoth.db sampleBoth.db ∧ Observed sampleSettings sampleLater.db sampleLater.db := by
  have hboth : Observed sampleSettings _ _ := .reached sampleNeighbours sampleTariffs (sampleIssued ++ sampleOtherIssued) []
  have hlater : Observed sampleSettings _ _ := .reached sampleNeighbours sampleTariffs
    (sampleIssued ++ sampleOtherIssued ++
      [.submitOrder sampleRegistries (sampleDraws 15) sampleNeighbour sampleLaterOrder sampleNow none]) []
  rw [List.append_nil] at hboth hlater
  rw [run_append] at hlater
  exact ⟨hboth, hlater⟩

/-- A request for the stamps of both companies changes nothing of the other one, and a request for the own stamp is
answered as before the other company's later order. -/
theorem tenants_isolated_sample :
    let mixed := RequesterCall.activateStamps (sampleDraws 16) ["NG-BEV-2026-0000000001-W", "NG-BEV-2026-0000000002-U"]
      sampleNow none
    let own := RequesterCall.activateStamps (sampleDraws 16) ["NG-BEV-2026-0000000001-W"] sampleNow none
    ((sampleBoth.db.tenant ⟨9⟩).stamps.map Stamp.serial = ["NG-BEV-2026-0000000002-U"] ∧
        (sampleLater.db.tenant ⟨9⟩).orders.length = 2 ∧
        (own.run sampleSettings sampleRequester sampleBoth.db sampleBoth.db).isOk = true ∧
        (own.run sampleSettings sampleRequester sampleLater.db sampleLater.db).isOk = true) ∧
      ((mixed.run sampleSettings sampleRequester sampleBoth.db).commit sampleBoth.db).tenant ⟨9⟩ =
        sampleBoth.db.tenant ⟨9⟩ ∧
      ∀ answer answer' d d', own.run sampleSettings sampleRequester sampleBoth.db sampleBoth.db = .ok (answer, d) →
        own.run sampleSettings sampleRequester sampleLater.db sampleLater.db = .ok (answer', d') → answer = answer' := by
  intro mixed own
  obtain ⟨hboth, hlater⟩ := sampleNeighbours_observed
  have hsame := (tenants_isolated sampleSettings sampleNeighbour ⟨9⟩ rfl rfl
    (.submitOrder sampleRegistries (sampleDraws 15) sampleLaterOrder sampleNow none) _ _ hboth).1 ⟨1⟩ (by decide)
  rw [RequesterCall.commit_submitOrder, ← sampleLater_db] at hsame
  refine ⟨by decide +kernel, ?_, ?_⟩
  · exact (tenants_isolated sampleSettings sampleRequester ⟨1⟩ rfl rfl mixed _ _ hboth).1 ⟨9⟩ (by decide)
  · exact (tenants_isolated sampleSettings sampleRequester ⟨1⟩ rfl rfl own _ _ hboth).2.2 (show own.Tells from trivial) _ _
      hlater hsame.symm hsame.symm

end TaxStamp
