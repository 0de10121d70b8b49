import TaxStamp.Compliance
import TaxStamp.Context
import TaxStamp.Outbox

/-!
# Order intake and maker-checker approval

An order is priced from the effective tariff and checked against the registries before it
is recorded. Approvals are given per level; once every level that the order's risk tier
demands is approved, the order awaits payment and its payment intent is created.
-/

namespace TaxStamp

open Lib

/-- The characters of a reference. -/
def referenceAlphabet : List Char := "23456789ABCDEFGHJKLMNPQRSTUVWXYZ".toList

/-- A human-readable reference with a random suffix. -/
def reference (pre : String) (now : Time) (choices : Fin 10 → Fin 32) : String :=
  pre ++ "-" ++ zeroPad 4 (Time.year now).toNat ++ "-" ++
    String.ofList ((List.ofFn choices).map fun i => referenceAlphabet.getD i.val '2')

/-- A request for stamps. -/
structure SubmitOrderCommand where
  companyId : Uuid
  productCategory : String
  quantity : ℤ
  deliveryState : String
  deliveryAddress : String
  deriving DecidableEq, Repr

/-- The tariff of a category that is in force. -/
def currentTariff (productCategory : String) (now : Time) : Session Tariff := do
  let tariff ← selectFirst Tables.tariffs
    (fun t => t.productCategory = productCategory && t.effectiveFrom ≤ now && t.effectiveTo.all (now < ·))
    fun a b => b.effectiveFrom ≤ a.effectiveFrom
  Tx.orRefuse tariff (.validationFailed s!"no effective tariff for product category {pyRepr productCategory}"
    [("product_category", productCategory)])

/-- Refuse an order transition that the table does not list. -/
def assertOrderTransition (current target : OrderStatus) : Session Unit :=
  Tx.require (target ∈ orderTransitions current)
    (.transitionError s!"order: illegal transition {current.value} -> {target.value}")

/-- An order with a new status. -/
def Order.withStatus (order : Order) (status : OrderStatus) (now : Time) : Order :=
  { order with status := status, updatedAt := now }

/-- Give the order with an identifier a new status. -/
def moveOrder (orderId : Uuid) (status : OrderStatus) (now : Time) (rows : List Order) : List Order :=
  rows.map fun o => if o.id = orderId then o.withStatus status now else o

/-- Move an order to another status and extend its history. -/
def transition (order : Order) (target : OrderStatus) (actorPrincipalId : Option Uuid) (reason : String)
    (now : Time) : Session Order := do
  assertOrderTransition order.status target
  setRows Tables.orders (fun o => o.id = order.id) fun o => o.withStatus target now
  addRow Tables.orderTransitions ⟨order.id, some order.status, target, actorPrincipalId, reason, now⟩
  return order.withStatus target now

/-- A legal transition moves the order and appends its history row. -/
theorem transition_ok {order moved : Order} {target : OrderStatus} {actorPrincipalId : Option Uuid}
    {reason : String} {now : Time} {db db' : Db}
    (h : transition order target actorPrincipalId reason now db = .ok (moved, db')) :
    target ∈ orderTransitions order.status ∧ moved = order.withStatus target now ∧
      ∃ (O : Table orderSchema) (T : Table orderTransitionSchema),
        O.rows = moveOrder order.id target now db.orders.rows ∧
        T.rows = db.orderTransitions.rows ++
          [⟨order.id, some order.status, target, actorPrincipalId, reason, now⟩] ∧
        db' = Tables.orderTransitions.set T (Tables.orders.set O db) := by
  simp only [transition, assertOrderTransition, Tx.bind_ok, Tx.require_ok, updateRows_ok, insertRow_ok,
    Tx.pure_ok] at h
  obtain ⟨-, db₁, ⟨hlegal, rfl⟩, -, db₂, ⟨O, hO, rfl⟩, -, db₃, ⟨T, hT, rfl⟩, rfl, rfl⟩ := h
  refine ⟨hlegal, rfl, O, T, ?_, hT, rfl⟩
  simp only [decide_eq_true_eq] at hO
  exact hO

/-- Only the last of several moves of an order counts. -/
theorem moveOrder_moveOrder (orderId : Uuid) (first second : OrderStatus) (now : Time) (rows : List Order) :
    moveOrder orderId second now (moveOrder orderId first now rows) = moveOrder orderId second now rows := by
  simp only [moveOrder, List.map_map]
  refine List.map_congr_left fun o _ => ?_
  by_cases ho : o.id = orderId <;> simp [ho, Order.withStatus]

/-- The orders after a move: the moved one has the new status, the others are as before. -/
theorem mem_moveOrder {orderId : Uuid} {status : OrderStatus} {now : Time} {rows : List Order} {o : Order} :
    o ∈ moveOrder orderId status now rows ↔
      ∃ old ∈ rows, (old.id = orderId ∧ o = old.withStatus status now) ∨ (old.id ≠ orderId ∧ o = old) := by
  simp only [moveOrder, List.mem_map]
  refine exists_congr fun old => and_congr_right fun _ => ?_
  by_cases hid : old.id = orderId <;> simp [hid, eq_comm]

/-- Orders with one identifier are one order. -/
theorem order_eq_of_id (db : Db) {o o' : Order} (ho : o ∈ db.orders.rows) (ho' : o' ∈ db.orders.rows)
    (hid : o.id = o'.id) : o = o' :=
  db.orders.eq_of_clash ho ho' (by simp [orderSchema, hid])

/-- Moving an order that is not in the list changes nothing. -/
theorem moveOrder_eq_self {orderId : Uuid} (status : OrderStatus) (now : Time) {rows : List Order}
    (h : ∀ o ∈ rows, o.id ≠ orderId) : moveOrder orderId status now rows = rows := by
  calc moveOrder orderId status now rows
      = rows.map fun o => o := List.map_congr_left fun o ho => if_neg (h o ho)
    _ = rows := List.map_id' rows

/-- Moving an order that was just appended rewrites the last row only. -/
theorem moveOrder_append_self {status : OrderStatus} {now : Time} {rows : List Order} {order : Order}
    (h : ∀ o ∈ rows, o.id ≠ order.id) :
    moveOrder order.id status now (rows ++ [order]) = rows ++ [order.withStatus status now] := by
  have hrows := moveOrder_eq_self status now h
  unfold moveOrder at hrows ⊢
  rw [List.map_append, hrows]
  simp

/-- The order data that the audit trail keeps. -/
def orderSnapshot (order : Order) : JsonObject :=
  [("order_ref", .str order.orderRef),
    ("status", .str order.status.value),
    ("quantity", .int order.quantity),
    ("total_minor", .int order.totalMinor),
    ("currency", .str order.currency),
    ("product_category", .str order.productCategory)]

/-- Record a compliance outcome in the history of a new order. -/
def settleCompliance (order : Order) (compliant : Bool) (actor : Actor) (now : Time) : Session Order :=
  if compliant then
    transition order .awaitingApproval (some actor.principalId) "compliance checks passed" now
  else do
    let pending ← transition order .compliancePending (some actor.principalId)
      "compliance decision recorded" now
    transition pending .complianceRejected (some actor.principalId)
      "one or more registries reported non-compliance" now

/-- The history that a new order starts with. -/
def submissionHistory (orderId : Uuid) (compliant : Bool) (actor : Actor) (now : Time) : List OrderTransition :=
  ⟨orderId, none, .submitted, some actor.principalId, "submitted", now⟩ ::
    if compliant then
      [⟨orderId, some .submitted, .awaitingApproval, some actor.principalId, "compliance checks passed", now⟩]
    else
      [⟨orderId, some .submitted, .compliancePending, some actor.principalId, "compliance decision recorded", now⟩,
        ⟨orderId, some .compliancePending, .complianceRejected, some actor.principalId,
          "one or more registries reported non-compliance", now⟩]

/-- The status that a new order ends up with. -/
def submissionStatus (compliant : Bool) : OrderStatus :=
  if compliant then .awaitingApproval else .complianceRejected

/-- A new order moves to the status of its compliance outcome. -/
theorem settleCompliance_ok {order moved : Order} {compliant : Bool} {actor : Actor} {now : Time} {db db' : Db}
    (hstatus : order.status = .submitted) (h : settleCompliance order compliant actor now db = .ok (moved, db')) :
    moved = order.withStatus (submissionStatus compliant) now ∧
      ∃ (O : Table orderSchema) (T : Table orderTransitionSchema),
        O.rows = moveOrder order.id (submissionStatus compliant) now db.orders.rows ∧
        T.rows = db.orderTransitions.rows ++ (submissionHistory order.id compliant actor now).tail ∧
        db' = Tables.orderTransitions.set T (Tables.orders.set O db) := by
  unfold settleCompliance at h
  cases compliant with
  | true =>
    obtain ⟨-, hmoved, O, T, hO, hT, hdb⟩ := transition_ok (by simpa using h)
    rw [hstatus] at hT
    exact ⟨hmoved, O, T, hO, hT, hdb⟩
  | false =>
    simp only [Bool.false_eq_true, if_false, Tx.bind_ok] at h
    obtain ⟨pending, db₁, hpending, hrejected⟩ := h
    obtain ⟨-, rfl, O₁, T₁, hO₁, hT₁, rfl⟩ := transition_ok hpending
    obtain ⟨-, hmoved, O, T, hO, hT, hdb⟩ := transition_ok hrejected
    refine ⟨hmoved, O, T, ?_, ?_, hdb⟩
    · rw [hO]
      change moveOrder order.id _ now O₁.rows = _
      rw [hO₁, moveOrder_moveOrder]
      rfl
    · rw [hT]
      change T₁.rows ++ _ = _
      rw [hT₁, hstatus, List.append_assoc]
      rfl

/-- The order of an accepted request, before its compliance outcome is recorded. -/
def newOrder (orderId : Uuid) (orderRef : String) (actor : Actor) (command : SubmitOrderCommand)
    (company : Company) (tariff : Tariff) (breakdown : PriceBreakdown) (outcome : ComplianceOutcome)
    (now : Time) : Order where
  id := orderId
  orderRef := orderRef
  companyId := company.id
  submittedBy := actor.principalId
  productCategory := command.productCategory
  quantity := command.quantity
  tariffId := tariff.id
  unitPriceMinor := breakdown.unitPrice.minor
  subtotalMinor := breakdown.subtotal.minor
  vatBps := breakdown.vatBps
  vatMinor := breakdown.vat.minor
  totalMinor := breakdown.total.minor
  currency := breakdown.total.currency
  status := .submitted
  riskTier := company.riskTier
  deliveryState := command.deliveryState
  deliveryAddress := command.deliveryAddress
  complianceEvidence := outcome.asEvidence
  createdAt := now
  updatedAt := now

/-- Check the request, price it and ask the registries; nothing is written yet. -/
def draftOrder (settings : Settings) (compliance : ComplianceService) (draws : Draws) (actor : Actor)
    (command : SubmitOrderCommand) (now : Time) : Session (Order × Bool) := do
  actor.requireRole [.requester, .admin]
  actor.requireCompany command.companyId
  Tx.require (0 < command.quantity) (.validationFailed "quantity must be positive")
  Tx.require (command.quantity ≤ settings.maxOrderQuantity)
    (.validationFailed s!"quantity exceeds the per-order maximum of {settings.maxOrderQuantity}")
  let company ← fetch Tables.companies (fun c => c.id = command.companyId) (.notFound "company not found")
  Tx.require (company.kybStatus = .verified)
    (.validationFailed "company business verification is not complete"
      [("kyb_status", company.kybStatus.value)])
  let tariff ← currentTariff command.productCategory now
  let unitPrice ← Tx.lift (Money.make tariff.unitPriceMinor tariff.currency)
  let breakdown ← Tx.lift (priceOrder command.quantity unitPrice tariff.vatBps)
  let outcome ← Tx.lift (compliance.check company.tin command.productCategory command.quantity)
  return (newOrder (draws.uuid 0) (reference "ORD" now draws.choices) actor command company tariff breakdown
    outcome now, outcome.compliant)

/-- Accept an order: price it, check its compliance and record it with the outcome. -/
def submitOrder (settings : Settings) (compliance : ComplianceService) (draws : Draws) (actor : Actor)
    (command : SubmitOrderCommand) (now : Time) (idempotencyKey : Option String) : Session Order := do
  let (draft, compliant) ← draftOrder settings compliance draws actor command now
  addRow Tables.orders draft
  addRow Tables.orderTransitions ⟨draft.id, none, .submitted, some actor.principalId, "submitted", now⟩
  let order ← settleCompliance draft compliant actor now
  let _ ← recordAuditEvent settings draws (draws.uuid 1) actor.auditActor
    { action := "order.submit"
      targetType := "order"
      targetId := order.id.str
      outcome := .success
      afterState := some (orderSnapshot order)
      requestId := actor.requestId
      idempotencyKey := idempotencyKey }
    now
  return order

/-- What a draft carries over from the request and from the compliance check. -/
structure DraftOf (compliance : ComplianceService) (actor : Actor) (command : SubmitOrderCommand)
    (draft : Order) (compliant : Bool) : Prop where
  status : draft.status = .submitted
  submittedBy : draft.submittedBy = actor.principalId
  productCategory : draft.productCategory = command.productCategory
  evidence : ∃ tin outcome, compliance.check tin command.productCategory command.quantity = .ok outcome ∧
    draft.complianceEvidence = outcome.asEvidence ∧ outcome.compliant = compliant

/-- Drafting an order only reads. -/
theorem draftOrder_ok {settings : Settings} {compliance : ComplianceService} {draws : Draws} {actor : Actor}
    {command : SubmitOrderCommand} {now : Time} {draft : Order} {compliant : Bool} {db db' : Db}
    (h : draftOrder settings compliance draws actor command now db = .ok ((draft, compliant), db')) :
    DraftOf compliance actor command draft compliant ∧ db = db' := by
  simp only [draftOrder, currentTariff, Tx.bind_ok, Actor.requireRole_ok, Actor.requireCompany_ok,
    Tx.require_ok, fetch_ok, selectFirst_ok, Tx.orRefuse_ok, Tx.lift_ok, Tx.pure_ok] at h
  obtain ⟨-, db₁, ⟨-, rfl⟩, -, db₂, ⟨-, rfl⟩, -, db₃, ⟨-, rfl⟩, -, db₄, ⟨-, rfl⟩, company, db₅, ⟨-, rfl⟩, -,
    db₆, ⟨-, rfl⟩, tariff, db₇, ⟨-, db₈, ⟨-, rfl⟩, -, rfl⟩, unitPrice, db₉, ⟨-, rfl⟩, breakdown, db₁₀,
    ⟨-, rfl⟩, outcome, db₁₁, ⟨houtcome, rfl⟩, hdraft, rfl⟩ := h
  injection hdraft with hdraft hcompliant
  subst hdraft hcompliant
  exact ⟨⟨rfl, rfl, rfl, company.tin, outcome, houtcome, rfl, rfl⟩, rfl⟩

/-- A committed submission appends one new order with the status of its compliance outcome. -/
theorem submitOrder_ok {settings : Settings} {compliance : ComplianceService} {draws : Draws} {actor : Actor}
    {command : SubmitOrderCommand} {now : Time} {idempotencyKey : Option String} {order : Order} {db db' : Db}
    (h : submitOrder settings compliance draws actor command now idempotencyKey db = .ok (order, db')) :
    ∃ (draft : Order) (compliant : Bool) (O : Table orderSchema) (T : Table orderTransitionSchema)
      (A : Table auditEventSchema),
      DraftOf compliance actor command draft compliant ∧
      order = draft.withStatus (submissionStatus compliant) now ∧
      (∀ o ∈ db.orders.rows, o.id ≠ order.id) ∧
      O.rows = db.orders.rows ++ [order] ∧
      T.rows = db.orderTransitions.rows ++ submissionHistory order.id compliant actor now ∧
      Audited settings db.auditEvents.rows A.rows ∧
      db' = Tables.auditEvents.set A (Tables.orderTransitions.set T (Tables.orders.set O db)) := by
  simp only [submitOrder, Tx.bind_ok] at h
  obtain ⟨⟨draft, compliant⟩, db₁, hread, hrest⟩ := h
  obtain ⟨hdraft, rfl⟩ := draftOrder_ok hread
  simp only [insertRow_ok, Tx.pure_ok] at hrest
  obtain ⟨-, db₂, ⟨O₁, hO₁, rfl⟩, -, db₃, ⟨T₁, hT₁, rfl⟩, moved, db₄, hsettle, event, db₅, haudit, rfl,
    rfl⟩ := hrest
  obtain ⟨rfl, O, T, hO, hT, rfl⟩ := settleCompliance_ok hdraft.status hsettle
  obtain ⟨A, hA, rfl⟩ := recordAuditEvent_ok haudit
  have hfresh : ∀ o ∈ db.orders.rows, o.id ≠ draft.id := by
    intro o ho hid
    have hclash := Table.not_clash_of_append db.orders O₁ hO₁ o ho
    simp [orderSchema, hid] at hclash
  refine ⟨draft, compliant, O, T, A, hdraft, rfl, hfresh, ?_, ?_, hA, rfl⟩
  · rw [hO]
    change moveOrder _ _ now O₁.rows = _
    rw [hO₁]
    exact moveOrder_append_self hfresh
  · rw [hT]
    change T₁.rows ++ _ = _
    rw [hT₁, List.append_assoc]
    rfl

/-- A decision on an order at one level. -/
structure ApprovalCommand where
  orderId : Uuid
  level : ApprovalLevel
  decision : ApprovalDecision
  reason : String
  deriving DecidableEq, Repr

/-- The role that may decide at a level. -/
def levelRole : ApprovalLevel → Role
  | .analyst => .analyst
  | .supervisor => .supervisor

/-- The intent of an order whose payment is opened. -/
def newIntent (draws : Draws) (order : Order) (now : Time) : PaymentIntent where
  id := draws.uuid 0
  orderId := order.id
  reference := reference "PAY" now draws.choices
  amountMinor := order.totalMinor
  currency := order.currency
  status := .awaitingPayment
  createdAt := now
  settledAt := none

/-- Create the payment intent of an approved order and announce it. -/
def openPayment (draws : Draws) (order : Order) (actor : Actor) (now : Time) : Session Order := do
  let order ← transition order .approved (some actor.principalId) "all approvals recorded" now
  let order ← transition order .awaitingPayment (some actor.principalId) "payment intent created" now
  let intent := newIntent draws order now
  addRow Tables.paymentIntents intent
  let _ ← enqueue (.pending (draws.uuid 1) "order" order.id "order.awaiting_payment"
    ("order.awaiting_payment:" ++ order.id.str)
    [("order_id", .str order.id.str),
      ("payment_reference", .str intent.reference),
      ("amount_minor", .int intent.amountMinor),
      ("currency", .str intent.currency)]
    now)
  return order

/-- What follows from a recorded decision: the order, and whether its payment was opened. -/
def applyDecision (draws : Draws) (order : Order) (actor : Actor) (command : ApprovalCommand) (now : Time) :
    Session (Order × Bool) :=
  match command.decision with
  | .rejected => do
    let order ← transition order .rejected (some actor.principalId) command.reason now
    return (order, false)
  | .approved => do
    let approvals ← selectAll Tables.approvals fun a => a.orderId = order.id && a.decision = .approved
    let approvedLevels := approvals.map Approval.level
    if (requiredApprovals order.riskTier).all (· ∈ approvedLevels) then
      let order ← openPayment draws order actor now
      return (order, true)
    else
      return (order, false)

/-- The levels approved so far satisfy the order's risk tier. -/
def fullyApproved (approvals : List Approval) (order : Order) : Prop :=
  ∀ level ∈ requiredApprovals order.riskTier,
    ∃ a ∈ approvals, a.orderId = order.id ∧ a.decision = .approved ∧ a.level = level

/-- What a recorded decision does to its order: a rejection ends it, an approval that completes the
required levels opens its payment, any other approval leaves it as it is. -/
inductive DecisionEffect (draws : Draws) (order : Order) (actor : Actor) (command : ApprovalCommand)
    (now : Time) (db : Db) : Db → Prop
  | rejected (O : Table orderSchema) (T : Table orderTransitionSchema)
      (hdecision : command.decision = .rejected)
      (hO : O.rows = moveOrder order.id .rejected now db.orders.rows)
      (hT : T.rows = db.orderTransitions.rows ++
        [⟨order.id, some order.status, .rejected, some actor.principalId, command.reason, now⟩]) :
      DecisionEffect draws order actor command now db (Tables.orderTransitions.set T (Tables.orders.set O db))
  | recorded (hdecision : command.decision = .approved) (hopen : ¬fullyApproved db.approvals.rows order) :
      DecisionEffect draws order actor command now db db
  | opened (O : Table orderSchema) (T : Table orderTransitionSchema) (I : Table paymentIntentSchema)
      (M : Table outboxMessageSchema)
      (hdecision : command.decision = .approved)
      (hfull : fullyApproved db.approvals.rows order)
      (hO : O.rows = moveOrder order.id .awaitingPayment now db.orders.rows)
      (hT : T.rows = db.orderTransitions.rows ++
        [⟨order.id, some order.status, .approved, some actor.principalId, "all approvals recorded", now⟩,
          ⟨order.id, some .approved, .awaitingPayment, some actor.principalId, "payment intent created", now⟩])
      (hI : I.rows = db.paymentIntents.rows ++ [newIntent draws order now])
      (hM : OutboxGrows db.outboxMessages.rows M.rows)
      (hannounced : ∃ payload, Announced (draws.uuid 1) "order.awaiting_payment"
        ("order.awaiting_payment:" ++ order.id.str) payload db.outboxMessages.rows M.rows) :
      DecisionEffect draws order actor command now db
        (Tables.outboxMessages.set M (Tables.paymentIntents.set I
          (Tables.orderTransitions.set T (Tables.orders.set O db))))

/-- Opening a payment moves the order through approved and creates its intent. -/
theorem openPayment_ok {draws : Draws} {order opened : Order} {actor : Actor} {now : Time} {db db' : Db}
    (h : openPayment draws order actor now db = .ok (opened, db')) :
    ∃ (O : Table orderSchema) (T : Table orderTransitionSchema) (I : Table paymentIntentSchema)
      (M : Table outboxMessageSchema),
      O.rows = moveOrder order.id .awaitingPayment now db.orders.rows ∧
      T.rows = db.orderTransitions.rows ++
        [⟨order.id, some order.status, .approved, some actor.principalId, "all approvals recorded", now⟩,
          ⟨order.id, some .approved, .awaitingPayment, some actor.principalId, "payment intent created", now⟩] ∧
      I.rows = db.paymentIntents.rows ++ [newIntent draws order now] ∧
      (∃ payload, Announced (draws.uuid 1) "order.awaiting_payment" ("order.awaiting_payment:" ++ order.id.str)
        payload db.outboxMessages.rows M.rows) ∧
      db' = Tables.outboxMessages.set M (Tables.paymentIntents.set I
        (Tables.orderTransitions.set T (Tables.orders.set O db))) := by
  simp only [openPayment, Tx.bind_ok, insertRow_ok, Tx.pure_ok] at h
  obtain ⟨approved, db₁, happroved, awaiting, db₂, hawaiting, -, db₃, ⟨I, hI, rfl⟩, result, db₄, henqueue, -,
    rfl⟩ := h
  obtain ⟨-, rfl, O₁, T₁, hO₁, hT₁, rfl⟩ := transition_ok happroved
  obtain ⟨-, rfl, O, T, hO, hT, rfl⟩ := transition_ok hawaiting
  obtain ⟨M, hM, rfl⟩ := enqueue_ok henqueue
  refine ⟨O, T, I, M, ?_, ?_, hI, ⟨_, _, _, _, hM⟩, rfl⟩
  · rw [hO]
    change moveOrder order.id _ now O₁.rows = _
    rw [hO₁, moveOrder_moveOrder]
  · rw [hT]
    change T₁.rows ++ _ = _
    rw [hT₁, List.append_assoc]
    rfl

/-- The levels found in the table are complete exactly when the order is fully approved. -/
theorem approvedLevels_iff {approvals : List Approval} {order : Order} :
    (requiredApprovals order.riskTier).all (fun level => level ∈
        ((approvals.filter fun a => a.orderId = order.id && a.decision = .approved).map Approval.level)) = true ↔
      fullyApproved approvals order := by
  simp only [fullyApproved, List.all_eq_true, decide_eq_true_eq, List.mem_map, List.mem_filter,
    Bool.and_eq_true, and_assoc]

/-- A recorded decision has one of the three effects. -/
theorem applyDecision_ok {draws : Draws} {order : Order} {actor : Actor} {command : ApprovalCommand}
    {now : Time} {result : Order × Bool} {db db' : Db}
    (h : applyDecision draws order actor command now db = .ok (result, db')) :
    DecisionEffect draws order actor command now db db' := by
  cases hdecision : command.decision with
  | rejected =>
    simp only [applyDecision, hdecision, Tx.bind_ok, Tx.pure_ok] at h
    obtain ⟨moved, db₁, hmoved, -, rfl⟩ := h
    obtain ⟨-, -, O, T, hO, hT, rfl⟩ := transition_ok hmoved
    exact .rejected O T hdecision hO hT
  | approved =>
    simp only [applyDecision, hdecision, Tx.bind_ok, selectAll_ok] at h
    obtain ⟨approvals, db₁, ⟨rfl, rfl⟩, hrest⟩ := h
    split at hrest
    · rename_i hfull
      simp only [Tx.bind_ok, Tx.pure_ok] at hrest
      obtain ⟨opened, db₂, hopened, -, rfl⟩ := hrest
      obtain ⟨O, T, I, M, hO, hT, hI, ⟨payload, hM⟩, rfl⟩ := openPayment_ok hopened
      exact .opened O T I M hdecision (approvedLevels_iff.mp hfull) hO hT hI hM.grows ⟨payload, hM⟩
    · rename_i hopen
      obtain ⟨-, rfl⟩ := Tx.pure_ok.mp hrest
      exact .recorded hdecision fun hfull => hopen (approvedLevels_iff.mpr hfull)

/-- Record one approval decision on a locked order. -/
def decideApproval (settings : Settings) (draws : Draws) (actor : Actor) (command : ApprovalCommand)
    (now : Time) (idempotencyKey : Option String) : Session Order := do
  actor.requireRole [levelRole command.level]
  let order ← fetch Tables.orders (fun o => o.id = command.orderId) (.notFound "order not found")
  Tx.require (order.status = .awaitingApproval)
    (.illegalState s!"order in status {order.status.value} cannot be approved")
  Tx.require (order.submittedBy ≠ actor.principalId)
    (.forbidden "the submitter of an order may not approve it")
  let existing ← selectAll Tables.approvals fun a => a.orderId = order.id
  Tx.require (∀ a ∈ existing, a.level ≠ command.level)
    (.conflict s!"a {command.level.value} decision already exists for this order")
  Tx.require (∀ a ∈ existing, a.actorPrincipalId ≠ actor.principalId)
    (.forbidden "the same person may not provide two approval levels")
  addRow Tables.approvals
    ⟨order.id, command.level, command.decision, actor.principalId, command.reason, now⟩
  let (order, intentCreated) ← applyDecision draws order actor command now
  let _ ← recordAuditEvent settings draws (draws.uuid 2) actor.auditActor
    { action := "order.approval." ++ command.decision.value
      targetType := "order"
      targetId := order.id.str
      outcome := .success
      afterState := some (orderSnapshot order ++ [("payment_intent_created", .bool intentCreated)])
      requestId := actor.requestId
      idempotencyKey := idempotencyKey }
    now
  return order

/-- A committed decision was made by an eligible principal on an order that awaits approval, and
records exactly one approval. -/
theorem decideApproval_ok {settings : Settings} {draws : Draws} {actor : Actor} {command : ApprovalCommand}
    {now : Time} {idempotencyKey : Option String} {result : Order} {db db' : Db}
    (h : decideApproval settings draws actor command now idempotencyKey db = .ok (result, db')) :
    ∃ (order : Order) (P : Table approvalSchema) (db₁ : Db) (A : Table auditEventSchema),
      order ∈ db.orders.rows ∧ order.id = command.orderId ∧ order.status = .awaitingApproval ∧
      actor.role = levelRole command.level ∧ order.submittedBy ≠ actor.principalId ∧
      (∀ a ∈ db.approvals.rows, a.orderId = order.id →
        a.level ≠ command.level ∧ a.actorPrincipalId ≠ actor.principalId) ∧
      P.rows = db.approvals.rows ++
        [⟨order.id, command.level, command.decision, actor.principalId, command.reason, now⟩] ∧
      DecisionEffect draws order actor command now (Tables.approvals.set P db) db₁ ∧
      Audited settings db.auditEvents.rows A.rows ∧
      db' = Tables.auditEvents.set A db₁ := by
  simp only [decideApproval, Tx.bind_ok, Actor.requireRole_ok, fetch_ok, Tx.require_ok, selectAll_ok,
    insertRow_ok] at h
  obtain ⟨-, db₁, ⟨hrole, rfl⟩, order, db₂, ⟨hfetch, rfl⟩, -, db₃, ⟨hstatus, rfl⟩, -, db₄,
    ⟨hsubmitter, rfl⟩, existing, db₅, ⟨rfl, rfl⟩, -, db₆, ⟨hlevels, rfl⟩, -, db₇, ⟨hactors, rfl⟩, -, db₈,
    ⟨P, hP, rfl⟩, ⟨moved, created⟩, db₉, happly, hrest⟩ := h
  simp only [Tx.pure_ok] at hrest
  obtain ⟨event, db₁₀, haudit, -, rfl⟩ := hrest
  obtain ⟨A, hA, rfl⟩ := recordAuditEvent_ok haudit
  obtain ⟨hmem, hid⟩ := mem_of_filter_eq_singleton hfetch
  have heffect := applyDecision_ok happly
  have htrail : db₉.auditEvents = db.auditEvents := by cases heffect <;> rfl
  rw [htrail] at hA
  refine ⟨order, P, db₉, A, hmem, by simpa using hid, hstatus, List.mem_singleton.mp hrole, hsubmitter, ?_, hP,
    heffect, hA, rfl⟩
  intro a ha horder
  have hmem : a ∈ db.approvals.rows.filter fun a => a.orderId = order.id :=
    List.mem_filter.mpr ⟨ha, decide_eq_true horder⟩
  exact ⟨hlevels a hmem, hactors a hmem⟩

/-- The actor is an administrator or a requester of the order's company. -/
def Actor.mayCancel (actor : Actor) (order : Order) : Prop :=
  actor.role = .admin ∨ actor.role = .requester ∧ actor.companyId = some order.companyId

instance (actor : Actor) (order : Order) : Decidable (actor.mayCancel order) :=
  inferInstanceAs (Decidable (_ ∨ _ ∧ _))

/-- Refuse a canceller who is neither an administrator nor a requester of the order's company. -/
def requireCanceller (actor : Actor) (order : Order) : Session Unit :=
  if actor.role = .admin then
    return ()
  else do
    actor.requireRole [.requester]
    actor.requireCompany order.companyId

/-- The canceller is an administrator or a requester of the order's company. -/
@[simp] theorem requireCanceller_ok {actor : Actor} {order : Order} {u : Unit} {db db' : Db} :
    requireCanceller actor order db = .ok (u, db') ↔ actor.mayCancel order ∧ db = db' := by
  unfold requireCanceller Actor.mayCancel
  split
  · rename_i hadmin
    simp [hadmin]
  · rename_i hadmin
    simp [hadmin, Tx.bind_ok, and_assoc]

/-- Cancel a locked order. -/
def cancelOrder (settings : Settings) (draws : Draws) (actor : Actor) (orderId : Uuid) (reason : String)
    (now : Time) : Session Order := do
  let order ← fetch Tables.orders (fun o => o.id = orderId) (.notFound "order not found")
  requireCanceller actor order
  let order ← transition order .cancelled (some actor.principalId) reason now
  let _ ← recordAuditEvent settings draws (draws.uuid 0) actor.auditActor
    { action := "order.cancel"
      targetType := "order"
      targetId := order.id.str
      outcome := .success
      afterState := some (orderSnapshot order)
      requestId := actor.requestId }
    now
  return order

/-- A committed cancellation moves an order from a status that allows it. -/
theorem cancelOrder_ok {settings : Settings} {draws : Draws} {actor : Actor} {orderId : Uuid} {reason : String}
    {now : Time} {result : Order} {db db' : Db}
    (h : cancelOrder settings draws actor orderId reason now db = .ok (result, db')) :
    ∃ (order : Order) (O : Table orderSchema) (T : Table orderTransitionSchema) (A : Table auditEventSchema),
      order ∈ db.orders.rows ∧ order.id = orderId ∧ actor.mayCancel order ∧
      .cancelled ∈ orderTransitions order.status ∧
      O.rows = moveOrder order.id .cancelled now db.orders.rows ∧
      T.rows = db.orderTransitions.rows ++
        [⟨order.id, some order.status, .cancelled, some actor.principalId, reason, now⟩] ∧
      Audited settings db.auditEvents.rows A.rows ∧
      db' = Tables.auditEvents.set A (Tables.orderTransitions.set T (Tables.orders.set O db)) := by
  simp only [cancelOrder, Tx.bind_ok, fetch_ok, requireCanceller_ok, Tx.pure_ok] at h
  obtain ⟨order, db₁, ⟨hfetch, rfl⟩, -, db₂, ⟨hmay, rfl⟩, moved, db₃, hmoved, event, db₄, haudit, -, rfl⟩ := h
  obtain ⟨hlegal, -, O, T, hO, hT, rfl⟩ := transition_ok hmoved
  obtain ⟨A, hA, rfl⟩ := recordAuditEvent_ok haudit
  obtain ⟨hmem, hid⟩ := mem_of_filter_eq_singleton hfetch
  exact ⟨order, O, T, A, hmem, by simpa using hid, hmay, hlegal, hO, hT, hA, rfl⟩

end TaxStamp
