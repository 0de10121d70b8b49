import TaxStamp.Dispatch
import TaxStamp.Lifecycle
import TaxStamp.Outcomes
import TaxStamp.Reconciliation
import TaxStamp.Stocktake

/-!
# No paid order is dropped

Settling an order asks for its stamps in the same transaction, and completing its batch
asks for the anchoring. The message that asks for the stamps is recorded as delivered only
by a worker whose handler has run the issuance to its end, and by then the order is issued.
Until then the message stays unprocessed, whatever workers fail or die in between.

A message is passed over in silence when another one has its identifier, so the results are
about runs in which the identifiers drawn for messages are fresh, as those of random UUIDs
are.
-/

namespace TaxStamp

open Lib

/-- Keys with different beginnings are different. -/
theorem key_ne {first second : String} (n : ℕ) (hfirst : n ≤ first.toList.length) (hsecond : n ≤ second.toList.length)
    (hne : first.toList.take n ≠ second.toList.take n) (rest rest' : String) : first ++ rest ≠ second ++ rest' := by
  intro h
  have hchars := congrArg (fun text : String => text.toList.take n) h
  simp only [String.toList_append, List.take_append_of_le_length hfirst, List.take_append_of_le_length hsecond] at hchars
  exact hne hchars

/-- The dedupe key of the message that asks for the stamps of an order. -/
def issueKey (orderId : Uuid) : String := "order.issue_stamps:" ++ orderId.str

/-- Different orders have different keys. -/
theorem issueKey_injective : Function.Injective issueKey := by
  intro a b h
  unfold issueKey at h
  exact Uuid.str_injective ((String.append_right_inj _).mp h)

/-- The message asks for the stamps of an order. -/
structure OutboxMessage.Asks (m : OutboxMessage) (orderId : Uuid) : Prop where
  eventType : m.eventType = "order.issue_stamps"
  dedupeKey : m.dedupeKey = issueKey orderId
  payload : askedOrder m.payload = .ok orderId

/-- The message asks for something else. -/
structure OutboxMessage.AsksElse (m : OutboxMessage) : Prop where
  eventType : m.eventType ≠ "order.issue_stamps"
  dedupeKey : ∀ orderId, m.dedupeKey ≠ issueKey orderId

/-- What nothing changes about a recorded message. -/
structure OutboxMessage.SameLabel (m m' : OutboxMessage) : Prop where
  id : m'.id = m.id
  eventType : m'.eventType = m.eventType
  dedupeKey : m'.dedupeKey = m.dedupeKey
  payload : m'.payload = m.payload

/-- Labels are the same after one another. -/
theorem OutboxMessage.SameLabel.trans {a b c : OutboxMessage} (h : a.SameLabel b) (h' : b.SameLabel c) : a.SameLabel c :=
  ⟨h'.id.trans h.id, h'.eventType.trans h.eventType, h'.dedupeKey.trans h.dedupeKey, h'.payload.trans h.payload⟩

/-- A statement of a worker leaves the labels alone. -/
theorem Handled.sameLabel {settings : RelaySettings} {act : RelayAct} {m m' : OutboxMessage}
    (h : Handled settings act m m') : m.SameLabel m' := by
  cases h <;> exact ⟨rfl, rfl, rfl, rfl⟩

/-- The outbox has grown by messages that ask for something else than stamps. -/
def GrowsElse (rows rows' : List OutboxMessage) : Prop :=
  ∃ new, rows' = rows ++ new ∧ ∀ m ∈ new, m.AsksElse

/-- An outbox grows by nothing. -/
theorem GrowsElse.refl (rows : List OutboxMessage) : GrowsElse rows rows := ⟨[], by simp, by simp⟩

/-- A message of another kind under another key asks for something else. -/
theorem Announced.growsElse {messageId : Uuid} {eventType dedupeKey : String} {payload : JsonObject}
    {rows rows' : List OutboxMessage} (h : Announced messageId eventType dedupeKey payload rows rows')
    (htype : eventType ≠ "order.issue_stamps") (hkey : ∀ orderId, dedupeKey ≠ issueKey orderId) :
    GrowsElse rows rows' := by
  obtain ⟨aggregateType, aggregateId, availableAt, rfl | ⟨rfl, -⟩⟩ := h
  · refine ⟨_, rfl, fun m hm => ?_⟩
    rw [List.mem_singleton.mp hm]
    exact ⟨htype, hkey⟩
  · exact .refl _

/-- A message is recorded under its key when its identifier is fresh. -/
theorem Announced.recorded {messageId : Uuid} {eventType dedupeKey : String} {payload : JsonObject}
    {rows rows' : List OutboxMessage} (h : Announced messageId eventType dedupeKey payload rows rows')
    (hfresh : ∀ m ∈ rows, m.id ≠ messageId) : ∃ m ∈ rows', m.dedupeKey = dedupeKey := by
  obtain ⟨aggregateType, aggregateId, availableAt, rfl | ⟨rfl, row, hrow, hid | hkey⟩⟩ := h
  · exact ⟨_, List.mem_append_right _ (List.mem_singleton_self _), rfl⟩
  · exact absurd hid (hfresh row hrow)
  · exact ⟨row, hrow, hkey⟩

/-- Every message asks for the stamps of an order that has been paid, or for something else; every paid order whose
issuance is not complete has its message; and every issued order has asked for the anchoring of its batches. -/
structure Served (db : Db) : Prop where
  labelled : ∀ m ∈ db.outboxMessages.rows,
    (∃ o ∈ db.orders.rows, o.status.isPaid = true ∧ m.Asks o.id) ∨ m.AsksElse
  asked : ∀ o ∈ db.orders.rows, o.status = .paid ∨ o.status = .issuing →
    ∃ m ∈ db.outboxMessages.rows, m.dedupeKey = issueKey o.id ∧ m.processedAt = none
  anchored : ∀ o ∈ db.orders.rows, o.status = .issued → ∀ b ∈ db.stampBatches.rows, b.orderId = o.id →
    ∃ m ∈ db.outboxMessages.rows, m.dedupeKey = "batch.anchor:" ++ b.id.str

variable {db db' : Db}

/-- A message stays labelled while paid orders stay paid. -/
theorem Served.labelled_mono (h : Served db) (hpaid : ∀ o ∈ db.orders.rows, o.status.isPaid = true →
      ∃ o' ∈ db'.orders.rows, o'.id = o.id ∧ o'.status.isPaid = true) {m m' : OutboxMessage}
    (hm : m ∈ db.outboxMessages.rows) (hlabel : m.SameLabel m') :
    (∃ o ∈ db'.orders.rows, o.status.isPaid = true ∧ m'.Asks o.id) ∨ m'.AsksElse := by
  rcases h.labelled m hm with ⟨o, ho, hstatus, hasks⟩ | helse
  · obtain ⟨o', ho', hid, hstatus'⟩ := hpaid o ho hstatus
    refine .inl ⟨o', ho', hstatus', ?_, ?_, ?_⟩
    · rw [hlabel.eventType]
      exact hasks.eventType
    · rw [hlabel.dedupeKey, hid]
      exact hasks.dedupeKey
    · rw [hlabel.payload, hid]
      exact hasks.payload
  · refine .inr ⟨?_, ?_⟩
    · rw [hlabel.eventType]
      exact helse.eventType
    · rw [hlabel.dedupeKey]
      exact helse.dedupeKey

/-- A transaction that touches no paid order and no batch, and asks for no stamps, keeps every order served. -/
theorem Served.quiet (h : Served db)
    (hold : ∀ o' ∈ db'.orders.rows, o' ∈ db.orders.rows ∨ o'.status.isPaid = false)
    (hpaid : ∀ o ∈ db.orders.rows, o.status.isPaid = true → o ∈ db'.orders.rows)
    (hbatches : ∀ b' ∈ db'.stampBatches.rows, ∃ b ∈ db.stampBatches.rows, b.id = b'.id ∧ b.orderId = b'.orderId)
    (houtbox : GrowsElse db.outboxMessages.rows db'.outboxMessages.rows) : Served db' := by
  obtain ⟨new, hrows, hnew⟩ := houtbox
  have hkept : ∀ m ∈ db.outboxMessages.rows, m ∈ db'.outboxMessages.rows := by
    intro m hm
    rw [hrows]
    exact List.mem_append_left _ hm
  refine ⟨fun m hm => ?_, fun o ho hstatus => ?_, fun o ho hstatus b hb horder => ?_⟩
  · rw [hrows] at hm
    rcases List.mem_append.mp hm with hm | hm
    · exact h.labelled_mono (fun o ho hs => ⟨o, hpaid o ho hs, rfl, hs⟩) hm ⟨rfl, rfl, rfl, rfl⟩
    · exact .inr (hnew m hm)
  · rcases hold o ho with hin | hunpaid
    · obtain ⟨m, hm, hkey, hprocessed⟩ := h.asked o hin hstatus
      exact ⟨m, hkept m hm, hkey, hprocessed⟩
    · rcases hstatus with hs | hs <;> rw [hs] at hunpaid <;> cases hunpaid
  · rcases hold o ho with hin | hunpaid
    · obtain ⟨b', hb', hid, horder'⟩ := hbatches b hb
      obtain ⟨m, hm, hkey⟩ := h.anchored o hin hstatus b' hb' (horder'.trans horder)
      exact ⟨m, hkept m hm, by rw [hkey, hid]⟩
    · rw [hstatus] at hunpaid
      cases hunpaid

/-- Settling an order asks for its stamps. -/
theorem Served.settled (h : Served db) {order : Order} {now : Time} {messageId : Uuid} (horder : order ∈ db.orders.rows)
    (hawaiting : order.status = .awaitingPayment) (hO : db'.orders.rows = moveOrder order.id .paid now db.orders.rows)
    (hB : db'.stampBatches = db.stampBatches)
    (hannounced : Announced messageId "order.issue_stamps" ("order.issue_stamps:" ++ order.id.str)
      [("order_id", .str order.id.str), ("quantity", .int order.quantity)] db.outboxMessages.rows
      db'.outboxMessages.rows) (hfresh : ∀ m ∈ db.outboxMessages.rows, m.id ≠ messageId) : Served db' := by
  have hother : ∀ o ∈ db.orders.rows, o.status.isPaid = true → o.id ≠ order.id := by
    intro o ho hpaid hid
    rw [order_eq_of_id db ho horder hid, hawaiting] at hpaid
    cases hpaid
  obtain ⟨aggregateType, aggregateId, availableAt, henqueued⟩ := hannounced
  -- nothing has been asked about the order before
  have hrows : db'.outboxMessages.rows = db.outboxMessages.rows ++ [.pending messageId aggregateType aggregateId
      "order.issue_stamps" ("order.issue_stamps:" ++ order.id.str)
      [("order_id", .str order.id.str), ("quantity", .int order.quantity)] availableAt] := by
    rcases henqueued with hrows | ⟨-, row, hrow, hid | hkey⟩
    · exact hrows
    · exact absurd hid (hfresh row hrow)
    · rcases h.labelled row hrow with ⟨o, ho, hpaid, hasks⟩ | helse
      · exact absurd (issueKey_injective (hasks.dedupeKey.symm.trans hkey)) (hother o ho hpaid)
      · exact absurd hkey (helse.dedupeKey order.id)
  have hmoved : order.withStatus .paid now ∈ db'.orders.rows := by
    rw [hO]
    exact mem_moveOrder.mpr ⟨order, horder, .inl ⟨rfl, rfl⟩⟩
  refine ⟨fun m hm => ?_, fun o ho hstatus => ?_, fun o ho hstatus b hb hbatch => ?_⟩
  · rw [hrows] at hm
    rcases List.mem_append.mp hm with hm | hm
    · refine h.labelled_mono (fun o ho hpaid => ⟨o, ?_, rfl, hpaid⟩) hm ⟨rfl, rfl, rfl, rfl⟩
      rw [hO]
      exact mem_moveOrder.mpr ⟨o, ho, .inr ⟨hother o ho hpaid, rfl⟩⟩
    · rw [List.mem_singleton.mp hm]
      exact .inl ⟨_, hmoved, rfl, rfl, rfl, Uuid.parse_str order.id⟩
  · rw [hrows]
    rw [hO] at ho
    obtain ⟨old, hold, ⟨hid, rfl⟩ | ⟨-, rfl⟩⟩ := mem_moveOrder.mp ho
    · refine ⟨_, List.mem_append_right _ (List.mem_singleton_self _), ?_, rfl⟩
      rw [show (old.withStatus .paid now).id = order.id from hid]
      rfl
    · obtain ⟨m, hm, hkey, hprocessed⟩ := h.asked o hold hstatus
      exact ⟨m, List.mem_append_left _ hm, hkey, hprocessed⟩
  · rw [hO] at ho
    rw [hB] at hb
    obtain ⟨old, hold, ⟨-, rfl⟩ | ⟨-, rfl⟩⟩ := mem_moveOrder.mp ho
    · cases hstatus
    · obtain ⟨m, hm, hkey⟩ := h.anchored o hold hstatus b hb hbatch
      rw [hrows]
      exact ⟨m, List.mem_append_left _ hm, hkey⟩

/-- The anchoring of a batch is no request for stamps. -/
theorem AnchorAnnounced.growsElse {draws : Draws} {batchId : Uuid} {finished : Prop} {rows rows' : List OutboxMessage}
    (h : AnchorAnnounced draws batchId finished rows rows') : GrowsElse rows rows' := by
  rcases h with ⟨-, payload, hannounced⟩ | ⟨-, rfl⟩
  · exact hannounced.growsElse (by decide) fun orderId => key_ne 1 (by decide) (by decide) (by decide) _ _
  · exact .refl _

/-- A chunk keeps its order served, and asks for the anchoring when it completes the batch. -/
theorem Served.issued {settings : Settings} {draws : Draws} {orderId : Uuid} {chunkSize : ℤ} {now : Time} (h : Served db)
    (hstock : Stocktake db) (heffect : IssueEffect settings draws orderId chunkSize now db db')
    (hfresh : ∀ m ∈ db.outboxMessages.rows, m.id ≠ draws.uuid 1) : Served db' := by
  obtain ⟨order, batch, base, added, complete, f, O, T, B, C, S, M, A, horder, hid, hstatus, hbatch, hbase, hadded,
    hcount, hcomplete, hf, hO, hT, hB, hS, hM, hissued, hnew, hclaimed, hanchor, hA, hchunk⟩ := heffect
  obtain ⟨new, hrows, hnewElse⟩ := hanchor.growsElse
  have hkept : ∀ m ∈ db.outboxMessages.rows, m ∈ M.rows := by
    intro m hm
    rw [hrows]
    exact List.mem_append_left _ hm
  have hpaid : ∀ o ∈ db.orders.rows, o.status.isPaid = true → ∃ o' ∈ O.rows, o'.id = o.id ∧ o'.status.isPaid = true := by
    intro o ho hpaid
    have hids : o.id ∈ O.rows.map Order.id := by
      rw [ids_issuedOrders hO]
      exact List.mem_map_of_mem ho
    obtain ⟨o', ho', hsame⟩ := List.mem_map.mp hids
    refine ⟨o', ho', hsame, ?_⟩
    rcases mem_issuedOrders horder hO ho' with ⟨hold, -⟩ | ⟨-, -, hmoved⟩
    · rw [order_eq_of_id db hold ho hsame]
      exact hpaid
    · rw [hmoved, issuedStatus]
      split <;> rfl
  refine ⟨fun m hm => ?_, fun o ho hunissued => ?_, fun o ho hcompleted b hb hborder => ?_⟩
  · change m ∈ M.rows at hm
    rw [hrows] at hm
    rcases List.mem_append.mp hm with hm | hm
    · exact h.labelled_mono hpaid hm ⟨rfl, rfl, rfl, rfl⟩
    · exact .inr (hnewElse m hm)
  · rcases mem_issuedOrders horder hO ho with ⟨hold, -⟩ | ⟨hsame, -, hmoved⟩
    · obtain ⟨m, hm, hkey, hprocessed⟩ := h.asked o hold hunissued
      exact ⟨m, hkept m hm, hkey, hprocessed⟩
    · have hbefore : order.status = .paid ∨ order.status = .issuing := by
        rcases hstatus with hs | hs | hs
        · exact .inl hs
        · exact .inr hs
        · rw [hmoved, hs] at hunissued
          simp [issuedStatus] at hunissued
      obtain ⟨m, hm, hkey, hprocessed⟩ := h.asked order horder hbefore
      exact ⟨m, hkept m hm, by rw [hkey, hsame], hprocessed⟩
  · rcases mem_issuedOrders horder hO ho with ⟨hold, hother⟩ | ⟨hsame, -, hmoved⟩
    · have hbatches := Stocktake.batchesOf_issue_other hbase hf hB hbatch S hother
      have hmem : b ∈ db.stock.batchesOf o.id := by
        rw [← hbatches]
        exact List.mem_filter.mpr ⟨hb, decide_eq_true hborder⟩
      obtain ⟨m, hm, hkey⟩ := h.anchored o hold hcompleted b (List.mem_of_mem_filter hmem) hborder
      exact ⟨m, hkept m hm, hkey⟩
    · have hmem : b ∈ (⟨B, S⟩ : Stock).batchesOf order.id :=
        List.mem_filter.mpr ⟨hb, decide_eq_true (hborder.trans hsame)⟩
      rw [Stocktake.batchesOf_issue_self hbase hf hB hbatch S, List.mem_singleton] at hmem
      rw [hmem, hf.id]
      by_cases hbefore : order.status = .issued
      · -- an order that was issued before has its batch
        have hstocked := hstock.stocked order horder
        unfold Stock.Stocked at hstocked
        rw [hbefore] at hstocked
        obtain ⟨b₀, hinBatch, -⟩ := hstocked
        have hfilter : db.stampBatches.rows.filter (fun b => b.orderId = order.id) = [b₀] := hinBatch.batches
        rcases hbase with ⟨hold, -⟩ | ⟨hnone, -⟩
        · obtain ⟨m, hm, hkey⟩ := h.anchored order horder hbefore batch (mem_of_filter_eq_singleton hold).1 hbatch
          exact ⟨m, hkept m hm, hkey⟩
        · rw [hfilter] at hnone
          cases hnone
      · rcases hanchor with ⟨-, payload, hannounced⟩ | ⟨hunfinished, -⟩
        · exact hannounced.recorded hfresh
        · refine absurd ⟨?_, hbefore⟩ hunfinished
          rw [hmoved] at hcompleted
          simpa [issuedStatus, hbefore] using hcompleted

/-- A transaction that leaves orders and batches alone and asks for no stamps keeps every order served. -/
theorem Served.frame (h : Served db) (hO : db'.orders = db.orders) (hB : db'.stampBatches = db.stampBatches)
    (houtbox : GrowsElse db.outboxMessages.rows db'.outboxMessages.rows) : Served db' := by
  refine h.quiet (fun o ho => .inl ?_) (fun o ho _ => ?_) (fun b hb => ⟨b, ?_, rfl, rfl⟩) houtbox
  · rwa [hO] at ho
  · rwa [hO]
  · rwa [hB] at hb

/-- Moving an order that is not paid to another such status keeps every order served. -/
theorem Served.move (h : Served db) {order : Order} {status : OrderStatus} {now : Time} (horder : order ∈ db.orders.rows)
    (hunpaid : order.status.isPaid = false) (htarget : status.isPaid = false)
    (hO : db'.orders.rows = moveOrder order.id status now db.orders.rows) (hB : db'.stampBatches = db.stampBatches)
    (houtbox : GrowsElse db.outboxMessages.rows db'.outboxMessages.rows) : Served db' := by
  refine h.quiet (fun o ho => ?_) (fun o ho hpaid => ?_) (fun b hb => ⟨b, ?_, rfl, rfl⟩) houtbox
  · rw [hO] at ho
    obtain ⟨old, hold, ⟨-, rfl⟩ | ⟨-, rfl⟩⟩ := mem_moveOrder.mp ho
    · exact .inr htarget
    · exact .inl hold
  · rw [hO]
    refine mem_moveOrder.mpr ⟨o, ho, .inr ⟨fun hid => ?_, rfl⟩⟩
    rw [order_eq_of_id db ho horder hid, hunpaid] at hpaid
    cases hpaid
  · rwa [hB] at hb

/-- The identifier that a transaction draws for its message is not that of another message. -/
def Event.drawsFresh (db : Db) : Event → Prop
  | .ingestRemittance draws _ _ => ∀ m ∈ db.outboxMessages.rows, m.id ≠ draws.uuid 2
  | .issueChunk draws _ _ _ => ∀ m ∈ db.outboxMessages.rows, m.id ≠ draws.uuid 1
  | _ => True

/-- A decision moves no paid order and asks for no stamps. -/
theorem Served.decided {draws : Draws} {order : Order} {actor : Actor} {command : ApprovalCommand} {now : Time}
    (h : Served db) (horder : order ∈ db.orders.rows) (hstatus : order.status = .awaitingApproval)
    (heffect : DecisionEffect draws order actor command now db db') : Served db' := by
  have hunpaid : order.status.isPaid = false := by
    rw [hstatus]
    rfl
  cases heffect with
  | rejected O T hdecision hO hT => exact h.move horder hunpaid rfl hO rfl (.refl _)
  | recorded => exact h
  | opened O T I M hdecision hfull hO hT hI hM hannounced =>
    obtain ⟨payload, hannounced⟩ := hannounced
    refine h.move horder hunpaid rfl hO rfl (hannounced.growsElse (by decide) fun orderId => ?_)
    exact key_ne 7 (by decide) (by decide) (by decide) _ _

/-- A remittance asks for stamps exactly when it settles its order. -/
theorem Served.ingested {settings : Settings} {draws : Draws} {advice : RemittanceAdvice} {now : Time} (h : Served db)
    (heffect : IngestEffect settings draws advice now db db')
    (hfresh : ∀ m ∈ db.outboxMessages.rows, m.id ≠ draws.uuid 2) : Served db' := by
  cases heffect with
  | replayed => exact h
  | unknown => exact h.frame rfl rfl (.refl _)
  | mismatched intent payloadHash R J E M A hintent hstatus hR hJ hE hsupported hM hannounced =>
    obtain ⟨payload, hannounced⟩ := hannounced
    refine h.frame rfl rfl (hannounced.growsElse (by decide) fun orderId => ?_)
    exact key_ne 1 (by decide) (by decide) (by decide) _ _
  | settled intent order payloadHash R O T I J E M A hintent hstatus horder hid hawaiting hR hO hT hI hJ hE hsupported
      hM hannounced => exact h.settled horder hawaiting hO rfl hannounced hfresh

/-- What a service commits keeps every order served. -/
theorem Committed.served {s : Platform} {e : Event} (hcommitted : Committed settings s e db') (h : Served s.db)
    (hstock : Stocktake s.db) (hother : e.relays = false) (hfresh : e.drawsFresh s.db) : Served db' := by
  cases hcommitted with
  | unchanged => exact h
  | submitOrder hok =>
    obtain ⟨draft, compliant, O, T, A, -, rfl, -, hO, -, -, rfl⟩ := submitOrder_ok hok
    refine h.quiet (fun o ho => ?_) (fun o ho _ => ?_) (fun b hb => ⟨b, hb, rfl, rfl⟩) (.refl _)
    · change o ∈ O.rows at ho
      rw [hO, List.mem_append, List.mem_singleton] at ho
      refine ho.imp_right fun hnew => ?_
      rw [hnew]
      cases compliant <;> rfl
    · change o ∈ O.rows
      rw [hO]
      exact List.mem_append_left _ ho
  | decideApproval hok =>
    obtain ⟨order, P, db₁, A, horder, -, hstatus, -, -, -, -, heffect, -, rfl⟩ := decideApproval_ok hok
    have happroved : Served (Tables.approvals.set P s.db) := h.frame rfl rfl (.refl _)
    exact (happroved.decided horder hstatus heffect).frame rfl rfl (.refl _)
  | cancelOrder hok =>
    obtain ⟨order, O, T, A, horder, -, -, hlegal, hO, -, -, rfl⟩ := cancelOrder_ok hok
    refine h.move horder ?_ rfl hO rfl (.refl _)
    revert hlegal
    cases order.status <;> decide
  | ingestRemittance hok => exact h.ingested (ingestRemittance_ok hok) hfresh
  | issueChunk hok => exact h.issued hstock (issueOrderChunk_ok hok) hfresh
  | recordInspection hok =>
    cases recordInspection_ok hok with
    | inspected batch inspection g N S V B A hbatch hstatus hinspection hfirst hN hg hactive hS hB =>
      refine h.quiet (fun o ho => .inl ho) (fun o ho _ => ho) (fun b' hb' => ?_) (.refl _)
      change b' ∈ B.rows at hb'
      rw [hB] at hb'
      obtain ⟨b, hb, rfl⟩ := List.mem_map.mp hb'
      refine ⟨b, hb, ?_, ?_⟩ <;> split <;> rfl
  | activateStamps ha hok =>
    cases activateStamps_ok hok
    exact h.frame rfl rfl (.refl _)
  | voidStamps hok =>
    cases voidStamps_ok hok
    exact h.frame rfl rfl (.refl _)
  | expireDueStamps hok =>
    cases expireDueStamps_ok hok
    exact h.frame rfl rfl (.refl _)
  | createLedgerIntent hok =>
    cases createLedgerIntent_ok hok with
    | reused => exact h
    | created intent payment L M A hpayment hid hsettled hamount hcurrency hready hL hM hannounced =>
      obtain ⟨payload, hannounced⟩ := hannounced
      refine h.frame rfl rfl (hannounced.growsElse (by decide) fun orderId => ?_)
      exact key_ne 1 (by decide) (by decide) (by decide) _ _
  | ledgerWork work =>
    have hsame := work.sameCore settings s.db
    refine h.frame hsame.orders hsame.stampBatches ?_
    rw [work.outbox settings s.db]
    exact .refl _
  | recordAudit hok =>
    obtain ⟨A, -, rfl⟩ := recordAuditEvent_ok hok
    exact h.frame rfl rfl (.refl _)
  | claimBatch => cases hother
  | markProcessed => cases hother
  | markFailed => cases hother

/-- Every transaction of a service keeps every order served. -/
theorem Served.step (settings : Settings) (s : Platform) (e : Event) (h : Served s.db) (hstock : Stocktake s.db)
    (hother : e.relays = false) (hfresh : e.drawsFresh s.db) : Served (TaxStamp.step settings s e).db :=
  (step_committed settings s e).served h hstock hother hfresh

/-! ### Statements of workers -/

/-- An issued order stays as it is. -/
theorem Change.issued_kept {settings : Settings} {s : Platform} {e : Event} (h : Change settings s e db') {o : Order}
    (ho : o ∈ s.db.orders.rows) (hissued : o.status = .issued) : o ∈ db'.orders.rows := by
  obtain ⟨o', ho', hmoved⟩ := h.orderStep.persists ho
  rwa [← hmoved.eq_of_issued hissued]

/-- A statement of a worker leaves the core of the database alone. -/
theorem relayOnce_sameCore (settings : RelaySettings) (db : Db) (w : RelayWorker) (e : RelayWorkerEvent) :
    SameCore db ((relayOnce settings db w e).db db) := by
  have hmoved : ∀ phase, SameCore db ((RelayAct.moved phase).db db) := fun _ => .refl db
  unfold relayOnce
  split
  · split
    · rename_i messages db' hclaim
      obtain ⟨candidates, M, -, -, -, rfl⟩ := claimBatch_ok hclaim
      exact ⟨rfl, rfl, rfl, rfl, rfl, rfl, rfl, rfl, rfl, rfl, rfl, rfl⟩
    · exact hmoved _
  · split
    · rename_i db' hdeliver
      obtain ⟨db₁, heffect, hmark⟩ := deliver_ok hdeliver
      obtain ⟨M, -, rfl⟩ := markProcessed_ok hmark
      rcases heffect with rfl | ⟨record, event, haudit⟩
      · exact ⟨rfl, rfl, rfl, rfl, rfl, rfl, rfl, rfl, rfl, rfl, rfl, rfl⟩
      · obtain ⟨A, -, rfl⟩ := recordAuditEvent_ok haudit
        exact ⟨rfl, rfl, rfl, rfl, rfl, rfl, rfl, rfl, rfl, rfl, rfl, rfl⟩
    · exact hmoved _
  · exact hmoved _
  · split <;> exact hmoved _
  · split
    · rename_i dead db' hfailed
      obtain ⟨M, -, -, rfl⟩ := markFailed_ok hfailed
      exact ⟨rfl, rfl, rfl, rfl, rfl, rfl, rfl, rfl, rfl, rfl, rfl, rfl⟩
    · exact hmoved _
  · exact hmoved _
  · exact hmoved _

/-- A statement that commits a delivery is one. -/
theorem relayOnce_delivered {settings : RelaySettings} {w : RelayWorker} {e : RelayWorkerEvent} {message : OutboxMessage}
    {rest : List OutboxMessage} (h : relayOnce settings db w e = .delivered message rest db') :
    w.phase = .relaying (message :: rest) ∧ ∃ delivery error, e = .deliver delivery error ∧
      deliver settings delivery message db = .ok ((), db') := by
  unfold relayOnce at h
  split at h
  · split at h <;> cases h
  · rename_i delivery error hphase
    split at h
    · rename_i hdeliver
      cases h
      exact ⟨hphase, delivery, error, rfl, hdeliver⟩
    · cases h
  · cases h
  · split at h <;> cases h
  · split at h <;> cases h
  · cases h
  · cases h

/-- A delivery of an issue message has parsed its order, and what its handler does outside has succeeded. -/
theorem deliver_issue {settings : RelaySettings} {delivery : RelayDelivery} {message : OutboxMessage} {u : Unit}
    (h : deliver settings delivery message db = .ok (u, db')) :
    ∃ current ∈ db.outboxMessages.rows, current.id = message.id ∧ (current.eventType = "order.issue_stamps" →
      delivery.outside = .ok () ∧ ∃ orderId, askedOrder message.payload = .ok orderId) := by
  simp only [deliver, Tx.bind_ok, fetch_ok, Tx.lift_ok] at h
  obtain ⟨current, db₁, ⟨hfetch, rfl⟩, v, db₂, hhandle, -⟩ := h
  obtain ⟨hmem, hid⟩ := mem_of_filter_eq_singleton hfetch
  refine ⟨current, hmem, by simpa using hid, fun htype => ?_⟩
  rw [htype, handle, if_pos rfl] at hhandle
  simp only [handleIssueStamps, Tx.bind_ok, Tx.lift_ok] at hhandle
  obtain ⟨text, db₃, ⟨htext, rfl⟩, orderId, db₄, ⟨hparse, rfl⟩, houtside, -⟩ := hhandle
  refine ⟨houtside, orderId, ?_⟩
  rw [askedOrder, htext]
  exact hparse

/-! ### Runs -/

/-- The messages that a worker holds a copy of. -/
def RelayPhase.messages : RelayPhase → List OutboxMessage
  | .relaying claimed => claimed
  | .failing message _ rest | .recording message _ _ rest => message :: rest

/-- A worker gets its copies from a claim. -/
theorem relayOnce_messages (settings : RelaySettings) (db : Db) (w : RelayWorker) (e : RelayWorkerEvent) :
    ∀ c ∈ (relayOnce settings db w e).phase.messages,
      c ∈ w.phase.messages ∨ c ∈ ((relayOnce settings db w e).db db).outboxMessages.rows := by
  intro c hc
  unfold relayOnce at hc ⊢
  split at hc <;> rename_i hphase
  · split at hc <;> rename_i hclaim
    · obtain ⟨candidates, M, -, -, rfl, rfl⟩ := claimBatch_ok hclaim
      exact .inr (List.mem_of_mem_filter hc)
    · cases hc
  · split at hc
    · rw [hphase]
      exact .inl (List.mem_cons_of_mem _ hc)
    · rw [hphase]
      exact .inl hc
  · rw [hphase]
    exact .inl hc
  · split at hc
    · rw [hphase]
      exact .inl hc
    · cases hc
  · split at hc
    · rw [hphase]
      exact .inl (List.mem_cons_of_mem _ hc)
    · cases hc
  · cases hc
  · exact .inl hc

/-- A message keeps its label over every event. -/
theorem relayStep_sameLabel (settings : RelaySettings) (s : Relay) (e : RelayEvent) {m : OutboxMessage}
    (hm : m ∈ s.outbox) : ∃ m' ∈ (relayStep settings s e).outbox, m.SameLabel m' := by
  rcases relayStep_outbox settings s e with ⟨-, new, hrows, -⟩ | ⟨index, act, f, -, hrows, hhandled⟩
  · rw [hrows]
    exact ⟨m, List.mem_append_left _ hm, rfl, rfl, rfl, rfl⟩
  · rw [hrows]
    exact ⟨f m, List.mem_map_of_mem hm, (hhandled m hm).sameLabel⟩

/-- The copies that the workers hold say what the messages say. -/
def Relay.Copies (s : Relay) : Prop :=
  ∀ w ∈ s.workers, ∀ c ∈ w.phase.messages, ∃ m ∈ s.outbox, c.SameLabel m

/-- Every event keeps the copies faithful. -/
theorem Relay.Copies.step (settings : RelaySettings) (s : Relay) (e : RelayEvent) (h : s.Copies) :
    (relayStep settings s e).Copies := by
  have hold : ∀ w ∈ s.workers, ∀ c ∈ w.phase.messages, ∃ m ∈ (relayStep settings s e).outbox, c.SameLabel m := by
    intro w hw c hc
    obtain ⟨m, hm, hsame⟩ := h w hw c hc
    obtain ⟨m', hm', hsame'⟩ := relayStep_sameLabel settings s e hm
    exact ⟨m', hm', hsame.trans hsame'⟩
  intro w hw c hc
  cases e with
  | service e =>
    refine hold w ?_ c hc
    cases hrelays : e.relays <;> simpa [relayStep, hrelays] using hw
  | join workerId =>
    rcases List.mem_append.mp hw with hw | hw
    · exact hold w hw c hc
    · rw [List.mem_singleton.mp hw] at hc
      cases hc
  | worker index e =>
    cases hworker : s.workers[index]? with
    | none =>
      simp only [relayStep, hworker] at hw
      exact hold w hw c hc
    | some v =>
      simp only [relayStep, hworker] at hw
      rcases List.mem_or_eq_of_mem_set hw with hw | rfl
      · exact hold w hw c hc
      · rcases relayOnce_messages settings s.platform.db v e c hc with hmem | hmem
        · exact hold v (List.mem_of_getElem? hworker) c hmem
        · refine ⟨c, ?_, rfl, rfl, rfl, rfl⟩
          simp only [relayStep, hworker, Relay.outbox]
          exact hmem

/-- Every order is served, the copies of the workers say what the messages say, and a worker that has come to the end of
an issuance has issued its order. -/
structure Dispatch.Sound (s : Dispatch) : Prop where
  stocktake : Stocktake s.db
  served : Served s.db
  copies : ∀ w ∈ s.relay.workers, ∀ c ∈ w.phase.messages, ∃ m ∈ s.relay.outbox, c.SameLabel m
  finished : ∀ index, s.finished index = true →
    ∃ o ∈ s.db.orders.rows, s.relay.issuing index = some o.id ∧ o.status = .issued

/-- A worker goes on issuing the same order while others act. -/
theorem Relay.issuing_mono {s s' : Relay} {index : ℕ} {orderId : Uuid} (hworker : s'.workers[index]? = s.workers[index]?)
    (houtbox : ∀ m ∈ s.outbox, ∃ m' ∈ s'.outbox, m.SameLabel m') (h : s.issuing index = some orderId) :
    s'.issuing index = some orderId := by
  unfold Relay.issuing at h ⊢
  rw [hworker]
  split at h
  · rename_i message rest hphase
    split at h
    · rename_i hissue
      obtain ⟨m, hm, hlabel⟩ := List.any_eq_true.mp hissue
      obtain ⟨m', hm', hsame⟩ := houtbox m hm
      have hissue' : s'.outbox.any (fun m => m.id = message.id && m.eventType = "order.issue_stamps") = true := by
        refine List.any_eq_true.mpr ⟨m', hm', ?_⟩
        rw [hsame.id, hsame.eventType]
        exact hlabel
      rw [if_pos hissue']
      exact h
    · cases h
  · cases h

/-- Only a worker issues. -/
theorem Relay.issuing_lt {s : Relay} {index : ℕ} {orderId : Uuid} (h : s.issuing index = some orderId) :
    index < s.workers.length := by
  by_contra hout
  rw [Relay.issuing, List.getElem?_eq_none (not_lt.mp hout)] at h
  cases h

/-- The order of a chunk is there after it. -/
theorem issueOrderChunk_order {settings : Settings} {draws : Draws} {orderId : Uuid} {chunkSize : ℤ} {now : Time}
    {progress : IssuanceProgress} (h : issueOrderChunk settings draws orderId chunkSize now db = .ok (progress, db')) :
    ∃ o ∈ db'.orders.rows, o.id = orderId := by
  obtain ⟨order, batch, base, added, complete, f, O, T, B, C, S, M, A, horder, hid, hstatus, hbatch, hbase, hadded,
    hcount, hcomplete, hf, hO⟩ := issueOrderChunk_ok h
  have hmem : order.id ∈ O.rows.map Order.id := by
    rw [ids_issuedOrders hO]
    exact List.mem_map_of_mem horder
  obtain ⟨o, ho, hsame⟩ := List.mem_map.mp hmem
  exact ⟨o, ho, hsame.trans hid⟩

/-- A transaction of a service keeps the dispatch sound, provided that only an issued order is reported as finished. -/
theorem Dispatch.Sound.service {s : Dispatch} (h : s.Sound) (settings : Settings) (e : Event) (hother : e.relays = false)
    (hfresh : e.drawsFresh s.db) {finished : ℕ → Bool}
    (hfinished : ∀ index, finished index = true → s.finished index = true ∨
      ∃ o ∈ (step settings s.relay.platform e).db.orders.rows, s.relay.issuing index = some o.id ∧ o.status = .issued) :
    Dispatch.Sound ⟨{ s.relay with platform := step settings s.relay.platform e }, finished⟩ := by
  have hkept : ∀ m ∈ s.relay.outbox, ∃ m' ∈ (step settings s.relay.platform e).db.outboxMessages.rows, m.SameLabel m' := by
    obtain ⟨new, hrows, -⟩ := step_outboxGrows settings s.relay.platform e hother
    intro m hm
    refine ⟨m, ?_, rfl, rfl, rfl, rfl⟩
    rw [hrows]
    exact List.mem_append_left _ hm
  have hstays : ∀ {index orderId}, s.relay.issuing index = some orderId →
      Relay.issuing { s.relay with platform := step settings s.relay.platform e } index = some orderId :=
    fun hissuing => Relay.issuing_mono (s := s.relay) rfl hkept hissuing
  refine ⟨h.stocktake.step settings s.relay.platform e, h.served.step settings s.relay.platform e h.stocktake hother hfresh,
    fun w hw c hc => ?_, fun index hindex => ?_⟩
  · obtain ⟨m, hm, hlabel⟩ := h.copies w hw c hc
    obtain ⟨m', hm', hlabel'⟩ := hkept m hm
    exact ⟨m', hm', hlabel.trans hlabel'⟩
  · rcases hfinished index hindex with hbefore | ⟨o, ho, hissuing, hissued⟩
    · obtain ⟨o, ho, hissuing, hissued⟩ := h.finished index hbefore
      exact ⟨o, (step_change settings s.relay.platform e).issued_kept ho hissued, hstays hissuing, hissued⟩
    · exact ⟨o, ho, hstays hissuing, hissued⟩

/-- A message that a worker records as delivered asks for the stamps of no order, or of one that is issued. -/
theorem Dispatch.Sound.issued_of_delivered {s : Dispatch} (h : s.Sound) {settings : RelaySettings} {index : ℕ}
    {w : RelayWorker} {e : RelayWorkerEvent} {message m : OutboxMessage} {rest : List OutboxMessage}
    (hw : s.relay.workers[index]? = some w) (hmature : s.premature (.worker index e) = false)
    (hact : relayOnce settings s.db w e = .delivered message rest db') (hm : m ∈ s.relay.outbox) (hid : m.id = message.id)
    {o : Order} (ho : o ∈ s.db.orders.rows) (hkey : m.dedupeKey = issueKey o.id) : o.status = .issued := by
  obtain ⟨hphase, delivery, error, rfl, hdeliver⟩ := relayOnce_delivered hact
  obtain ⟨current, hcurrent, hcurrentId, hissue⟩ := deliver_issue hdeliver
  obtain rfl := message_eq_of_id s.db hm hcurrent (hid.trans hcurrentId.symm)
  rcases h.served.labelled m hm with ⟨o', ho', -, hasks⟩ | helse
  · obtain rfl := order_eq_of_id s.db ho ho' (issueKey_injective (hkey.symm.trans hasks.dedupeKey))
    obtain ⟨houtside, orderId, hparsed⟩ := hissue hasks.eventType
    -- the copy that the worker delivers is about the same order
    have hcopy : askedOrder message.payload = .ok o.id := by
      obtain ⟨m', hm', hlabel⟩ := h.copies w (List.mem_of_getElem? hw) message (by rw [hphase]; exact List.mem_cons_self)
      obtain rfl := message_eq_of_id s.db hm hm' (hid.trans hlabel.id.symm)
      rw [← hlabel.payload]
      exact hasks.payload
    have hissuing : s.relay.issuing index = some o.id := by
      have hany : s.relay.outbox.any (fun m => m.id = message.id && m.eventType = "order.issue_stamps") = true :=
        List.any_eq_true.mpr ⟨m, hm, by simp [hid, hasks.eventType]⟩
      unfold Relay.issuing
      rw [hw, Option.map_some, hphase]
      dsimp only
      rw [if_pos hany, hcopy]
      rfl
    have hfinished : s.finished index = true := by
      simp only [Dispatch.premature, hissuing, houtside, Option.isSome_some, Bool.true_and] at hmature
      simpa [Except.isOk, Except.toBool] using hmature
    obtain ⟨o', ho', hissuing', hissued⟩ := h.finished index hfinished
    rw [hissuing, Option.some_inj] at hissuing'
    rw [order_eq_of_id s.db ho ho' hissuing']
    exact hissued
  · exact absurd hkey (helse.dedupeKey o.id)

/-- Relabelled messages serve the orders, provided that no request for the stamps of an unissued order is recorded as
delivered. -/
theorem Served.handled (h : Served db) {f : OutboxMessage → OutboxMessage} (hcore : SameCore db db')
    (hrows : db'.outboxMessages.rows = db.outboxMessages.rows.map f)
    (hlabel : ∀ m ∈ db.outboxMessages.rows, m.SameLabel (f m))
    (hprocessed : ∀ m ∈ db.outboxMessages.rows, ∀ o ∈ db.orders.rows, o.status = .paid ∨ o.status = .issuing →
      m.dedupeKey = issueKey o.id → m.processedAt = none → (f m).processedAt = none) : Served db' := by
  have hmem : ∀ m ∈ db.outboxMessages.rows, f m ∈ db'.outboxMessages.rows := by
    intro m hm
    rw [hrows]
    exact List.mem_map_of_mem hm
  refine ⟨fun m' hm' => ?_, fun o ho hstatus => ?_, fun o ho hstatus b hb horder => ?_⟩
  · rw [hrows] at hm'
    obtain ⟨m, hm, rfl⟩ := List.mem_map.mp hm'
    refine h.labelled_mono (fun o ho hpaid => ⟨o, ?_, rfl, hpaid⟩) hm (hlabel m hm)
    rwa [hcore.orders]
  · rw [hcore.orders] at ho
    obtain ⟨m, hm, hkey, hunprocessed⟩ := h.asked o ho hstatus
    exact ⟨f m, hmem m hm, (hlabel m hm).dedupeKey.trans hkey, hprocessed m hm o ho hstatus hkey hunprocessed⟩
  · rw [hcore.orders] at ho
    rw [hcore.stampBatches] at hb
    obtain ⟨m, hm, hkey⟩ := h.anchored o ho hstatus b hb horder
    exact ⟨f m, hmem m hm, (hlabel m hm).dedupeKey.trans hkey⟩

/-- A statement of a worker keeps the dispatch sound. -/
theorem Dispatch.Sound.worker {s : Dispatch} (h : s.Sound) (settings : RelaySettings) {index : ℕ} {w : RelayWorker}
    {e : RelayWorkerEvent} (hw : s.relay.workers[index]? = some w) (hmature : s.premature (.worker index e) = false) :
    Dispatch.Sound ⟨relayStep settings s.relay (.worker index e), Function.update s.finished index false⟩ := by
  obtain ⟨f, hrows, hhandled⟩ := relayOnce_outbox settings s.db w e
  have hcore := relayOnce_sameCore settings s.db w e
  have hrelay : relayStep settings s.relay (.worker index e) =
      { platform := { s.relay.platform with db := (relayOnce settings s.db w e).db s.db }
        workers := s.relay.workers.set index ⟨w.workerId, (relayOnce settings s.db w e).phase⟩
        leases := (relayOnce settings s.db w e).leases index s.relay.leases } := by
    simp only [relayStep, hw]
    rfl
  have hcopies : (relayStep settings s.relay (.worker index e)).Copies := Relay.Copies.step settings s.relay _ h.copies
  rw [hrelay] at hcopies ⊢
  have hlabel : ∀ m ∈ s.relay.outbox, m.SameLabel (f m) := fun m hm => (hhandled m hm).sameLabel
  have hkept : ∀ m ∈ s.relay.outbox, ∃ m' ∈ ((relayOnce settings s.db w e).db s.db).outboxMessages.rows,
      m.SameLabel m' := by
    intro m hm
    refine ⟨f m, ?_, hlabel m hm⟩
    rw [hrows]
    exact List.mem_map_of_mem hm
  refine ⟨?_, ?_, fun w' hw' c hc => ?_, fun i hi => ?_⟩
  · exact h.stocktake.frame hcore.orders (congrArg₂ Stock.mk hcore.stampBatches hcore.stamps)
  · refine h.served.handled hcore hrows hlabel fun m hm o ho hstatus hkey hunprocessed => ?_
    have hm_handled := hhandled m hm
    generalize f m = m' at hm_handled
    cases hm_handled with
    | kept => exact hunprocessed
    | leased => exact hunprocessed
    | processed message rest db' now hact hid =>
      -- the order would be issued
      have hissued := h.issued_of_delivered hw hmature hact hm hid ho hkey
      rw [hissued] at hstatus
      rcases hstatus with hs | hs <;> cases hs
    | failed => exact hunprocessed
  · exact hcopies w' hw' c hc
  · change Function.update s.finished index false i = true at hi
    have hne : i ≠ index := by
      rintro rfl
      rw [Function.update_self] at hi
      cases hi
    rw [Function.update_of_ne hne] at hi
    obtain ⟨o, ho, hissuing, hissued⟩ := h.finished i hi
    refine ⟨o, ?_, Relay.issuing_mono (s := s.relay) ?_ hkept hissuing, hissued⟩
    · change o ∈ ((relayOnce settings s.db w e).db s.db).orders.rows
      rwa [hcore.orders]
    · exact List.getElem?_set_ne hne.symm

/-- The identifiers that an event draws for its messages are fresh. -/
def drawsFresh (s : Dispatch) : DispatchEvent → Prop
  | .relay (.service e) => e.drawsFresh s.db
  | .relay _ => True
  | .issue _ draws _ _ => ∀ m ∈ s.db.outboxMessages.rows, m.id ≠ draws.uuid 1

instance (db : Db) : (e : Event) → Decidable (e.drawsFresh db)
  | .ingestRemittance .. | .issueChunk .. => List.decidableBAll ..
  | .submitOrder .. | .decideApproval .. | .cancelOrder .. | .recordInspection .. | .readStatuses .. | .activateStamps ..
  | .voidStamps .. | .expireDueStamps .. | .createLedgerIntent .. | .ledgerWork .. | .recordAudit .. | .claimBatch ..
  | .markProcessed .. | .markFailed .. => instDecidableTrue

instance (s : Dispatch) : (e : DispatchEvent) → Decidable (drawsFresh s e)
  | .relay (.service e) => inferInstanceAs (Decidable (e.drawsFresh s.db))
  | .relay (.join _) | .relay (.worker ..) => instDecidableTrue
  | .issue .. => List.decidableBAll ..

/-- Every event with fresh identifiers keeps the dispatch sound. -/
theorem Dispatch.Sound.step (settings : RelaySettings) (s : Dispatch) (e : DispatchEvent) (h : s.Sound)
    (hfresh : drawsFresh s e) : (dispatchStep settings s e).Sound := by
  cases e with
  | relay e =>
    cases hpremature : s.premature e with
    | true =>
      rw [dispatchStep, if_pos hpremature]
      exact h
    | false =>
      rw [dispatchStep, hpremature, if_neg Bool.false_ne_true]
      cases e with
      | service e =>
        cases hrelays : e.relays with
        | true =>
          simp only [relayStep, hrelays, if_true]
          exact h
        | false =>
          simp only [relayStep, hrelays, Bool.false_eq_true, if_false]
          exact h.service settings.toSettings e hrelays hfresh fun _ hfinished => .inl hfinished
      | join workerId =>
        refine ⟨h.stocktake, h.served, fun w hw c hc => ?_, fun index hindex => ?_⟩
        · exact Relay.Copies.step settings s.relay (.join workerId) h.copies w hw c hc
        · obtain ⟨o, ho, hissuing, hissued⟩ := h.finished index hindex
          refine ⟨o, ho, Relay.issuing_mono (s := s.relay) ?_ (fun m hm => ⟨m, hm, rfl, rfl, rfl, rfl⟩) hissuing, hissued⟩
          exact List.getElem?_append_left (Relay.issuing_lt hissuing)
      | worker index e =>
        cases hw : s.relay.workers[index]? with
        | none =>
          simp only [relayStep, hw]
          refine ⟨h.stocktake, h.served, h.copies, fun i hi => h.finished i ?_⟩
          change Function.update s.finished index false i = true at hi
          by_cases hsame : i = index
          · rw [hsame, Function.update_self] at hi
            cases hi
          · rwa [Function.update_of_ne hsame] at hi
        | some w => exact h.worker settings hw hpremature
  | issue index draws chunkSize now =>
    unfold dispatchStep
    dsimp only
    split
    · exact h
    · rename_i orderId hissuing
      split
      · rename_i progress db' hchunk
        have hstep : TaxStamp.step settings.toSettings s.relay.platform (.issueChunk draws orderId chunkSize now) =
            { s.relay.platform with db := db' } := by
          change issueOrderChunk settings.toSettings draws orderId chunkSize now s.relay.platform.db = _ at hchunk
          simp only [TaxStamp.step, Tx.commit, hchunk]
        rw [← hstep]
        refine h.service settings.toSettings (.issueChunk draws orderId chunkSize now) rfl hfresh fun i hi => ?_
        · by_cases hsame : i = index
          · rw [hsame, Function.update_self] at hi
            obtain ⟨o, ho, hid⟩ := issueOrderChunk_order hchunk
            rw [hstep, hsame, hissuing]
            exact .inr ⟨o, ho, congrArg some hid.symm, issueOrderChunk_completed hchunk hi o ho hid⟩
          · rw [Function.update_of_ne hsame] at hi
            exact .inl hi
      · exact h

/-- No paid order is dropped: in every run whose messages get fresh identifiers, every order that is paid or issuing has
an unprocessed message that asks for its stamps, every issued order has a message that asks for the anchoring of its only
batch, and every message that is neither processed nor dead-lettered is due at all times after its next attempt and its
lease. -/
theorem no_paid_order_dropped (settings : RelaySettings) (companies : Table companySchema) (tariffs : Table tariffSchema)
    (events : List DispatchEvent)
    (hfresh : Along (dispatchStep settings) drawsFresh (.initial companies tariffs) events) :
    let db := (run (dispatchStep settings) (.initial companies tariffs) events).db
    (∀ o ∈ db.orders.rows, o.status = .paid ∨ o.status = .issuing →
      ∃ m ∈ db.outboxMessages.rows, m.dedupeKey = "order.issue_stamps:" ++ o.id.str ∧ m.processedAt = none) ∧
    (∀ o ∈ db.orders.rows, o.status = .issued → ∃ b, db.stock.batchesOf o.id = [b] ∧
      ∃ m ∈ db.outboxMessages.rows, m.dedupeKey = "batch.anchor:" ++ b.id.str) ∧
    ∀ m ∈ db.outboxMessages.rows, m.processedAt = none → m.deadLetteredAt = none →
      ∀ now, m.availableAt < now → (∀ until' ∈ m.lockedUntil, until' < now) → m.due now = true := by
  intro db
  have hsound : Dispatch.Sound (run (dispatchStep settings) (.initial companies tariffs) events) := by
    refine run_invariant_along Dispatch.Sound (fun s e h hfresh => h.step settings s e hfresh) _ ?_ events hfresh
    refine ⟨.initial companies tariffs, ⟨?_, ?_, ?_⟩, ?_, ?_⟩
    · exact fun _ hm => absurd hm List.not_mem_nil
    · exact fun _ ho => absurd ho List.not_mem_nil
    · exact fun _ ho => absurd ho List.not_mem_nil
    · exact fun _ hw => absurd hw List.not_mem_nil
    · exact fun _ hfinished => absurd hfinished Bool.false_ne_true
  refine ⟨hsound.served.asked, fun o ho hissued => ?_, fun m _ hprocessed hdead now havailable hlocked => ?_⟩
  · have hstocked := hsound.stocktake.stocked o ho
    unfold Stock.Stocked at hstocked
    rw [hissued] at hstocked
    obtain ⟨b, hinBatch, -⟩ := hstocked
    have hmem : b ∈ db.stock.batchesOf o.id := by
      rw [hinBatch.batches]
      exact List.mem_singleton_self b
    obtain ⟨hbatch, horder⟩ := List.mem_filter.mp hmem
    exact ⟨b, hinBatch.batches, hsound.served.anchored o ho hissued b hbatch (of_decide_eq_true horder)⟩
  · simp only [OutboxMessage.due, hprocessed, hdead, Option.isNone_none, Bool.true_and, Bool.and_eq_true, decide_eq_true_eq]
    refine ⟨le_of_lt havailable, ?_⟩
    rw [Option.all_eq_true]
    exact fun until' huntil => decide_eq_true (hlocked until' huntil)

/-- The sample order is paid, and a worker that has claimed its messages dies before it delivers the second of them. -/
def sampleDropped : List DispatchEvent :=
  (sampleAnnounced ++ [.service (sampleRemittance 3 "BANK-1" 1344), sampleClaim 0 0, sampleDeliver 0 5,
    .worker 0 .die]).map .relay

/-- The stamps are still asked for after the worker has died. -/
theorem no_paid_order_dropped_sample :
    let s := run (dispatchStep sampleRelaySettings) (.initial sampleCompanies sampleTariffs) sampleDropped
    Along (dispatchStep sampleRelaySettings) drawsFresh (.initial sampleCompanies sampleTariffs) sampleDropped ∧
      (∃ o ∈ s.db.orders.rows, o.status = .paid) ∧
      ∀ o ∈ s.db.orders.rows, o.status = .paid ∨ o.status = .issuing →
        ∃ m ∈ s.db.outboxMessages.rows, m.dedupeKey = "order.issue_stamps:" ++ o.id.str ∧ m.processedAt = none := by
  have hfacts : Along (dispatchStep sampleRelaySettings) drawsFresh (.initial sampleCompanies sampleTariffs)
        sampleDropped ∧
      ∃ o ∈ (run (dispatchStep sampleRelaySettings) (.initial sampleCompanies sampleTariffs)
        sampleDropped).db.orders.rows, o.status = .paid := by
    decide +kernel
  have hdropped := no_paid_order_dropped sampleRelaySettings sampleCompanies sampleTariffs sampleDropped hfacts.1
  exact ⟨hfacts.1, hfacts.2, hdropped.1⟩

end TaxStamp
