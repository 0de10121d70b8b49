import TaxStamp.System

/-!
# What a transaction does to the orders, the payment intents and the stamps

An order comes from a submission and is then moved along the table of its transitions; what
was ordered never changes.

Stamps come from issuance alone, which continues the serials of their category and year.
Afterwards a stamp is only marked: as active, expired or void, each mark with one entry in
its history. What was printed on it never changes.
-/

namespace TaxStamp

open Lib

/-! ### The orders -/

/-- The moves of one transaction: a transition of the table, or two in a row. -/
def OrderStatus.MovesTo (current target : OrderStatus) : Prop :=
  target ∈ orderTransitions current ∨ ∃ between ∈ orderTransitions current, target ∈ orderTransitions between

instance (current target : OrderStatus) : Decidable (current.MovesTo target) :=
  inferInstanceAs (Decidable (_ ∨ _))

/-- The event is a submission. -/
def Event.submits : Event → Prop
  | .submitOrder .. => True
  | _ => False

/-- The three things a transaction can do to the orders: leave them alone, add a submitted one, or move one of them. -/
inductive OrderStep (e : Event) (db db' : Db) : Prop
  | same (hO : db'.orders = db.orders)
  | added (order : Order) (hsubmits : e.submits) (hO : db'.orders.rows = db.orders.rows ++ [order])
  | moved (order : Order) (status : OrderStatus) (now : Time) (horder : order ∈ db.orders.rows)
      (hmay : order.status.MovesTo status) (hO : db'.orders.rows = moveOrder order.id status now db.orders.rows)

/-- A decision moves the order it decides on, if any. -/
theorem DecisionEffect.orderStep {draws : Draws} {order : Order} {actor : Actor} {command : ApprovalCommand}
    {now : Time} {db db' : Db} (e : Event) (h : DecisionEffect draws order actor command now db db')
    (horder : order ∈ db.orders.rows) (hstatus : order.status = .awaitingApproval) : OrderStep e db db' := by
  cases h with
  | rejected O T hdecision hO => exact .moved order .rejected now horder (by rw [hstatus]; decide) hO
  | recorded => exact .same rfl
  | opened O T I M hdecision hfull hO => exact .moved order .awaitingPayment now horder (by rw [hstatus]; decide) hO

/-- An ingestion moves an order whose payment it settles. -/
theorem IngestEffect.orderStep {settings : Settings} {draws : Draws} {advice : RemittanceAdvice} {now : Time}
    {db db' : Db} (e : Event) (h : IngestEffect settings draws advice now db db') : OrderStep e db db' := by
  cases h with
  | replayed => exact .same rfl
  | unknown => exact .same rfl
  | mismatched => exact .same rfl
  | settled intent order payloadHash R O T I J E M A hintent hstatus horder hid hawaiting hR hO =>
    exact .moved order .paid now horder (by rw [hawaiting]; decide) hO

/-- A chunk moves its order when it is the first or the last. -/
theorem IssueEffect.orderStep {settings : Settings} {draws : Draws} {orderId : Uuid} {chunkSize : ℤ} {now : Time}
    {db db' : Db} (e : Event) (h : IssueEffect settings draws orderId chunkSize now db db') : OrderStep e db db' := by
  obtain ⟨order, batch, base, added, complete, f, O, T, B, C, S, M, A, horder, hid, hstatus, hbatch, hbase, hadded,
    hcount, hcomplete, hf, hO⟩ := h
  split at hO
  · exact .same (Table.ext_rows hO)
  · rename_i hmoved
    refine .moved order _ now horder ?_ hO
    revert hmoved
    rcases hstatus with hs | hs | hs <;> rw [hs] <;> cases complete <;> decide

/-- Every transaction does one of the three. -/
theorem Change.orderStep {settings : Settings} {s : Platform} {e : Event} {db' : Db} (h : Change settings s e db') :
    OrderStep e s.db db' := by
  cases h with
  | sameCore _ _ hsame => exact .same hsame.orders
  | submitted compliance draws actor command now key draft compliant O T A hdraft hfresh hO => exact .added _ trivial hO
  | decided draws actor command now key order P db₁ A horder hid hstatus hrole hsubmitter hfirst hP heffect =>
    cases heffect.orderStep (.decideApproval draws actor command now key) horder hstatus with
    | same hO => exact .same hO
    | added order hsubmits hO => exact .added order hsubmits hO
    | moved order status now horder hmay hO => exact .moved order status now horder hmay hO
  | cancelled draws actor orderId reason now order O T A horder hid hmay hlegal hO =>
    exact .moved order .cancelled now horder (.inl hlegal) hO
  | ingested _ _ _ _ heffect => exact heffect.orderStep _
  | issued _ _ _ _ _ heffect => exact heffect.orderStep _
  | inspected _ _ _ _ _ heffect =>
    cases heffect
    exact .same rfl
  | activated _ _ _ _ _ _ _ _ heffect =>
    cases heffect
    exact .same rfl
  | retired _ _ heffect =>
    cases heffect
    exact .same rfl

/-- The three things a transaction can do to the payment intents: leave them alone, open one for an order that now
awaits its payment, or settle one. -/
inductive IntentStep (db db' : Db) : Prop
  | same (hI : db'.paymentIntents = db.paymentIntents)
  | opened (draws : Draws) (order : Order) (now : Time)
      (horder : order.withStatus .awaitingPayment now ∈ db'.orders.rows)
      (hI : db'.paymentIntents.rows = db.paymentIntents.rows ++ [newIntent draws order now])
  | settled (intent : PaymentIntent) (now : Time)
      (hI : db'.paymentIntents.rows = db.paymentIntents.rows.map fun i => if i.id = intent.id then i.settle now else i)

/-- Every transaction does one of the three. -/
theorem Change.intentStep {settings : Settings} {s : Platform} {e : Event} {db' : Db} (h : Change settings s e db') :
    IntentStep s.db db' := by
  cases h with
  | sameCore _ _ hsame => exact .same hsame.paymentIntents
  | submitted => exact .same rfl
  | decided draws actor command now key order P db₁ A horder hid hstatus hrole hsubmitter hfirst hP heffect =>
    cases heffect with
    | rejected => exact .same rfl
    | recorded => exact .same rfl
    | opened O T I M hdecision hfull hO hT hI =>
      refine .opened draws order now ?_ hI
      change _ ∈ O.rows
      rw [hO]
      exact mem_moveOrder.mpr ⟨order, horder, .inl ⟨rfl, rfl⟩⟩
  | cancelled => exact .same rfl
  | ingested draws advice now _ heffect =>
    cases heffect with
    | replayed => exact .same rfl
    | unknown => exact .same rfl
    | mismatched => exact .same rfl
    | settled intent order payloadHash R O T I J E M A hintent hstatus horder hid hawaiting hR hO hT hI =>
      exact .settled intent now hI
  | issued _ _ _ _ _ heffect =>
    cases heffect
    exact .same rfl
  | inspected _ _ _ _ _ heffect =>
    cases heffect
    exact .same rfl
  | activated _ _ _ _ _ _ _ _ heffect =>
    cases heffect
    exact .same rfl
  | retired _ _ heffect =>
    cases heffect
    exact .same rfl

/-- An order is left alone or gets another status. -/
def Order.Moved (o o' : Order) : Prop := o' = o ∨ ∃ status now, o.status.MovesTo status ∧ o' = o.withStatus status now

/-- No order disappears or changes more than its status. -/
theorem OrderStep.persists {e : Event} {db db' : Db} (h : OrderStep e db db') {o : Order} (ho : o ∈ db.orders.rows) :
    ∃ o' ∈ db'.orders.rows, o.Moved o' := by
  cases h with
  | same hO => exact ⟨o, by rwa [hO], .inl rfl⟩
  | added order hsubmits hO =>
    refine ⟨o, ?_, .inl rfl⟩
    rw [hO]
    exact List.mem_append_left _ ho
  | moved order status now horder hmay hO =>
    rw [hO]
    by_cases hid : o.id = order.id
    · obtain rfl : o = order := order_eq_of_id db ho horder hid
      exact ⟨o.withStatus status now, mem_moveOrder.mpr ⟨o, ho, .inl ⟨rfl, rfl⟩⟩, .inr ⟨status, now, hmay, rfl⟩⟩
    · exact ⟨o, mem_moveOrder.mpr ⟨o, ho, .inr ⟨hid, rfl⟩⟩, .inl rfl⟩

/-- Every order was there before, or it has just been submitted. -/
theorem OrderStep.origin {e : Event} {db db' : Db} (h : OrderStep e db db') {o' : Order} (ho' : o' ∈ db'.orders.rows) :
    e.submits ∨ ∃ o ∈ db.orders.rows, o.Moved o' := by
  cases h with
  | same hO => exact .inr ⟨o', by rwa [← hO], .inl rfl⟩
  | added order hsubmits hO => exact .inl hsubmits
  | moved order status now horder hmay hO =>
    rw [hO] at ho'
    obtain ⟨old, hold, ⟨hid, rfl⟩ | ⟨-, rfl⟩⟩ := mem_moveOrder.mp ho'
    · obtain rfl : old = order := order_eq_of_id db hold horder hid
      exact .inr ⟨old, hold, .inr ⟨status, now, hmay, rfl⟩⟩
    · exact .inr ⟨o', hold, .inl rfl⟩

namespace Order.Moved

variable {o o' : Order} (h : o.Moved o')
include h

/-- A moved order keeps its identifier. -/
theorem id : o'.id = o.id := by
  obtain rfl | ⟨status, now, -, rfl⟩ := h <;> rfl

/-- A moved order keeps its company. -/
theorem companyId : o'.companyId = o.companyId := by
  obtain rfl | ⟨status, now, -, rfl⟩ := h <;> rfl

/-- A moved order keeps its quantity. -/
theorem quantity : o'.quantity = o.quantity := by
  obtain rfl | ⟨status, now, -, rfl⟩ := h <;> rfl

/-- A moved order keeps its currency. -/
theorem currency : o'.currency = o.currency := by
  obtain rfl | ⟨status, now, -, rfl⟩ := h <;> rfl

/-- An issued order is left alone. -/
theorem eq_of_issued (hissued : o.status = .issued) : o' = o := by
  obtain rfl | ⟨status, now, hmoves, -⟩ := h
  · rfl
  · rw [hissued] at hmoves
    exact absurd hmoves (by cases status <;> decide)

end Order.Moved

/-! ### The stamps -/

/-- The columns of a stamp that are printed once. -/
structure Stamp.SamePrint (s s' : Stamp) : Prop where
  id : s'.id = s.id
  serial : s'.serial = s.serial
  productCategory : s'.productCategory = s.productCategory
  secureCodeHash : s'.secureCodeHash = s.secureCodeHash
  issuedAt : s'.issuedAt = s.issuedAt
  expiresAt : s'.expiresAt = s.expiresAt

/-- A stamp is printed like itself. -/
theorem Stamp.SamePrint.refl (s : Stamp) : s.SamePrint s := ⟨rfl, rfl, rfl, rfl, rfl, rfl⟩

/-- Stamps printed like each other in turn are printed alike. -/
theorem Stamp.SamePrint.trans {s s' s'' : Stamp} (h : s.SamePrint s') (h' : s'.SamePrint s'') : s.SamePrint s'' :=
  ⟨h'.id.trans h.id, h'.serial.trans h.serial, h'.productCategory.trans h.productCategory,
    h'.secureCodeHash.trans h.secureCodeHash, h'.issuedAt.trans h.issuedAt, h'.expiresAt.trans h.expiresAt⟩

/-- A mark leaves what is printed. -/
theorem Marking.samePrint {now : Time} {f : Stamp → Stamp} {kind : StampEventType} {eligible : Stamp → Prop}
    (h : Marking now f kind eligible) (s : Stamp) : s.SamePrint (f s) := by
  cases h <;> exact ⟨rfl, rfl, rfl, rfl, rfl, rfl⟩

/-- The three things a transaction can do to the stamps: leave them alone, mark eligible ones, or print new ones. -/
inductive StampStep (settings : Settings) (db db' : Db) : Prop
  | same (hS : db'.stamps = db.stamps) (hV : db'.stampEvents = db.stampEvents)
      (hC : db'.serialCounters = db.serialCounters)
  | marked (now : Time) (p : Stamp → Bool) (f : Stamp → Stamp) (kind : StampEventType) (eligible : Stamp → Prop)
      (hmarking : Marking now f kind eligible) (heligible : ∀ s ∈ db.stamps.rows, p s = true → eligible s)
      (hmarks : Marks db p f kind db'.stamps db'.stampEvents) (hC : db'.serialCounters = db.serialCounters)
  | printed (order : Order) (batchId : Uuid) (now : Time) (added : List Stamp)
      (hS : db'.stamps.rows = db.stamps.rows ++ added) (hV : db'.stampEvents = db.stampEvents)
      (hclaimed : SerialsClaimed settings order batchId now added db.serialCounters.rows db'.serialCounters.rows)

/-- A change of stamps marks them. -/
theorem StampEffect.stampStep {settings : Settings} {may : Stamp → Prop} {db db' : Db}
    (h : StampEffect settings may db db') : StampStep settings db db' := by
  cases h with
  | changed g S V A hg hactive hS hmarks hA =>
    obtain ⟨now, p, f, kind, eligible, hmarking, heligible, hmarked⟩ := hmarks
    exact .marked now p f kind eligible hmarking heligible hmarked rfl

/-- An inspection marks the defectives as void. -/
theorem InspectEffect.stampStep {settings : Settings} {now : Time} {db db' : Db}
    (h : InspectEffect settings now db db') : StampStep settings db db' := by
  cases h with
  | inspected batch inspection g N S V B A hbatch hstatus hinspection hfirst hN hg hactive hS hB hmarks hA =>
    refine .marked now _ _ _ _ .voided (fun s _ hs => ?_) hmarks rfl
    unfold defective at hs
    rw [Bool.and_eq_true] at hs
    exact of_decide_eq_true hs.2

/-- Every transaction does one of the three. -/
theorem Change.stampStep {settings : Settings} {s : Platform} {e : Event} {db' : Db} (h : Change settings s e db') :
    StampStep settings s.db db' := by
  cases h with
  | sameCore _ _ hsame => exact .same hsame.stamps hsame.stampEvents hsame.serialCounters
  | submitted => exact .same rfl rfl rfl
  | decided draws actor command now key order P db₁ A horder hid hstatus hrole hsubmitter hfirst hP heffect =>
    cases heffect <;> exact .same rfl rfl rfl
  | cancelled => exact .same rfl rfl rfl
  | ingested _ _ _ _ heffect => cases heffect <;> exact .same rfl rfl rfl
  | issued draws orderId chunkSize now db' heffect =>
    cases heffect with
    | chunk order batch base added complete f O T B C S M A horder hid hstatus hbatch hbase hadded hcount hcomplete
        hf hO hT hB hS hM hissued hfresh hclaimed =>
      exact .printed order batch.id now added hS rfl hclaimed
  | inspected _ _ _ _ _ heffect => exact heffect.stampStep
  | activated _ _ _ _ _ _ _ _ heffect => exact heffect.stampStep
  | retired _ _ heffect => exact heffect.stampStep

/-- Every stamp is left alone or marked. -/
def Relabelled (t t' : Stamp) : Prop := t' = t ∨ ∃ now f kind eligible, Marking now f kind eligible ∧ t' = f t

/-- The stamps after marks are the old ones, each left alone or marked. -/
theorem Marks.relabels {db : Db} {now : Time} {p : Stamp → Bool} {f : Stamp → Stamp} {kind : StampEventType}
    {eligible : Stamp → Prop} {S : Table stampSchema} {V : Table stampEventSchema} (h : Marks db p f kind S V)
    (hmarking : Marking now f kind eligible) :
    ∃ g : Stamp → Stamp, S.rows = db.stamps.rows.map g ∧ ∀ s, Relabelled s (g s) := by
  refine ⟨_, h.stamps, fun s => ?_⟩
  split
  · exact .inr ⟨now, f, kind, eligible, hmarking, rfl⟩
  · exact .inl rfl

/-- A chunk prints stamps; every other transaction leaves each stamp alone or marks it. -/
theorem Change.relabels {settings : Settings} {s : Platform} {e : Event} {db' : Db} (h : Change settings s e db') :
    (∃ draws orderId chunkSize now, e = .issueChunk draws orderId chunkSize now ∧
        IssueEffect settings draws orderId chunkSize now s.db db') ∨
      ∃ g : Stamp → Stamp, db'.stamps.rows = s.db.stamps.rows.map g ∧ ∀ t, Relabelled t (g t) := by
  have hsame : ∃ g : Stamp → Stamp, s.db.stamps.rows = s.db.stamps.rows.map g ∧ ∀ t, Relabelled t (g t) :=
    ⟨id, (List.map_id _).symm, fun _ => .inl rfl⟩
  have hchanged : ∀ {may : Stamp → Prop}, StampEffect settings may s.db db' →
      ∃ g : Stamp → Stamp, db'.stamps.rows = s.db.stamps.rows.map g ∧ ∀ t, Relabelled t (g t) := by
    intro may heffect
    cases heffect with
    | changed g S V A hg hactive hS hmarks hA =>
      obtain ⟨now, p, f, kind, eligible, hmarking, -, hmarks⟩ := hmarks
      exact hmarks.relabels hmarking
  cases h with
  | sameCore _ _ hcore =>
    rw [hcore.stamps]
    exact .inr hsame
  | submitted => exact .inr hsame
  | decided draws actor command now key order P db₁ A horder hid hstatus hrole hsubmitter hfirst hP heffect =>
    cases heffect <;> exact .inr hsame
  | cancelled => exact .inr hsame
  | ingested draws advice now db' heffect => cases heffect <;> exact .inr hsame
  | issued draws orderId chunkSize now db' heffect => exact .inl ⟨draws, orderId, chunkSize, now, rfl, heffect⟩
  | inspected _ _ _ _ _ heffect =>
    cases heffect with
    | inspected batch inspection g N S V B A hbatch hstatus hinspection hfirst hN hg hactive hS hB hmarks hA =>
      exact .inr (hmarks.relabels .voided)
  | activated _ _ _ _ _ _ _ _ heffect => exact .inr (hchanged heffect)
  | retired _ _ heffect => exact .inr (hchanged heffect)

/-- A stamp left alone or marked is printed as it was. -/
theorem Relabelled.samePrint {t t' : Stamp} (h : Relabelled t t') : t.SamePrint t' := by
  obtain rfl | ⟨now, f, kind, eligible, hmarking, rfl⟩ := h
  · exact .refl t'
  · exact hmarking.samePrint t

/-- The stamps after marks: each is an old one with the same print. -/
theorem Marks.samePrint {db : Db} {now : Time} {p : Stamp → Bool} {f : Stamp → Stamp} {kind : StampEventType}
    {eligible : Stamp → Prop} {S : Table stampSchema} {V : Table stampEventSchema} (h : Marks db p f kind S V)
    (hmarking : Marking now f kind eligible) :
    ∃ g : Stamp → Stamp, S.rows = db.stamps.rows.map g ∧ ∀ s : Stamp, s.SamePrint (g s) := by
  obtain ⟨g, hg, hrelabelled⟩ := h.relabels hmarking
  exact ⟨g, hg, fun s => (hrelabelled s).samePrint⟩

/-- Only issuance inserts stamps. -/
theorem Change.inserts {settings : Settings} {s : Platform} {e : Event} {db' : Db} (h : Change settings s e db') :
    (∃ draws orderId chunkSize now, e = .issueChunk draws orderId chunkSize now) ∨
      ∀ t' ∈ db'.stamps.rows, ∃ t ∈ s.db.stamps.rows, t.SamePrint t' := by
  obtain ⟨draws, orderId, chunkSize, now, he, -⟩ | ⟨g, hg, hrelabel⟩ := h.relabels
  · exact .inl ⟨draws, orderId, chunkSize, now, he⟩
  · refine .inr fun t' ht' => ?_
    rw [hg] at ht'
    obtain ⟨t, ht, rfl⟩ := List.mem_map.mp ht'
    exact ⟨t, ht, (hrelabel t).samePrint⟩

variable {settings : Settings} {db db' : Db}

/-- No stamp disappears. -/
theorem StampStep.persists (h : StampStep settings db db') {s : Stamp} (hs : s ∈ db.stamps.rows) :
    ∃ s' ∈ db'.stamps.rows, s.SamePrint s' := by
  cases h with
  | same hS hV hC => exact ⟨s, by rwa [hS], .refl s⟩
  | marked now p f kind eligible hmarking heligible hmarks hC =>
    obtain ⟨g, hg, hprint⟩ := hmarks.samePrint hmarking
    refine ⟨g s, ?_, hprint s⟩
    rw [hg]
    exact List.mem_map_of_mem hs
  | printed order batchId now added hS hV hclaimed =>
    refine ⟨s, ?_, .refl s⟩
    rw [hS]
    exact List.mem_append_left _ hs

/-- A stamp that was not there before has just been printed with a formatted serial. -/
theorem StampStep.origin (h : StampStep settings db db') {s' : Stamp} (hs' : s' ∈ db'.stamps.rows) :
    (∃ s ∈ db.stamps.rows, s.SamePrint s') ∨
      ∃ order batchId now sequence, Printed settings order batchId now s' ∧
        formatSerial order.productCategory (Time.year now) sequence = .ok s'.serial := by
  cases h with
  | same hS hV hC =>
    rw [hS] at hs'
    exact .inl ⟨s', hs', .refl s'⟩
  | marked now p f kind eligible hmarking heligible hmarks hC =>
    obtain ⟨g, hg, hprint⟩ := hmarks.samePrint hmarking
    rw [hg] at hs'
    obtain ⟨s, hs, rfl⟩ := List.mem_map.mp hs'
    exact .inl ⟨s, hs, hprint s⟩
  | printed order batchId now added hS hV hclaimed =>
    rw [hS] at hs'
    rcases List.mem_append.mp hs' with hold | hnew
    · exact .inl ⟨s', hold, .refl s'⟩
    · have hserial : .ok s'.serial ∈ Stamp.serials added := List.mem_map_of_mem hnew
      rw [hclaimed.serials] at hserial
      obtain ⟨i, -, hformat⟩ := List.mem_map.mp hserial
      exact .inr ⟨order, batchId, now, _, hclaimed.printed s' hnew, hformat⟩

/-- The events of stamps only grow. -/
theorem StampStep.eventsGrow (h : StampStep settings db db') :
    ∃ new, db'.stampEvents.rows = db.stampEvents.rows ++ new := by
  cases h with
  | same hS hV hC => exact ⟨[], by rw [hV, List.append_nil]⟩
  | marked now p f kind eligible hmarking heligible hmarks hC =>
    obtain ⟨new, hV, -⟩ := hmarks.events
    exact ⟨new, hV⟩
  | printed order batchId now added hS hV hclaimed => exact ⟨[], by rw [hV, List.append_nil]⟩

end TaxStamp
