import TaxStamp.System

/-!
# Orders, payment intents, receipts and journals

The payment side of the database is spread over four tables that no single service checks
against each other: approval creates the intent, ingestion writes the receipt, settles the
intent and posts the journal. The dossier of an order says what these tables hold about
it, depending on its status alone, and every transaction keeps all dossiers in order.
-/

namespace TaxStamp

open Lib

/-- The tables that record payments. -/
structure Accounts where
  intents : Table paymentIntentSchema
  receipts : Table paymentReceiptSchema
  journals : Table journalSchema
  entries : Table ledgerEntrySchema

/-- The payment tables of a database. -/
def Db.accounts (db : Db) : Accounts := ⟨db.paymentIntents, db.paymentReceipts, db.journals, db.ledgerEntries⟩

namespace Accounts

variable (a : Accounts)

/-- The payment intents of an order. -/
def intentsOf (orderId : Uuid) : List PaymentIntent := a.intents.rows.filter fun i => i.orderId = orderId

/-- The exact receipts of a payment intent. -/
def matchedReceiptsOf (intentId : Uuid) : List PaymentReceipt :=
  a.receipts.rows.filter fun r => r.paymentIntentId = some intentId ∧ r.status = .matched

/-- The duty settlement journals that refer to an order. -/
def settlementsOf (orderId : Uuid) : List Journal :=
  a.journals.rows.filter fun j => j.kind = .dutySettlement ∧ j.orderId = some orderId

/-- The entries of a journal. -/
def entriesOf (journalId : Uuid) : List LedgerEntry :=
  a.entries.rows.filter fun e => e.journalId = journalId

/-- Nothing is recorded about the payment of the order. -/
structure Unopened (o : Order) : Prop where
  intents : a.intentsOf o.id = []
  journals : a.settlementsOf o.id = []

/-- The order has one open intent over its total and no settlement. -/
structure Awaiting (o : Order) (i : PaymentIntent) : Prop where
  intents : a.intentsOf o.id = [i]
  status : i.status = .awaitingPayment
  amount : i.amountMinor = o.totalMinor
  currency : i.currency = o.currency
  receipts : a.matchedReceiptsOf i.id = []
  journals : a.settlementsOf o.id = []

/-- The order has one settled intent, one exact receipt of it, and one settlement journal whose
entries are the order's own amounts. -/
structure Settled (o : Order) (i : PaymentIntent) (r : PaymentReceipt) (j : Journal) : Prop where
  intents : a.intentsOf o.id = [i]
  status : i.status = .settled
  receipts : a.matchedReceiptsOf i.id = [r]
  amount : r.amountMinor = o.totalMinor
  currency : r.currency = o.currency
  journals : a.settlementsOf o.id = [j]
  entries : a.entriesOf j.id = settlementEntries o j.id j.createdAt

/-- What the payment tables hold about an order, by its status. -/
def Dossier (o : Order) : Prop :=
  match o.status with
  | .paid | .issuing | .issued => ∃ i r j, a.Settled o i r j
  | .awaitingPayment => ∃ i, a.Awaiting o i
  | .cancelled => a.Unopened o ∨ ∃ i, a.Awaiting o i
  | _ => a.Unopened o

/-- Every reference between the payment tables and to the orders leads to a row. -/
structure Closed (orderIds : List Uuid) : Prop where
  intents : ∀ i ∈ a.intents.rows, i.orderId ∈ orderIds
  receipts : ∀ r ∈ a.receipts.rows, ∀ id, r.paymentIntentId = some id → id ∈ a.intents.rows.map PaymentIntent.id
  journalOrders : ∀ j ∈ a.journals.rows, ∀ id, j.orderId = some id → id ∈ orderIds
  journalReceipts : ∀ j ∈ a.journals.rows, ∀ id, j.paymentReceiptId = some id →
    id ∈ a.receipts.rows.map PaymentReceipt.id
  entries : ∀ e ∈ a.entries.rows, e.journalId ∈ a.journals.rows.map Journal.id

variable {a}

/-- More orders close no reference off. -/
theorem Closed.mono {orderIds orderIds' : List Uuid} (h : a.Closed orderIds) (hsub : orderIds ⊆ orderIds') :
    a.Closed orderIds' where
  intents i hi := hsub (h.intents i hi)
  receipts := h.receipts
  journalOrders j hj id hid := hsub (h.journalOrders j hj id hid)
  journalReceipts := h.journalReceipts
  entries := h.entries

/-- A settled dossier does not depend on the order's status. -/
theorem Settled.withStatus {o : Order} {i : PaymentIntent} {r : PaymentReceipt} {j : Journal}
    (h : a.Settled o i r j) (status : OrderStatus) (now : Time) :
    a.Settled (o.withStatus status now) i r j where
  intents := h.intents
  status := h.status
  receipts := h.receipts
  amount := h.amount
  currency := h.currency
  journals := h.journals
  entries := h.entries

/-- An awaiting dossier does not depend on the order's status. -/
theorem Awaiting.withStatus {o : Order} {i : PaymentIntent} (h : a.Awaiting o i) (status : OrderStatus)
    (now : Time) : a.Awaiting (o.withStatus status now) i where
  intents := h.intents
  status := h.status
  amount := h.amount
  currency := h.currency
  receipts := h.receipts
  journals := h.journals

/-- An unopened dossier does not depend on the order's status. -/
theorem Unopened.withStatus {o : Order} (h : a.Unopened o) (status : OrderStatus) (now : Time) :
    a.Unopened (o.withStatus status now) where
  intents := h.intents
  journals := h.journals

/-- A dossier is the same in tables that hold the same about the order. -/
theorem Dossier.congr {a' : Accounts} {o : Order} (h : a.Dossier o)
    (hi : a'.intentsOf o.id = a.intentsOf o.id)
    (hr : ∀ i ∈ a.intentsOf o.id, a'.matchedReceiptsOf i.id = a.matchedReceiptsOf i.id)
    (hj : a'.settlementsOf o.id = a.settlementsOf o.id)
    (he : ∀ j ∈ a.settlementsOf o.id, a'.entriesOf j.id = a.entriesOf j.id) : a'.Dossier o := by
  have hunopened : a.Unopened o → a'.Unopened o := fun h => ⟨hi.trans h.intents, hj.trans h.journals⟩
  have hawaiting : (∃ i, a.Awaiting o i) → ∃ i, a'.Awaiting o i := by
    rintro ⟨i, h⟩
    have hmem : i ∈ a.intentsOf o.id := by
      rw [h.intents]
      exact List.mem_singleton.mpr rfl
    exact ⟨i, hi.trans h.intents, h.status, h.amount, h.currency, (hr i hmem).trans h.receipts,
      hj.trans h.journals⟩
  have hsettled : (∃ i r j, a.Settled o i r j) → ∃ i r j, a'.Settled o i r j := by
    rintro ⟨i, r, j, h⟩
    have hmem : i ∈ a.intentsOf o.id := by
      rw [h.intents]
      exact List.mem_singleton.mpr rfl
    have hjournal : j ∈ a.settlementsOf o.id := by
      rw [h.journals]
      exact List.mem_singleton.mpr rfl
    exact ⟨i, r, j, hi.trans h.intents, h.status, (hr i hmem).trans h.receipts, h.amount, h.currency,
      hj.trans h.journals, (he j hjournal).trans h.entries⟩
  unfold Dossier at h ⊢
  cases hstatus : o.status <;> simp only [hstatus] at h ⊢ <;>
    first
      | exact hunopened h
      | exact hawaiting h
      | exact hsettled h
      | exact h.imp hunopened hawaiting

/-- The only element of a singleton filter. -/
theorem eq_of_mem_intentsOf {orderId : Uuid} {i i' : PaymentIntent} (h : a.intentsOf orderId = [i])
    (hmem : i' ∈ a.intents.rows) (horder : i'.orderId = orderId) : i' = i := by
  have hfilter : i' ∈ a.intentsOf orderId := List.mem_filter.mpr ⟨hmem, decide_eq_true horder⟩
  rw [h] at hfilter
  exact List.mem_singleton.mp hfilter

/-- An intent found for an order is in the table and of that order. -/
theorem mem_intentsOf {orderId : Uuid} {i : PaymentIntent} :
    i ∈ a.intentsOf orderId ↔ i ∈ a.intents.rows ∧ i.orderId = orderId := by
  simp only [intentsOf, List.mem_filter, decide_eq_true_eq]

section Open

variable {I : Table paymentIntentSchema} {i : PaymentIntent} (hI : I.rows = a.intents.rows ++ [i])
include hI

/-- A new intent has a new identifier. -/
theorem id_not_mem_of_open : i.id ∉ a.intents.rows.map PaymentIntent.id := by
  intro hmem
  obtain ⟨old, hold, hid⟩ := List.mem_map.mp hmem
  have hclash := Table.not_clash_of_append a.intents I hI old hold
  simp [paymentIntentSchema, hid] at hclash

/-- A new intent is of its order and of no other. -/
theorem intentsOf_open (orderId : Uuid) :
    ({ a with intents := I } : Accounts).intentsOf orderId =
      a.intentsOf orderId ++ if i.orderId = orderId then [i] else [] := by
  change I.rows.filter _ = a.intents.rows.filter _ ++ _
  rw [hI, List.filter_append, List.filter_cons, List.filter_nil]
  simp only [decide_eq_true_eq]

/-- Opening the payment of one order leaves the dossiers of the others alone. -/
theorem Dossier.open_other {o : Order} (horder : i.orderId ≠ o.id) (h : a.Dossier o) :
    ({ a with intents := I } : Accounts).Dossier o := by
  refine h.congr ?_ (fun _ _ => rfl) rfl (fun _ _ => rfl)
  rw [intentsOf_open hI, if_neg horder, List.append_nil]

/-- Opening the payment of an unopened order leaves it awaiting that payment. -/
theorem Unopened.open_self {o : Order} {orderIds : List Uuid} (hclosed : a.Closed orderIds)
    (horder : i.orderId = o.id) (hstatus : i.status = .awaitingPayment) (hamount : i.amountMinor = o.totalMinor)
    (hcurrency : i.currency = o.currency) (h : a.Unopened o) :
    ({ a with intents := I } : Accounts).Awaiting o i where
  intents := by
    rw [intentsOf_open hI, h.intents, if_pos horder, List.nil_append]
  status := hstatus
  amount := hamount
  currency := hcurrency
  receipts := by
    refine List.filter_eq_nil_iff.mpr fun r hr => ?_
    intro hmatch
    simp only [decide_eq_true_eq] at hmatch
    exact id_not_mem_of_open hI (hclosed.receipts r hr i.id hmatch.1)
  journals := h.journals

/-- The new intent refers to its order. -/
theorem Closed.open {orderIds : List Uuid} (horder : i.orderId ∈ orderIds) (h : a.Closed orderIds) :
    ({ a with intents := I } : Accounts).Closed orderIds where
  intents old hold := by
    change old ∈ I.rows at hold
    rw [hI, List.mem_append, List.mem_singleton] at hold
    rcases hold with hold | rfl
    · exact h.intents old hold
    · exact horder
  receipts r hr id hid := by
    change id ∈ I.rows.map PaymentIntent.id
    rw [hI, List.map_append]
    exact List.mem_append_left _ (h.receipts r hr id hid)
  journalOrders := h.journalOrders
  journalReceipts := h.journalReceipts
  entries := h.entries

end Open

section Receive

variable {R : Table paymentReceiptSchema} {r : PaymentReceipt} (hR : R.rows = a.receipts.rows ++ [r])
include hR

/-- A new receipt has a new identifier. -/
theorem id_not_mem_of_receive : r.id ∉ a.receipts.rows.map PaymentReceipt.id := by
  intro hmem
  obtain ⟨old, hold, hid⟩ := List.mem_map.mp hmem
  have hclash := Table.not_clash_of_append a.receipts R hR old hold
  simp [paymentReceiptSchema, hid] at hclash

/-- A new receipt counts for the intent that it matches and for no other. -/
theorem matchedReceiptsOf_receive (intentId : Uuid) :
    ({ a with receipts := R } : Accounts).matchedReceiptsOf intentId =
      a.matchedReceiptsOf intentId ++ if r.paymentIntentId = some intentId ∧ r.status = .matched then [r] else [] := by
  change R.rows.filter _ = a.receipts.rows.filter _ ++ _
  rw [hR, List.filter_append, List.filter_cons, List.filter_nil]
  simp only [decide_eq_true_eq]

/-- A receipt that does not match leaves every dossier alone. -/
theorem Dossier.receive {o : Order} (hstatus : r.status ≠ .matched) (h : a.Dossier o) :
    ({ a with receipts := R } : Accounts).Dossier o := by
  refine h.congr rfl (fun i _ => ?_) rfl (fun _ _ => rfl)
  rw [matchedReceiptsOf_receive hR, if_neg (fun hmatch => hstatus hmatch.2), List.append_nil]

/-- The new receipt refers to the intent that it was classified against. -/
theorem Closed.receive {orderIds : List Uuid}
    (hintent : ∀ id, r.paymentIntentId = some id → id ∈ a.intents.rows.map PaymentIntent.id)
    (h : a.Closed orderIds) : ({ a with receipts := R } : Accounts).Closed orderIds where
  intents := h.intents
  receipts r' hr' id hid := by
    change r' ∈ R.rows at hr'
    rw [hR, List.mem_append, List.mem_singleton] at hr'
    rcases hr' with hr' | rfl
    · exact h.receipts r' hr' id hid
    · exact hintent id hid
  journalOrders := h.journalOrders
  journalReceipts j hj id hid := by
    change id ∈ R.rows.map PaymentReceipt.id
    rw [hR, List.map_append]
    exact List.mem_append_left _ (h.journalReceipts j hj id hid)
  entries := h.entries

end Receive

section Post

variable {J : Table journalSchema} {E : Table ledgerEntrySchema} {j : Journal} {lines : List LedgerEntry}
  (hJ : J.rows = a.journals.rows ++ [j]) (hE : E.rows = a.entries.rows ++ lines)
  (hlines : ∀ e ∈ lines, e.journalId = j.id)

/-- A new journal has a new identifier. -/
theorem id_not_mem_of_post (hJ : J.rows = a.journals.rows ++ [j]) : j.id ∉ a.journals.rows.map Journal.id := by
  intro hmem
  obtain ⟨old, hold, hid⟩ := List.mem_map.mp hmem
  have hclash := Table.not_clash_of_append a.journals J hJ old hold
  simp [journalSchema, hid] at hclash

include hJ hE hlines

/-- Posting a journal leaves the entries of the others alone. -/
theorem entriesOf_post_other {old : Journal} (hold : old ∈ a.journals.rows) :
    ({ a with journals := J, entries := E } : Accounts).entriesOf old.id = a.entriesOf old.id := by
  have hne : j.id ≠ old.id := fun hid => id_not_mem_of_post hJ (hid ▸ List.mem_map_of_mem hold)
  have hnone : lines.filter (fun e => e.journalId = old.id) = [] := by
    refine List.filter_eq_nil_iff.mpr fun e he => ?_
    rw [hlines e he]
    simpa using hne
  change E.rows.filter _ = a.entries.rows.filter _
  rw [hE, List.filter_append, hnone, List.append_nil]

/-- The entries of a posted journal are exactly those written with it. -/
theorem entriesOf_post_self {orderIds : List Uuid} (hclosed : a.Closed orderIds) :
    ({ a with journals := J, entries := E } : Accounts).entriesOf j.id = lines := by
  have hnone : a.entries.rows.filter (fun e => e.journalId = j.id) = [] := by
    refine List.filter_eq_nil_iff.mpr fun e he => ?_
    intro hid
    simp only [decide_eq_true_eq] at hid
    exact id_not_mem_of_post hJ (hid ▸ hclosed.entries e he)
  have hall : lines.filter (fun e => e.journalId = j.id) = lines :=
    List.filter_eq_self.mpr fun e he => decide_eq_true (hlines e he)
  change E.rows.filter _ = lines
  rw [hE, List.filter_append, hnone, hall, List.nil_append]

/-- A journal that settles no order leaves every dossier alone. -/
theorem Dossier.post_other {o : Order} (hkind : ¬(j.kind = .dutySettlement ∧ j.orderId = some o.id))
    (h : a.Dossier o) : ({ a with journals := J, entries := E } : Accounts).Dossier o := by
  refine h.congr rfl (fun _ _ => rfl) ?_ fun old hold => ?_
  · change J.rows.filter _ = a.journals.rows.filter _
    rw [hJ, List.filter_append, List.filter_cons, List.filter_nil]
    simp [hkind]
  · exact entriesOf_post_other hJ hE hlines (List.mem_filter.mp hold).1

/-- The posted journal refers to its order and its receipt. -/
theorem Closed.post {orderIds : List Uuid} (horder : ∀ id, j.orderId = some id → id ∈ orderIds)
    (hreceipt : ∀ id, j.paymentReceiptId = some id → id ∈ a.receipts.rows.map PaymentReceipt.id)
    (h : a.Closed orderIds) : ({ a with journals := J, entries := E } : Accounts).Closed orderIds where
  intents := h.intents
  receipts := h.receipts
  journalOrders old hold id hid := by
    change old ∈ J.rows at hold
    rw [hJ, List.mem_append, List.mem_singleton] at hold
    rcases hold with hold | rfl
    · exact h.journalOrders old hold id hid
    · exact horder id hid
  journalReceipts old hold id hid := by
    change old ∈ J.rows at hold
    rw [hJ, List.mem_append, List.mem_singleton] at hold
    rcases hold with hold | rfl
    · exact h.journalReceipts old hold id hid
    · exact hreceipt id hid
  entries e he := by
    change e.journalId ∈ J.rows.map Journal.id
    change e ∈ E.rows at he
    rw [hE, List.mem_append] at he
    rw [hJ, List.map_append]
    rcases he with he | he
    · exact List.mem_append_left _ (h.entries e he)
    · rw [hlines e he]
      exact List.mem_append_right _ (List.mem_singleton.mpr rfl)

end Post

section Settle

variable {I : Table paymentIntentSchema} {i : PaymentIntent} {now : Time}
  (hI : I.rows = a.intents.rows.map fun x => if x.id = i.id then x.settle now else x)
include hI

/-- Settling keeps the identifiers of the intents. -/
theorem ids_settle : I.rows.map PaymentIntent.id = a.intents.rows.map PaymentIntent.id := by
  rw [hI, List.map_map]
  refine List.map_congr_left fun x _ => ?_
  simp only [Function.comp_apply]
  split <;> rfl

/-- Settling rewrites the intents of an order in place. -/
theorem intentsOf_settle (orderId : Uuid) :
    ({ a with intents := I } : Accounts).intentsOf orderId =
      (a.intentsOf orderId).map fun x => if x.id = i.id then x.settle now else x := by
  change I.rows.filter _ = (a.intents.rows.filter _).map _
  rw [hI, List.filter_map]
  congr 1
  refine List.filter_congr fun x _ => ?_
  simp only [Function.comp_apply]
  split <;> rfl

/-- Settling an intent leaves the intents of the other orders alone. -/
theorem intentsOf_settle_other {orderId : Uuid} (hi : i ∈ a.intents.rows) (horder : i.orderId ≠ orderId) :
    ({ a with intents := I } : Accounts).intentsOf orderId = a.intentsOf orderId := by
  rw [intentsOf_settle hI]
  calc (a.intentsOf orderId).map (fun x => if x.id = i.id then x.settle now else x)
      = (a.intentsOf orderId).map fun x => x := by
        refine List.map_congr_left fun x hx => if_neg fun hid => ?_
        obtain ⟨hmem, hxorder⟩ := mem_intentsOf.mp hx
        have hsame : x = i := a.intents.eq_of_clash hmem hi (by simp [paymentIntentSchema, hid])
        exact horder (hsame ▸ hxorder)
    _ = a.intentsOf orderId := List.map_id' _

/-- A settled intent keeps its references. -/
theorem Closed.settle {orderIds : List Uuid} (h : a.Closed orderIds) :
    ({ a with intents := I } : Accounts).Closed orderIds where
  intents x hx := by
    change x ∈ I.rows at hx
    rw [hI, List.mem_map] at hx
    obtain ⟨old, hold, rfl⟩ := hx
    have horder : (if old.id = i.id then old.settle now else old).orderId = old.orderId := by
      split <;> rfl
    rw [horder]
    exact h.intents old hold
  receipts r hr id hid := by
    change id ∈ I.rows.map PaymentIntent.id
    rw [ids_settle hI]
    exact h.receipts r hr id hid
  journalOrders := h.journalOrders
  journalReceipts := h.journalReceipts
  entries := h.entries

end Settle

section Pay

variable {I : Table paymentIntentSchema} {R : Table paymentReceiptSchema} {J : Table journalSchema}
  {E : Table ledgerEntrySchema} {o : Order} {i : PaymentIntent} {r : PaymentReceipt} {j : Journal} {now : Time}
  (hR : R.rows = a.receipts.rows ++ [r])
  (hI : I.rows = a.intents.rows.map fun x => if x.id = i.id then x.settle now else x)
  (hJ : J.rows = a.journals.rows ++ [j])
  (hE : E.rows = a.entries.rows ++ settlementEntries o j.id now)

/-- Every line of a settlement belongs to its journal. -/
theorem settlementEntries_journalId (o : Order) (journalId : Uuid) (now : Time) :
    ∀ e ∈ settlementEntries o journalId now, e.journalId = journalId := by
  intro e he
  simp only [settlementEntries, List.mem_cons, List.not_mem_nil, or_false] at he
  rcases he with rfl | rfl | rfl <;> rfl

include hR hI hJ hE

/-- An exact payment of one order leaves the dossiers of the others alone. -/
theorem Dossier.pay_other {o' : Order} (hi : i ∈ a.intents.rows) (horder : i.orderId ≠ o'.id)
    (hr : r.paymentIntentId = some i.id) (hj : j.orderId ≠ some o'.id) (h : a.Dossier o') :
    (⟨I, R, J, E⟩ : Accounts).Dossier o' := by
  have hreceived : ({ a with receipts := R } : Accounts).Dossier o' := by
    refine h.congr rfl (fun x hx => ?_) rfl (fun _ _ => rfl)
    obtain ⟨hmem, hxorder⟩ := mem_intentsOf.mp hx
    rw [matchedReceiptsOf_receive hR, if_neg, List.append_nil]
    rintro ⟨hid, -⟩
    have hid : i.id = x.id := Option.some.inj (hr ▸ hid)
    have hsame : i = x := a.intents.eq_of_clash hi hmem (by simp [paymentIntentSchema, hid])
    exact horder (hsame ▸ hxorder)
  have hsettled : (⟨I, R, a.journals, a.entries⟩ : Accounts).Dossier o' :=
    hreceived.congr (intentsOf_settle_other hI hi horder) (fun _ _ => rfl) rfl (fun _ _ => rfl)
  exact Dossier.post_other (a := ⟨I, R, a.journals, a.entries⟩) hJ hE
    (settlementEntries_journalId o j.id now) (fun hkind => hj hkind.2) hsettled

/-- An exact payment settles the dossier of its order. -/
theorem Awaiting.pay_self {orderIds : List Uuid} (hclosed : a.Closed orderIds) (h : a.Awaiting o i)
    (hr : r.paymentIntentId = some i.id) (hmatched : r.status = .matched)
    (hamount : r.amountMinor = i.amountMinor) (hcurrency : r.currency = i.currency)
    (hkind : j.kind = .dutySettlement) (hj : j.orderId = some o.id) (hnow : j.createdAt = now) :
    (⟨I, R, J, E⟩ : Accounts).Settled o (i.settle now) r j where
  intents := by
    have hmap := intentsOf_settle hI o.id
    rw [h.intents, List.map_cons, List.map_nil, if_pos rfl] at hmap
    exact hmap
  status := rfl
  receipts := by
    have happend := matchedReceiptsOf_receive hR i.id
    rw [h.receipts, if_pos ⟨hr, hmatched⟩, List.nil_append] at happend
    exact happend
  amount := hamount.trans h.amount
  currency := hcurrency.trans h.currency
  journals := by
    have hnone : a.journals.rows.filter (fun j => j.kind = .dutySettlement ∧ j.orderId = some o.id) = [] :=
      h.journals
    change J.rows.filter _ = [j]
    rw [hJ, List.filter_append, hnone, List.nil_append, List.filter_cons, List.filter_nil]
    simp [hkind, hj]
  entries := by
    rw [hnow]
    exact entriesOf_post_self (a := a) hJ hE (settlementEntries_journalId o j.id now) hclosed

end Pay

end Accounts

/-- All references hold and every dossier is in order. -/
structure Reconciled (db : Db) : Prop where
  closed : db.accounts.Closed (db.orders.rows.map Order.id)
  dossier : ∀ o ∈ db.orders.rows, db.accounts.Dossier o

/-- Moving an order keeps the identifiers of the orders. -/
theorem ids_moveOrder (orderId : Uuid) (status : OrderStatus) (now : Time) (rows : List Order) :
    (moveOrder orderId status now rows).map Order.id = rows.map Order.id := by
  rw [moveOrder, List.map_map]
  refine List.map_congr_left fun o _ => ?_
  simp only [Function.comp_apply]
  split <;> rfl

/-- A platform with reference data only is in order. -/
theorem Reconciled.initial (companies : Table companySchema) (tariffs : Table tariffSchema) :
    Reconciled (Db.initial companies tariffs) := by
  refine ⟨⟨?_, ?_, ?_, ?_, ?_⟩, ?_⟩ <;> intro x hx <;> cases hx

section Preservation

variable {db : Db} (h : Reconciled db)
include h

/-- A move of one order that keeps its dossier keeps all of them. -/
theorem Reconciled.move {O : Table orderSchema} {orderId : Uuid} {status : OrderStatus} {now : Time} {db' : Db}
    (hO : O.rows = moveOrder orderId status now db.orders.rows) (horders : db'.orders = O)
    (haccounts : db'.accounts = db.accounts)
    (hmove : ∀ o ∈ db.orders.rows, o.id = orderId → db.accounts.Dossier o →
      db.accounts.Dossier (o.withStatus status now)) : Reconciled db' where
  closed := by
    rw [haccounts, horders, hO, ids_moveOrder]
    exact h.closed
  dossier o ho := by
    rw [horders, hO] at ho
    rw [haccounts]
    obtain ⟨old, hold, ⟨hid, rfl⟩ | ⟨-, rfl⟩⟩ := mem_moveOrder.mp ho
    · exact hmove old hold hid (h.dossier old hold)
    · exact h.dossier o hold

/-- A transaction that leaves orders and payments alone keeps the dossiers. -/
theorem Reconciled.frame {db' : Db} (horders : db'.orders = db.orders)
    (haccounts : db'.accounts = db.accounts) : Reconciled db' where
  closed := by
    rw [haccounts, horders]
    exact h.closed
  dossier := by
    rw [haccounts, horders]
    exact h.dossier

/-- A submission adds an order without payments. -/
theorem Reconciled.submitted {draft : Order} {compliant : Bool} {now : Time} {O : Table orderSchema} {db' : Db}
    (hfresh : ∀ o ∈ db.orders.rows, o.id ≠ draft.id)
    (hO : O.rows = db.orders.rows ++ [draft.withStatus (submissionStatus compliant) now])
    (horders : db'.orders = O) (haccounts : db'.accounts = db.accounts) : Reconciled db' := by
  have hnew : draft.id ∉ db.orders.rows.map Order.id := by
    intro hmem
    obtain ⟨o, ho, hid⟩ := List.mem_map.mp hmem
    exact hfresh o ho hid
  have hunopened : db.accounts.Unopened draft := by
    constructor
    · refine List.filter_eq_nil_iff.mpr fun i hi hid => ?_
      simp only [decide_eq_true_eq] at hid
      exact hnew (hid ▸ h.closed.intents i hi)
    · refine List.filter_eq_nil_iff.mpr fun j hj hid => ?_
      simp only [decide_eq_true_eq] at hid
      exact hnew (h.closed.journalOrders j hj draft.id hid.2)
  constructor
  · rw [haccounts, horders, hO, List.map_append]
    exact h.closed.mono (List.subset_append_left _ _)
  · intro o ho
    rw [horders, hO, List.mem_append, List.mem_singleton] at ho
    rw [haccounts]
    rcases ho with ho | rfl
    · exact h.dossier o ho
    · cases compliant <;> exact hunopened.withStatus _ now

/-- A decision opens a payment, ends the order or leaves it as it is. -/
theorem Reconciled.decided {draws : Draws} {order : Order} {actor : Actor} {command : ApprovalCommand}
    {now : Time} {P : Table approvalSchema} {db' : Db} (horder : order ∈ db.orders.rows)
    (hstatus : order.status = .awaitingApproval)
    (heffect : DecisionEffect draws order actor command now (Tables.approvals.set P db) db') :
    Reconciled db' := by
  have hunopened : ∀ o ∈ db.orders.rows, o.id = order.id → db.accounts.Unopened o := by
    intro o ho hid
    have hdossier := h.dossier o ho
    rw [order_eq_of_id db ho horder hid] at hdossier ⊢
    unfold Accounts.Dossier at hdossier
    rw [hstatus] at hdossier
    exact hdossier
  cases heffect with
  | rejected O T hdecision hO hT =>
    exact h.move hO rfl rfl fun o ho hid _ => (hunopened o ho hid).withStatus .rejected now
  | recorded hdecision hopen => exact h.frame rfl rfl
  | opened O T I M hdecision hfull hO hT hI =>
    have hclosed : ({ db.accounts with intents := I } : Accounts).Closed (db.orders.rows.map Order.id) :=
      h.closed.open hI (List.mem_map_of_mem horder)
    constructor
    · change Accounts.Closed _ (O.rows.map Order.id)
      rw [hO]
      change Accounts.Closed _ ((moveOrder order.id _ now db.orders.rows).map Order.id)
      rw [ids_moveOrder]
      exact hclosed
    · intro o ho
      change o ∈ O.rows at ho
      rw [hO] at ho
      obtain ⟨old, hold, ⟨hid, rfl⟩ | ⟨hid, rfl⟩⟩ := mem_moveOrder.mp ho
      · have hsame : old = order := order_eq_of_id db hold horder hid
        subst hsame
        exact ⟨_, ((hunopened old hold rfl).open_self hI h.closed rfl rfl rfl rfl).withStatus _ now⟩
      · exact (h.dossier o hold).open_other hI (Ne.symm hid)

/-- A cancellation keeps an open intent with its order. -/
theorem Reconciled.cancelled {order : Order} {now : Time} {O : Table orderSchema} {db' : Db}
    (horder : order ∈ db.orders.rows) (hlegal : .cancelled ∈ orderTransitions order.status)
    (hO : O.rows = moveOrder order.id .cancelled now db.orders.rows) (horders : db'.orders = O)
    (haccounts : db'.accounts = db.accounts) : Reconciled db' := by
  refine h.move hO horders haccounts fun o ho hid hdossier => ?_
  have hsame : o = order := order_eq_of_id db ho horder hid
  subst hsame
  change db.accounts.Unopened _ ∨ ∃ i, db.accounts.Awaiting _ i
  unfold Accounts.Dossier at hdossier
  rcases cancelled_mem_orderTransitions.mp hlegal with hs | hs | hs | hs | hs | hs <;> rw [hs] at hdossier
  · exact .inl (hdossier.withStatus _ now)
  · exact .inl (hdossier.withStatus _ now)
  · exact .inl (hdossier.withStatus _ now)
  · exact .inl (hdossier.withStatus _ now)
  · exact .inl (hdossier.withStatus _ now)
  · obtain ⟨i, hi⟩ := hdossier
    exact .inr ⟨i, hi.withStatus _ now⟩

/-- An ingestion settles the order it pays exactly and touches no other dossier. -/
theorem Reconciled.ingested {settings : Settings} {draws : Draws} {advice : RemittanceAdvice} {now : Time} {db' : Db}
    (heffect : IngestEffect settings draws advice now db db') : Reconciled db' := by
  cases heffect with
  | replayed receipt hmem hreference => exact h
  | unknown payloadHash R A hR =>
    constructor
    · exact h.closed.receive hR fun id hid => absurd hid (by simp [newReceipt])
    · intro o ho
      exact (h.dossier o ho).receive hR (by simp [newReceipt, classify])
  | mismatched intent payloadHash R J E M A hintent hstatus hR hJ hE hsupported =>
    have hlines : ∀ e ∈ unappliedEntries advice (draws.uuid 1) now, e.journalId = draws.uuid 1 := by
      intro e he
      simp only [unappliedEntries, List.mem_cons, List.not_mem_nil, or_false] at he
      rcases he with rfl | rfl <;> rfl
    have hmismatch : (newReceipt (draws.uuid 0) (some intent) advice payloadHash now).status ≠ .matched := by
      change classify (some intent) advice ≠ .matched
      rw [hstatus]
      decide
    have hclosed := h.closed.receive hR fun id hid => by
      obtain rfl : intent.id = id := Option.some.inj hid
      exact List.mem_map_of_mem hintent
    constructor
    · refine hclosed.post hJ hE hlines (fun id hid => absurd hid (by simp)) fun id hid => ?_
      obtain rfl : draws.uuid 0 = id := Option.some.inj hid
      change draws.uuid 0 ∈ R.rows.map PaymentReceipt.id
      rw [hR, List.map_append]
      exact List.mem_append_right _ (List.mem_singleton.mpr rfl)
    · intro o ho
      exact ((h.dossier o ho).receive hR hmismatch).post_other hJ hE hlines (by simp)
  | settled intent order payloadHash R O T I J E M A hintent hstatus horder hid hawaiting hR hO hT hI hJ hE
      hsupported =>
    obtain ⟨hamount, hcurrency, -⟩ := classify_matched hstatus
    have hdossier := h.dossier order horder
    unfold Accounts.Dossier at hdossier
    rw [hawaiting] at hdossier
    obtain ⟨i, hi⟩ := hdossier
    obtain rfl : intent = i := Accounts.eq_of_mem_intentsOf hi.intents hintent hid.symm
    constructor
    · change Accounts.Closed _ (O.rows.map Order.id)
      rw [hO]
      rw [ids_moveOrder]
      have hreceived := h.closed.receive hR fun id hid => by
        obtain rfl : intent.id = id := Option.some.inj hid
        exact List.mem_map_of_mem hintent
      have hsettled := hreceived.settle (I := I) hI
      refine hsettled.post hJ hE (Accounts.settlementEntries_journalId order _ now) (fun id hid => ?_)
        fun id hid => ?_
      · obtain rfl : order.id = id := Option.some.inj hid
        exact List.mem_map_of_mem horder
      · obtain rfl : draws.uuid 0 = id := Option.some.inj hid
        change draws.uuid 0 ∈ R.rows.map PaymentReceipt.id
        rw [hR, List.map_append]
        exact List.mem_append_right _ (List.mem_singleton.mpr rfl)
    · intro o ho
      change o ∈ O.rows at ho
      rw [hO] at ho
      obtain ⟨old, hold, ⟨hsame, rfl⟩ | ⟨hother, rfl⟩⟩ := mem_moveOrder.mp ho
      · obtain rfl : old = order := order_eq_of_id db hold horder hsame
        have hpaid := hi.pay_self hR hI hJ hE h.closed rfl hstatus hamount.symm hcurrency.symm rfl rfl rfl
        exact ⟨_, _, _, hpaid.withStatus .paid now⟩
      · refine (h.dossier o hold).pay_other hR hI hJ hE hintent (fun heq => hother ?_) rfl fun heq => hother ?_
        · rw [hid, heq]
        · exact (Option.some.inj heq).symm

/-- Issuance moves a settled order within the settled statuses. -/
theorem Reconciled.issued {settings : Settings} {draws : Draws} {orderId : Uuid} {chunkSize : ℤ} {now : Time} {db' : Db}
    (heffect : IssueEffect settings draws orderId chunkSize now db db') :
    Reconciled db' := by
  obtain ⟨order, batch, base, added, complete, f, O, T, B, C, S, M, A, horder, hid, hstatus, hbatch, hbase,
    hadded, hcount, hcomplete, hf, hO, hT, hB, hS⟩ := heffect
  split at hO
  · exact h.frame (Table.ext_rows hO) rfl
  · refine h.move hO rfl rfl fun o ho hsame hdossier => ?_
    obtain rfl : o = order := order_eq_of_id db ho horder hsame
    have hsettled : ∃ i r j, db.accounts.Settled o i r j := by
      unfold Accounts.Dossier at hdossier
      rcases hstatus with hs | hs | hs <;> rw [hs] at hdossier <;> exact hdossier
    obtain ⟨i, r, j, hsettled⟩ := hsettled
    have hfinal : issuedStatus o.status complete = .issued ∨ issuedStatus o.status complete = .issuing := by
      unfold issuedStatus
      split
      · exact .inl rfl
      · exact .inr rfl
    rcases hfinal with hs | hs <;> rw [hs] <;> exact ⟨i, r, j, hsettled.withStatus _ now⟩

end Preservation

/-- Every transaction keeps the dossiers in order. -/
theorem Reconciled.step (settings : Settings) (s : Platform) (e : Event) (h : Reconciled s.db) :
    Reconciled (TaxStamp.step settings s e).db := by
  obtain hchange := step_change settings s e
  generalize (TaxStamp.step settings s e).db = db' at hchange ⊢
  cases hchange with
  | sameCore e db' hsame =>
    refine h.frame hsame.orders ?_
    rw [Db.accounts, hsame.paymentIntents, hsame.paymentReceipts, hsame.journals, hsame.ledgerEntries]
    rfl
  | submitted compliance draws actor command now key draft compliant O T A hdraft hfresh hO hT =>
    exact h.submitted hfresh hO rfl rfl
  | decided draws actor command now key order P db₁ A horder hid hstatus hrole hsubmitter hfirst hP heffect =>
    exact (h.decided horder hstatus heffect).frame rfl rfl
  | cancelled draws actor orderId reason now order O T A horder hid hmay hlegal hO hT =>
    exact h.cancelled horder hlegal hO rfl rfl
  | ingested draws advice now db' heffect => exact h.ingested heffect
  | issued draws orderId chunkSize now db' heffect => exact h.issued heffect
  | inspected draws actor command now db' heffect =>
    obtain ⟨batch, inspection, g, N, S, V, B, A, hbatch, hstatus, hinspection, hfirst, hN, hg, hactive, hS, hB⟩ :=
      heffect
    exact h.frame rfl rfl
  | activated index draws actor now key a db' ha heffect =>
    obtain ⟨g, S, V, A, hg, hactive, hS⟩ := heffect
    exact h.frame rfl rfl
  | retired e db' heffect =>
    obtain ⟨g, S, V, A, hg, hactive, hS⟩ := heffect
    exact h.frame rfl rfl

/-- The dossiers are in order after every run. -/
theorem Reconciled.run (settings : Settings) (companies : Table companySchema) (tariffs : Table tariffSchema)
    (events : List Event) :
    Reconciled (Lib.run (TaxStamp.step settings) (Platform.initial companies tariffs) events).db :=
  run_invariant (fun s => Reconciled s.db) (fun s e h => h.step settings s e) _
    (Reconciled.initial companies tariffs) events

end TaxStamp
