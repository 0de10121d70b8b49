import TaxStamp.Conservation
import TaxStamp.Lib.KeyedSums
import TaxStamp.Reconciliation
import TaxStamp.Termination

/-!
# The stamps against the duty

A stamp stands for duty at the unit price of its order. The duty becomes payable with the
payment of the whole order, and the stamps are printed afterwards, chunk by chunk and with
crashes in between. The stamps that exist never stand for more duty than is payable in their
currency, and they stand for all of it exactly when every paid order has been printed.
-/

namespace TaxStamp

open Lib

/-- What an account holds in credit in a currency. -/
def creditTotal (db : Db) (account : Account) (currency : String) : ℤ := -netTotal db.ledgerEntries.rows account currency

/-- An amount of the paid orders in a currency. -/
def paidTotal (amount : Order → ℤ) (orders : List Order) (currency : String) : ℤ :=
  ((orders.filter fun o => o.status.isPaid ∧ o.currency = currency).map amount).sum

/-- The duty that a stamp stands for in a currency: the unit price of its order. -/
def Stamp.faceIn (orders : List Order) (currency : String) (stamp : Stamp) : ℤ :=
  match orders.find? fun o => o.id = stamp.orderId with
  | some o => if o.currency = currency then o.unitPriceMinor else 0
  | none => 0

/-- The duty that the stamps stand for in a currency. -/
def faceTotal (db : Db) (currency : String) : ℤ := (db.stamps.rows.map (Stamp.faceIn db.orders.rows currency)).sum

variable {settings : Settings} {db db' : Db}

/-! ### Paid orders -/

/-- What an order contributes to the paid ones in a currency. -/
def Order.paidAmount (amount : Order → ℤ) (currency : String) (o : Order) : ℤ :=
  if o.status.isPaid ∧ o.currency = currency then amount o else 0

/-- A filtered sum is a sum of contributions. -/
theorem paidTotal_eq (amount : Order → ℤ) (orders : List Order) (currency : String) :
    paidTotal amount orders currency = (orders.map (Order.paidAmount amount currency)).sum := by
  induction orders with
  | nil => rfl
  | cons o rest ih =>
    rw [paidTotal] at ih ⊢
    rw [List.map_cons, List.sum_cons, ← ih, List.filter_cons, Order.paidAmount]
    by_cases ho : o.status.isPaid ∧ o.currency = currency
    · rw [if_pos (decide_eq_true ho), if_pos ho, List.map_cons, List.sum_cons]
    · rw [if_neg (by simpa using ho), if_neg ho, Int.zero_add]

/-- The orders of a table have different identifiers. -/
theorem nodup_orderIds (O : Table orderSchema) : (O.rows.map Order.id).Nodup := by
  rw [List.Nodup, List.pairwise_map]
  apply O.valid.distinct.imp
  intro a b hdistinct hid
  simp [orderSchema, hid] at hdistinct

/-- The credit of the account is an amount of the orders: the settlement of an order credits it with that amount,
an unapplied receipt does not touch it, and no move of the order changes it. -/
structure CreditedBy (account : Account) (amount : Order → ℤ) : Prop where
  moved : ∀ o status now, amount (Order.withStatus o status now) = amount o
  settlement : ∀ order journalId now currency,
    netTotal (settlementEntries order journalId now) account currency = -if order.currency = currency then amount order else 0
  unapplied : ∀ advice journalId now currency, netTotal (unappliedEntries advice journalId now) account currency = 0

/-- Duty is credited with the subtotals. -/
theorem duty_creditedBy : CreditedBy .dutyPayable Order.subtotalMinor where
  moved _ _ _ := rfl
  settlement order journalId now currency := by
    by_cases hc : order.currency = currency <;>
      simp [netTotal, sideTotal, settlementEntries, Account.bankCollections, Account.dutyPayable, Account.vatPayable, hc]
  unapplied advice journalId now currency := by
    simp [netTotal, sideTotal, unappliedEntries, Account.bankCollections, Account.dutyPayable, Account.unappliedReceipts]

/-- VAT is credited with the VAT amounts. -/
theorem vat_creditedBy : CreditedBy .vatPayable Order.vatMinor where
  moved _ _ _ := rfl
  settlement order journalId now currency := by
    by_cases hc : order.currency = currency <;>
      simp [netTotal, sideTotal, settlementEntries, Account.bankCollections, Account.dutyPayable, Account.vatPayable, hc]
  unapplied advice journalId now currency := by
    simp [netTotal, sideTotal, unappliedEntries, Account.bankCollections, Account.vatPayable, Account.unappliedReceipts]

section Accrual

variable {account : Account} {amount : Order → ℤ} (hcredited : CreditedBy account amount)

/-- The credit of the account is the amount of the paid orders. -/
def Accrued (account : Account) (amount : Order → ℤ) (db : Db) : Prop :=
  ∀ currency, creditTotal db account currency = paidTotal amount db.orders.rows currency

include hcredited

/-- Moving an order changes the paid amount by that order alone. -/
theorem paidTotal_move {O : Table orderSchema} {order : Order} {status : OrderStatus} {now : Time}
    (horder : order ∈ db.orders.rows) (hO : O.rows = moveOrder order.id status now db.orders.rows) (currency : String) :
    paidTotal amount O.rows currency = paidTotal amount db.orders.rows currency +
      ((if status.isPaid ∧ order.currency = currency then amount order else 0) - order.paidAmount amount currency) := by
  have hmoved : (order.withStatus status now).paidAmount amount currency =
      if status.isPaid ∧ order.currency = currency then amount order else 0 := by
    rw [Order.paidAmount, hcredited.moved]
    rfl
  rw [paidTotal_eq, paidTotal_eq, hO, moveOrder,
    sum_map_rewrite Order.id (fun o => o.withStatus status now) horder (nodup_orderIds _), hmoved]

/-- A move between paid statuses, or between unpaid ones, changes no paid amount. -/
theorem paidTotal_move_same {O : Table orderSchema} {order : Order} {status : OrderStatus} {now : Time}
    (horder : order ∈ db.orders.rows) (hsame : status.isPaid = order.status.isPaid)
    (hO : O.rows = moveOrder order.id status now db.orders.rows) (currency : String) :
    paidTotal amount O.rows currency = paidTotal amount db.orders.rows currency := by
  rw [paidTotal_move hcredited horder hO, Order.paidAmount, hsame]
  omega

/-- An ingestion credits the account with the amount of the order that it pays. -/
theorem Accrued.ingested {draws : Draws} {advice : RemittanceAdvice} {now : Time} (h : Accrued account amount db)
    (heffect : IngestEffect settings draws advice now db db') : Accrued account amount db' := by
  cases heffect with
  | replayed receipt hmem hreference => exact h
  | unknown payloadHash R A hR => exact h
  | mismatched intent payloadHash R J E M A hintent hstatus hR hJ hE =>
    intro currency
    change -netTotal E.rows account currency = paidTotal amount db.orders.rows currency
    rw [hE, netTotal_append, hcredited.unapplied, Int.add_zero]
    exact h currency
  | settled intent order payloadHash R O T I J E M A hintent hstatus horder hid hawaiting hR hO hT hI hJ hE =>
    intro currency
    have hbefore : order.paidAmount amount currency = 0 := by
      rw [Order.paidAmount, hawaiting, if_neg]
      intro hpaid
      cases hpaid.1
    have hold : -netTotal db.ledgerEntries.rows account currency = paidTotal amount db.orders.rows currency := h currency
    change -netTotal E.rows account currency = paidTotal amount O.rows currency
    rw [hE, netTotal_append, hcredited.settlement, paidTotal_move hcredited horder hO, hbefore, ← hold]
    simp only [OrderStatus.isPaid, decide_true, Bool.true_or, true_and]
    omega

/-- Every transaction keeps the credit of the account and the paid orders equal. -/
theorem Accrued.step (settings : Settings) (s : Platform) (e : Event) (h : Accrued account amount s.db) :
    Accrued account amount (TaxStamp.step settings s e).db := by
  have hchange := step_change settings s e
  generalize (TaxStamp.step settings s e).db = db' at hchange ⊢
  cases hchange with
  | sameCore e db' hsame =>
    intro currency
    rw [creditTotal, hsame.orders, hsame.ledgerEntries]
    exact h currency
  | submitted compliance draws actor command now key draft compliant O T A hdraft hfresh hO hT =>
    intro currency
    have hunpaid : (draft.withStatus (submissionStatus compliant) now).paidAmount amount currency = 0 := by
      rw [Order.paidAmount, if_neg]
      intro hpaid
      cases compliant <;> cases hpaid.1
    change creditTotal s.db account currency = paidTotal amount O.rows currency
    rw [hO, paidTotal_eq, List.map_append, List.sum_append, ← paidTotal_eq, List.map_singleton, List.sum_singleton,
      hunpaid, Int.add_zero]
    exact h currency
  | decided draws actor command now key order P db₁ A horder hid hstatus hrole hsubmitter hfirst hP heffect =>
    cases heffect with
    | rejected O T hdecision hO hT =>
      exact fun currency => (h currency).trans
        (paidTotal_move_same hcredited horder (by rw [hstatus]; rfl) hO currency).symm
    | recorded hdecision hopen => exact h
    | opened O T I M hdecision hfull hO hT hI =>
      exact fun currency => (h currency).trans
        (paidTotal_move_same hcredited horder (by rw [hstatus]; rfl) hO currency).symm
  | cancelled draws actor orderId reason now order O T A horder hid hmay hlegal hO hT =>
    have hunpaid : OrderStatus.cancelled.isPaid = order.status.isPaid := by
      obtain hs | hs | hs | hs | hs | hs := cancelled_mem_orderTransitions.mp hlegal <;> rw [hs] <;> rfl
    exact fun currency => (h currency).trans (paidTotal_move_same hcredited horder hunpaid hO currency).symm
  | ingested draws advice now db' heffect => exact h.ingested hcredited heffect
  | issued draws orderId chunkSize now db' heffect =>
    obtain ⟨order, batch, base, added, complete, f, O, T, B, C, S, M, A, horder, hid, hstatus, hbatch, hbase, hadded,
      hcount, hcomplete, hf, hO⟩ := heffect
    intro currency
    apply (h currency).trans
    change _ = paidTotal amount O.rows currency
    split at hO
    · rw [hO]
    · refine (paidTotal_move_same hcredited horder ?_ hO currency).symm
      obtain hs | hs | hs := hstatus <;> rw [hs] <;> cases complete <;> rfl
  | inspected draws actor command now db' heffect =>
    cases heffect
    exact h
  | activated index draws actor now key a db' ha heffect =>
    cases heffect
    exact h
  | retired e db' heffect =>
    cases heffect
    exact h

/-- The credit of the account is the amount of the paid orders after every run. -/
theorem Accrued.run (settings : Settings) (companies : Table companySchema) (tariffs : Table tariffSchema)
    (events : List Event) :
    Accrued account amount (Lib.run (TaxStamp.step settings) (Platform.initial companies tariffs) events).db :=
  run_invariant (fun s : Platform => Accrued account amount s.db) (fun s e h => h.step hcredited settings s e) _
    (fun _ => rfl) events

end Accrual

/-! ### Stamps -/

/-- A stamp of an order stands for duty at its unit price. -/
theorem faceIn_of_mem {o : Order} (ho : o ∈ db.orders.rows) {stamp : Stamp} (hstamp : stamp.orderId = o.id)
    (currency : String) :
    stamp.faceIn db.orders.rows currency = if o.currency = currency then o.unitPriceMinor else 0 := by
  rw [Stamp.faceIn]
  cases hfound : db.orders.rows.find? fun o => o.id = stamp.orderId with
  | none =>
    have hnone := List.find?_eq_none.mp hfound o ho
    simp [hstamp] at hnone
  | some o' =>
    have hid : o'.id = stamp.orderId := by simpa using List.find?_some hfound
    have hsame := order_eq_of_id db (List.mem_of_find?_eq_some hfound) ho (hid.trans hstamp)
    rw [hsame]

/-- The duty that the stamps of an order stand for in a currency. -/
def Order.printedIn (db : Db) (currency : String) (o : Order) : ℤ :=
  (db.stock.stampsOf o.id).length * if o.currency = currency then o.unitPriceMinor else 0

/-- The stamps stand for what the stamps of each order stand for. -/
theorem faceTotal_eq (hstock : Stocktake db) (currency : String) :
    faceTotal db currency = (db.orders.rows.map (Order.printedIn db currency)).sum := by
  rw [faceTotal, sum_by_key Stamp.orderId Order.id _ (nodup_orderIds db.orders)]
  · congr 1
    apply List.map_congr_left
    intro o ho
    have hface : ∀ stamp ∈ db.stamps.rows.filter fun s => s.orderId = o.id,
        stamp.faceIn db.orders.rows currency = if o.currency = currency then o.unitPriceMinor else 0 :=
      fun stamp hstamp => faceIn_of_mem ho (of_decide_eq_true (List.mem_filter.mp hstamp).2) currency
    rw [List.map_congr_left hface, List.map_const', List.sum_replicate, nsmul_eq_mul]
    rfl
  · intro stamp hstamp
    obtain ⟨b, hb, -, horder⟩ := hstock.stamps stamp hstamp
    obtain ⟨o, ho, hid⟩ := List.mem_map.mp (hstock.batches b hb)
    exact ⟨o, ho, hid.trans horder⟩

/-- What an order asked for costs its subtotal. -/
theorem subtotalMinor_eq {o : Order} (ho : o ∈ db.orders.rows) :
    0 < o.unitPriceMinor ∧ 0 < o.subtotalMinor ∧ o.subtotalMinor = o.quantity * o.unitPriceMinor := by
  have hcheck := db.orders.valid.check o ho
  simp only [orderSchema, Bool.and_eq_true, decide_eq_true_eq] at hcheck
  obtain ⟨⟨⟨⟨⟨-, hprice⟩, hsubtotal⟩, -⟩, hproduct⟩, -⟩ := hcheck
  exact ⟨hprice, hsubtotal, hproduct.trans (Int.mul_comm _ _)⟩

/-- The stamps of an order stand for no more than its subtotal once it is paid, and for all of it when it is issued. -/
theorem Stocktake.printedIn_le (hstock : Stocktake db) {o : Order} (ho : o ∈ db.orders.rows) (currency : String) :
    o.printedIn db currency ≤ o.paidAmount Order.subtotalMinor currency ∧
      (o.printedIn db currency = o.paidAmount Order.subtotalMinor currency ↔
        (o.status.isPaid = true → o.currency = currency → o.status = .issued)) := by
  rw [Order.printedIn, Order.paidAmount]
  by_cases hc : o.currency = currency
  · obtain ⟨hprice, hsubtotal, hproduct⟩ := subtotalMinor_eq ho
    have hstocked := hstock.stocked o ho
    simp only [hc, and_true, if_true, forall_const]
    by_cases hbefore : o.status.beforeIssue
    · -- Nothing is printed yet, and the order may be paid already.
      have hnone := ((Stock.stocked_beforeIssue hbefore).mp hstocked).stamps
      have hissued := hbefore.2
      rw [hnone, List.length_nil, Nat.cast_zero, Int.zero_mul]
      cases hpaid : o.status.isPaid with
      | true => simp [hissued, hsubtotal.le, hsubtotal.ne]
      | false => simp
    · rw [OrderStatus.beforeIssue, not_and_or, not_not, not_not] at hbefore
      unfold Stock.Stocked at hstocked
      obtain hs | hs := hbefore <;> rw [hs] at hstocked ⊢ <;> obtain ⟨b, -, hlength⟩ := hstocked
      · have hlt := Int.mul_lt_mul_of_pos_right hlength hprice
        rw [← hproduct] at hlt
        simp [OrderStatus.isPaid, hlt.le, hlt.ne]
      · rw [hlength, ← hproduct]
        simp [OrderStatus.isPaid]
  · simp [hc]

/-- Every stamp is backed by duty. After every run of the services, in every currency, duty and VAT are payable by
the internal ledger for exactly the paid orders; the stamps that exist, whatever has become of them, stand at the unit
prices of their orders for no more than the duty; and they stand for all of it exactly when every paid order in the
currency is issued. -/
theorem stamps_within_duty (settings : Settings) (companies : Table companySchema) (tariffs : Table tariffSchema)
    (events : List Event) (currency : String) :
    let db := (run (step settings) (Platform.initial companies tariffs) events).db
    let duty := creditTotal db .dutyPayable currency
    duty = paidTotal Order.subtotalMinor db.orders.rows currency ∧
      creditTotal db .vatPayable currency = paidTotal Order.vatMinor db.orders.rows currency ∧
      faceTotal db currency ≤ duty ∧
      (faceTotal db currency = duty ↔
        ∀ o ∈ db.orders.rows, o.status.isPaid = true → o.currency = currency → o.status = .issued) := by
  intro db duty
  have hstock : Stocktake db := Stocktake.run settings companies tariffs events
  have hduty : duty = paidTotal Order.subtotalMinor db.orders.rows currency :=
    Accrued.run duty_creditedBy settings companies tariffs events currency
  have hvat : creditTotal db .vatPayable currency = paidTotal Order.vatMinor db.orders.rows currency :=
    Accrued.run vat_creditedBy settings companies tariffs events currency
  have hprinted : ∀ o ∈ db.orders.rows, o.printedIn db currency ≤ o.paidAmount Order.subtotalMinor currency :=
    fun o ho => (hstock.printedIn_le ho currency).1
  refine ⟨hduty, hvat, ?_, ?_⟩
  · rw [hduty, paidTotal_eq, faceTotal_eq hstock]
    exact List.sum_le_sum hprinted
  · rw [hduty, paidTotal_eq, faceTotal_eq hstock, sum_eq_iff_of_le hprinted]
    exact forall₂_congr fun o ho => (hstock.printedIn_le ho currency).2

end TaxStamp
