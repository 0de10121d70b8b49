import TaxStamp.Journals
import TaxStamp.Reconciliation

/-!
# What reconciliation detects

The checks of a reconciliation run over whatever the tables hold, also after the guards of
the database were bypassed. The query for unbalanced journals is compared with the trigger
that prevents them, and the join for paid orders with the condition it looks for.
-/

namespace TaxStamp

open Lib

/-! ### Unbalanced journals -/

section Journals

variable {journals : List Journal} {entries : List LedgerEntry}

/-- Both aggregates add up the same amounts. -/
theorem caseTotal_eq_journalTotal (direction : Direction) (rows : List LedgerEntry) :
    caseTotal direction rows = journalTotal rows direction := by
  induction rows with
  | nil => rfl
  | cons e rows ih =>
    rw [caseTotal, List.map_cons, List.sum_cons, ← caseTotal, ih, journalTotal, journalTotal]
    by_cases hdirection : e.direction = direction <;> simp [hdirection]

/-- The journal is among the reported ones. -/
def ReportsJournal (entries : List LedgerEntry) (journalId : Uuid) : Prop :=
  ∃ row ∈ unbalancedJournals entries, row.1 = journalId

/-- A journal with entries is reported exactly when its totals differ. -/
theorem reportsJournal_iff {new : LedgerEntry} (hnew : new ∈ entries) :
    ReportsJournal entries new.journalId ↔
      caseTotal .debit (entries.filter fun e => e.journalId = new.journalId) ≠
        caseTotal .credit (entries.filter fun e => e.journalId = new.journalId) := by
  rw [caseTotal_eq_journalTotal, caseTotal_eq_journalTotal]
  constructor
  · intro h
    obtain ⟨row, hrow, hid⟩ := h
    obtain ⟨hmem, hdiffers⟩ := List.mem_filter.mp hrow
    obtain ⟨journalId, -, rfl⟩ := List.mem_map.mp hmem
    dsimp only at hid
    rw [hid] at hdiffers
    exact of_decide_eq_true hdiffers
  · intro hdiffers
    have hgroup : new.journalId ∈ (entries.map LedgerEntry.journalId).dedup :=
      List.mem_dedup.mpr (List.mem_map_of_mem hnew)
    exact ⟨_, List.mem_filter.mpr ⟨List.mem_map_of_mem hgroup, decide_eq_true hdiffers⟩, rfl⟩

/-- The totals of a single entry differ, because its amount is positive. -/
theorem caseTotal_single {rows : List LedgerEntry} {new : LedgerEntry} (hchecks : ∀ e ∈ rows, ledgerEntrySchema.check e = true)
    (hnew : new ∈ rows) (hsingle : rows.length < 2) : caseTotal .debit rows ≠ caseTotal .credit rows := by
  obtain ⟨e, rfl⟩ : ∃ e, rows = [e] := List.length_eq_one_iff.mp (by
    have := List.length_pos_of_mem hnew
    omega)
  have hpositive : 0 < e.amountMinor := of_decide_eq_true (hchecks e List.mem_cons_self)
  cases hdirection : e.direction <;> simp [caseTotal, hdirection] <;> omega

/-- The entries of one currency count one currency. -/
theorem currencies_length {rows : List LedgerEntry} {currency : String} (hne : rows ≠ [])
    (hcurrency : ∀ e ∈ rows, e.currency = currency) : (rows.map LedgerEntry.currency).dedup.length = 1 := by
  have hmap : rows.map LedgerEntry.currency = List.replicate rows.length currency := by
    rw [List.eq_replicate_iff]
    exact ⟨List.length_map _, fun c hc => by
      obtain ⟨e, he, rfl⟩ := List.mem_map.mp hc
      exact hcurrency e he⟩
  rw [hmap, List.replicate_dedup (List.length_pos_iff.mpr hne).ne']
  rfl

/-- The aggregates of a journal fit the variables of the trigger. -/
structure AggregatesFit (rows : List LedgerEntry) : Prop where
  debits : bigint (caseTotal .debit rows) = true
  credits : bigint (caseTotal .credit rows) = true
  count : integer rows.length = true

/-- Whatever the tables hold, a journal with entries is reported exactly when it has fewer than two of them or its totals
differ. A journal that the trigger refuses is therefore reported when its entries are all in its currency; entries in
another currency are not looked for. -/
theorem unbalancedJournals_reports_iff (journals : List Journal) (entries : List LedgerEntry)
    (hchecks : ∀ e ∈ entries, ledgerEntrySchema.check e = true) (new : LedgerEntry) (hnew : new ∈ entries) :
    let rows := entries.filter fun e => e.journalId = new.journalId
    (ReportsJournal entries new.journalId ↔ rows.length < 2 ∨ caseTotal .debit rows ≠ caseTotal .credit rows) ∧
      (assertJournalBalanced journals entries new ≠ .ok () → AggregatesFit rows →
        (∀ e ∈ rows, (journals.find? fun j => j.id = new.journalId).map Journal.currency = some e.currency) →
          ReportsJournal entries new.journalId) := by
  intro rows
  have hrow : new ∈ rows := List.mem_filter.mpr ⟨hnew, decide_eq_true rfl⟩
  have hreports : ReportsJournal entries new.journalId ↔
      rows.length < 2 ∨ caseTotal .debit rows ≠ caseTotal .credit rows := by
    rw [reportsJournal_iff hnew]
    constructor
    · exact .inr
    · intro h
      rcases h with hsingle | hdiffers
      · exact caseTotal_single (fun e he => hchecks e (List.mem_of_mem_filter he)) hrow hsingle
      · exact hdiffers
  refine ⟨hreports, fun hraises hfit hcurrency => ?_⟩
  rw [hreports]
  by_contra hquiet
  push Not at hquiet
  have hsame : ∀ e ∈ rows, e.currency = new.currency := by
    intro e he
    exact Option.some.inj ((hcurrency e he).symm.trans (hcurrency new hrow))
  have hone := currencies_length (List.ne_nil_of_mem hrow) hsame
  have hcounted : integer (rows.map LedgerEntry.currency).dedup.length = true := by
    rw [hone]
    decide
  exact hraises (assertJournalBalanced_ok.mpr
    ⟨hfit.debits, hfit.credits, hfit.count, hcounted, hquiet.1, hone, hcurrency new hrow, hquiet.2⟩)

/-- An entry of a journal in naira. -/
def sampleEntry (direction : Direction) (amountMinor : ℤ) (currency : String) : LedgerEntry :=
  ⟨⟨1⟩, .bankCollections, direction, amountMinor, currency, 0⟩

/-- The entries of two journals; the credit of the first is short of its debits by one kobo. -/
def sampleEntries : List LedgerEntry :=
  [sampleEntry .debit 5 "NGN", { sampleEntry .debit 4 "NGN" with journalId := ⟨2⟩ }, sampleEntry .debit 3 "NGN",
    { sampleEntry .credit 4 "NGN" with journalId := ⟨2⟩ }, sampleEntry .credit 7 "NGN"]

/-- The journal whose totals differ is refused by the trigger and reported, and the balanced one beside it is not. -/
theorem unbalancedJournals_reports_short :
    ReportsJournal sampleEntries ⟨1⟩ ∧ ¬ReportsJournal sampleEntries ⟨2⟩ := by
  have hshort := unbalancedJournals_reports_iff [firstJournal, { firstJournal with id := ⟨2⟩ }] sampleEntries (by decide)
    (sampleEntry .credit 7 "NGN") (by decide)
  have hbalanced := unbalancedJournals_reports_iff [firstJournal, { firstJournal with id := ⟨2⟩ }] sampleEntries
    (by decide) { sampleEntry .credit 4 "NGN" with journalId := ⟨2⟩ } (by decide)
  refine ⟨hshort.2 (by decide) ⟨by decide, by decide, by decide⟩ (by decide), fun hreports => ?_⟩
  exact absurd (hbalanced.1.mp hreports) (by decide)

/-- A debit in naira against a credit of as many cents: the trigger refuses both entries, and nothing is reported. -/
theorem not_unbalancedJournals_reports :
    ¬∀ (journals : List Journal) (entries : List LedgerEntry), (∀ e ∈ entries, ledgerEntrySchema.check e = true) →
      ∀ new ∈ entries, (∃ message, assertJournalBalanced journals entries new = .error (.raiseException message)) →
        ReportsJournal entries new.journalId := by
  intro h
  have hreports := h [firstJournal] [sampleEntry .debit 5 "NGN", sampleEntry .credit 5 "USD"] (by decide)
    (sampleEntry .debit 5 "NGN") List.mem_cons_self
    ⟨"journal 1 mixes currencies", by decide +kernel⟩
  rw [reportsJournal_iff List.mem_cons_self] at hreports
  exact hreports (by decide)

end Journals

/-! ### Paid orders without a receipt -/

/-- The references between orders and payments lead to rows. -/
structure Db.ForeignKeys (db : Db) : Prop where
  companies : ∀ o ∈ db.orders.rows, ∃ c ∈ db.companies.rows, c.id = o.companyId
  tariffs : ∀ o ∈ db.orders.rows, ∃ t ∈ db.tariffs.rows, t.id = o.tariffId
  orders : ∀ i ∈ db.paymentIntents.rows, ∃ o ∈ db.orders.rows, o.id = i.orderId
  intents : ∀ r ∈ db.paymentReceipts.rows, ∀ id, r.paymentIntentId = some id → ∃ i ∈ db.paymentIntents.rows, i.id = id

/-- A matched receipt of the intent is stored. -/
def MatchedReceipt (db : Db) (intent : PaymentIntent) : Prop :=
  ∃ r ∈ db.paymentReceipts.rows, r.paymentIntentId = some intent.id ∧ r.status = .matched

/-- The order is linked to a matched receipt through an intent. -/
def HasMatchedReceipt (db : Db) (order : Order) : Prop :=
  ∃ i ∈ db.paymentIntents.rows, i.orderId = order.id ∧ MatchedReceipt db i

/-- A list without its rows beyond the limit is reported exactly when it has rows. -/
theorem Finding.ofRows_take {α : Type} {kind : String} {rows : List α} {detail : List α → JsonObject} :
    Finding.ofRows kind (rows.take 50) detail ≠ none ↔ ∃ row, row ∈ rows := by
  cases rows with
  | nil => simp [Finding.ofRows]
  | cons row rows =>
    refine iff_of_true ?_ ⟨row, List.mem_cons_self⟩
    rw [Finding.ofRows, List.take_succ_cons, List.isEmpty_cons]
    exact fun h => by cases h

/-- The join reports a paid order that has an intent without a matched receipt. -/
theorem settledOrdersWithoutMatchingReceipt_reports {db : Db} :
    settledOrdersWithoutMatchingReceipt db ≠ none ↔
      ∃ o ∈ db.orders.rows, o.status.isPaid = true ∧
        ∃ i ∈ db.paymentIntents.rows, i.orderId = o.id ∧ ¬MatchedReceipt db i := by
  have hmatched : ∀ i : PaymentIntent, ((db.paymentReceipts.rows.filter fun receipt =>
      receipt.paymentIntentId = some i.id && receipt.status = .matched).isEmpty = true) ↔ ¬MatchedReceipt db i := by
    intro i
    simp only [List.isEmpty_iff, List.filter_eq_nil_iff, MatchedReceipt, Bool.and_eq_true, decide_eq_true_eq, not_exists,
      not_and]
  rw [settledOrdersWithoutMatchingReceipt, Finding.ofRows_take]
  constructor
  · intro h
    obtain ⟨reference, hreference⟩ := h
    obtain ⟨o, ho, hrow⟩ := List.mem_flatMap.mp hreference
    split at hrow
    · rename_i hpaid
      obtain ⟨i, hi, -⟩ := List.mem_map.mp hrow
      obtain ⟨hmem, hjoined⟩ := List.mem_filter.mp hi
      rw [Bool.and_eq_true, decide_eq_true_eq, hmatched] at hjoined
      exact ⟨o, ho, hpaid, i, hmem, hjoined⟩
    · cases hrow
  · intro h
    obtain ⟨o, ho, hpaid, i, hi, hof, hunmatched⟩ := h
    refine ⟨o.orderRef, List.mem_flatMap.mpr ⟨o, ho, ?_⟩⟩
    rw [if_pos hpaid]
    refine List.mem_map.mpr ⟨i, List.mem_filter.mpr ⟨hi, ?_⟩, rfl⟩
    rw [Bool.and_eq_true, decide_eq_true_eq, hmatched]
    exact ⟨hof, hunmatched⟩

/-- An order has at most one intent. -/
theorem intent_eq_of_order {db : Db} {i i' : PaymentIntent} (hi : i ∈ db.paymentIntents.rows)
    (hi' : i' ∈ db.paymentIntents.rows) (h : i.orderId = i'.orderId) : i = i' :=
  db.paymentIntents.eq_of_clash hi hi' (decide_eq_true (.inr (.inl h)))

/-- The check is right exactly when every paid order has an intent, or some paid order has an intent without a matched
receipt. -/
theorem settledOrdersWithoutMatchingReceipt_iff (db : Db) :
    (settledOrdersWithoutMatchingReceipt db ≠ none ↔
        ∃ o ∈ db.orders.rows, o.status.isPaid = true ∧ ¬HasMatchedReceipt db o) ↔
      ((∀ o ∈ db.orders.rows, o.status.isPaid = true → ∃ i ∈ db.paymentIntents.rows, i.orderId = o.id) ∨
        ∃ o ∈ db.orders.rows, o.status.isPaid = true ∧
          ∃ i ∈ db.paymentIntents.rows, i.orderId = o.id ∧ ¬MatchedReceipt db i) := by
  rw [settledOrdersWithoutMatchingReceipt_reports]
  -- the only intent of an order decides whether the order has a receipt
  have hmissing : (∃ o ∈ db.orders.rows, o.status.isPaid = true ∧
      ∃ i ∈ db.paymentIntents.rows, i.orderId = o.id ∧ ¬MatchedReceipt db i) →
      ∃ o ∈ db.orders.rows, o.status.isPaid = true ∧ ¬HasMatchedReceipt db o := by
    intro h
    obtain ⟨o, ho, hpaid, i, hi, hof, hunmatched⟩ := h
    refine ⟨o, ho, hpaid, fun hhas => ?_⟩
    obtain ⟨i', hi', hof', hmatched⟩ := hhas
    obtain rfl := intent_eq_of_order hi hi' (hof.trans hof'.symm)
    exact hunmatched hmatched
  constructor
  · intro hright
    by_cases hreported : ∃ o ∈ db.orders.rows, o.status.isPaid = true ∧ ¬HasMatchedReceipt db o
    · exact .inr (hright.mpr hreported)
    · refine .inl fun o ho hpaid => ?_
      by_contra hnone
      exact hreported ⟨o, ho, hpaid, fun hhas => hnone (hhas.imp fun i hi => ⟨hi.1, hi.2.1⟩)⟩
  · intro h
    refine ⟨hmissing, fun hlacking => ?_⟩
    rcases h with hall | hreported
    · obtain ⟨o, ho, hpaid, hlacks⟩ := hlacking
      obtain ⟨i, hi, hof⟩ := hall o ho hpaid
      exact ⟨o, ho, hpaid, i, hi, hof, fun hmatched => hlacks ⟨i, hi, hof, hmatched⟩⟩
    · exact hreported

/-- A paid order for which no intent was opened. -/
def sampleUnopened : Order where
  id := ⟨3⟩
  orderRef := "ORD-1"
  companyId := ⟨1⟩
  submittedBy := ⟨9⟩
  productCategory := "beverages"
  quantity := 1
  tariffId := ⟨2⟩
  unitPriceMinor := 1250
  subtotalMinor := 1250
  vatBps := 0
  vatMinor := 0
  totalMinor := 1250
  currency := "NGN"
  status := .paid
  riskTier := .low
  deliveryState := "Lagos"
  deliveryAddress := "1 Marina"
  complianceEvidence := .null
  createdAt := 0
  updatedAt := 0

/-- The tariff of that order satisfies its constraints. -/
theorem sampleUnopened_tariff : tariffSchema.Valid [⟨⟨2⟩, "beverages", 1250, "NGN", 0, 0, none⟩] := by decide +kernel

/-- The tables with that order alone. -/
def sampleLost : Db :=
  { Db.initial ⟨[⟨⟨1⟩, "12345678", .verified, .low⟩], sampleCompanies.valid⟩
      ⟨[⟨⟨2⟩, "beverages", 1250, "NGN", 0, 0, none⟩], sampleUnopened_tariff⟩ with
    orders := ⟨[sampleUnopened], by decide +kernel⟩ }

/-- A paid order without an intent has no receipt and is not reported. -/
theorem not_settledOrdersWithoutMatchingReceipt :
    ¬∀ db : Db, db.ForeignKeys → (settledOrdersWithoutMatchingReceipt db ≠ none ↔
      ∃ o ∈ db.orders.rows, o.status.isPaid = true ∧ ¬HasMatchedReceipt db o) := by
  intro h
  have hkeys : sampleLost.ForeignKeys := by
    refine ⟨fun o ho => ?_, fun o ho => ?_, (fun i hi => by cases hi), (fun r hr => by cases hr)⟩
    · rw [List.mem_singleton.mp ho]
      exact ⟨_, List.mem_cons_self, rfl⟩
    · rw [List.mem_singleton.mp ho]
      exact ⟨_, List.mem_cons_self, rfl⟩
  have hreported := (h sampleLost hkeys).mpr ⟨sampleUnopened, List.mem_cons_self, rfl, fun hhas => by
    obtain ⟨i, hi, -⟩ := hhas
    cases hi⟩
  exact hreported rfl

end TaxStamp
