import TaxStamp.Settlement

/-!
# Funds conservation

The money of the platform is recorded twice: as receipts, one per remittance, and as
double entries. An exact payment posts the order's amounts and a mismatch posts the
advice's, so the two records agree only because an exact payment has the order's amount.
Both records are sums over rows, and what one ingestion adds to them agrees by itself.
-/

namespace TaxStamp

open Lib

/-- The debit-positive total of an account in a currency. -/
def netTotal (entries : List LedgerEntry) (account : Account) (currency : String) : ℤ :=
  sideTotal entries account currency .debit - sideTotal entries account currency .credit

/-- The amount received in a currency with a classification. -/
def receivedTotal (receipts : List PaymentReceipt) (status : ReceiptStatus) (currency : String) : ℤ :=
  ((receipts.filter fun r => r.status = status ∧ r.currency = currency).map PaymentReceipt.amountMinor).sum

/-- One side of the entries of a journal. -/
def journalTotal (entries : List LedgerEntry) (direction : Direction) : ℤ :=
  ((entries.filter fun e => e.direction = direction).map LedgerEntry.amountMinor).sum

/-- The totals of an account add up. -/
theorem netTotal_append (first second : List LedgerEntry) (account : Account) (currency : String) :
    netTotal (first ++ second) account currency = netTotal first account currency + netTotal second account currency := by
  simp only [netTotal, sideTotal, List.filter_append, List.map_append, List.sum_append]
  omega

/-- The received amounts add up. -/
theorem receivedTotal_append (first second : List PaymentReceipt) (status : ReceiptStatus) (currency : String) :
    receivedTotal (first ++ second) status currency =
      receivedTotal first status currency + receivedTotal second status currency := by
  simp only [receivedTotal, List.filter_append, List.map_append, List.sum_append]

/-- The entries account for the receipts in one currency: the bank holds what was received, duty and
VAT are owed for the exact payments, and the mismatches are held as unapplied. -/
structure Conserves (entries : List LedgerEntry) (receipts : List PaymentReceipt) (currency : String) : Prop where
  bank : netTotal entries .bankCollections currency =
    receivedTotal receipts .matched currency + receivedTotal receipts .amountMismatch currency
  duty : -(netTotal entries .dutyPayable currency + netTotal entries .vatPayable currency) =
    receivedTotal receipts .matched currency
  unapplied : -netTotal entries .unappliedReceipts currency = receivedTotal receipts .amountMismatch currency

/-- Nothing accounts for nothing. -/
theorem Conserves.nil (currency : String) : Conserves [] [] currency := ⟨rfl, rfl, rfl⟩

/-- What is added accounts for itself. -/
theorem Conserves.append {entries added : List LedgerEntry} {receipts new : List PaymentReceipt} {currency : String}
    (h : Conserves entries receipts currency) (hadded : Conserves added new currency) :
    Conserves (entries ++ added) (receipts ++ new) currency := by
  obtain ⟨hbank, hduty, hunapplied⟩ := h
  obtain ⟨hbank', hduty', hunapplied'⟩ := hadded
  constructor
  · rw [netTotal_append, receivedTotal_append, receivedTotal_append, hbank, hbank']
    omega
  · rw [netTotal_append, netTotal_append, receivedTotal_append, ← hduty, ← hduty']
    omega
  · rw [netTotal_append, receivedTotal_append, ← hunapplied, ← hunapplied']
    omega

/-- A remittance of an unknown reference is not accounted for. -/
theorem Conserves.unknown {r : PaymentReceipt} (hstatus : r.status = .unknownReference) (currency : String) :
    Conserves [] [r] currency := by
  constructor <;> simp [netTotal, sideTotal, receivedTotal, hstatus]

/-- The entries of an unapplied receipt account for it. -/
theorem Conserves.mismatched {r : PaymentReceipt} {advice : RemittanceAdvice} (hstatus : r.status = .amountMismatch)
    (hamount : r.amountMinor = advice.amountMinor) (hcurrency : r.currency = advice.currency) (journalId : Uuid)
    (now : Time) (currency : String) : Conserves (unappliedEntries advice journalId now) [r] currency := by
  by_cases hc : advice.currency = currency <;>
    constructor <;>
    simp [netTotal, sideTotal, receivedTotal, Account.bankCollections,
        Account.dutyPayable, Account.vatPayable, Account.unappliedReceipts, unappliedEntries, hstatus, hamount, hcurrency, hc]

/-- The order's amounts account for its exact receipt. -/
theorem Conserves.settled {r : PaymentReceipt} {o : Order} (hstatus : r.status = .matched)
    (hamount : r.amountMinor = o.totalMinor) (hcurrency : r.currency = o.currency)
    (htotal : o.totalMinor = o.subtotalMinor + o.vatMinor) (journalId : Uuid) (now : Time) (currency : String) :
    Conserves (settlementEntries o journalId now) [r] currency := by
  by_cases hc : o.currency = currency
  · constructor <;>
      simp [netTotal, sideTotal, receivedTotal, Account.bankCollections,
        Account.dutyPayable, Account.vatPayable, Account.unappliedReceipts, settlementEntries, hstatus, hamount, hcurrency, hc, htotal]
    omega
  · constructor <;>
      simp [netTotal, sideTotal, receivedTotal, Account.bankCollections,
        Account.dutyPayable, Account.vatPayable, Account.unappliedReceipts, settlementEntries, hstatus, hcurrency, hc]

namespace Accounts

variable (a : Accounts)

/-- The entries of a journal are in its currency and its debits equal its credits. -/
structure Balanced (j : Journal) : Prop where
  currency : ∀ e ∈ a.entriesOf j.id, e.currency = j.currency
  total : journalTotal (a.entriesOf j.id) .debit = journalTotal (a.entriesOf j.id) .credit

/-- The journals of a receipt. -/
def journalsOf (receiptId : Uuid) : List Journal :=
  a.journals.rows.filter fun j => j.paymentReceiptId = some receiptId

/-- The journals balance, the entries account for the receipts, and every receipt that moved money
is in a supported currency and has one journal. -/
structure Conserved : Prop where
  balanced : ∀ j ∈ a.journals.rows, a.Balanced j
  conserves : ∀ currency, Conserves a.entries.rows a.receipts.rows currency
  journaled : ∀ r ∈ a.receipts.rows, r.status ≠ .unknownReference → ∃ j, a.journalsOf r.id = [j]
  supported : ∀ r ∈ a.receipts.rows, r.status ≠ .unknownReference →
    (currencyExponents.lookup r.currency).isSome = true

variable {a}

/-- Intents take no part in the conservation. -/
theorem Conserved.intents (h : a.Conserved) (I : Table paymentIntentSchema) :
    ({ a with intents := I } : Accounts).Conserved :=
  ⟨fun j hj => ⟨(h.balanced j hj).currency, (h.balanced j hj).total⟩, h.conserves, h.journaled, h.supported⟩

section Receive

variable {R : Table paymentReceiptSchema} {r : PaymentReceipt} (hR : R.rows = a.receipts.rows ++ [r])
  (h : a.Conserved)
include hR h

/-- A remittance of an unknown reference moves no money. -/
theorem Conserved.receive (hstatus : r.status = .unknownReference) :
    ({ a with receipts := R } : Accounts).Conserved where
  balanced j hj := ⟨(h.balanced j hj).currency, (h.balanced j hj).total⟩
  conserves currency := by
    have happend := (h.conserves currency).append (Conserves.unknown hstatus currency)
    rw [List.append_nil, ← hR] at happend
    exact happend
  journaled old hold hknown := by
    change old ∈ R.rows at hold
    rw [hR, List.mem_append, List.mem_singleton] at hold
    rcases hold with hold | rfl
    · exact h.journaled old hold hknown
    · exact absurd hstatus hknown
  supported old hold hknown := by
    change old ∈ R.rows at hold
    rw [hR, List.mem_append, List.mem_singleton] at hold
    rcases hold with hold | rfl
    · exact h.supported old hold hknown
    · exact absurd hstatus hknown

variable {J : Table journalSchema} {E : Table ledgerEntrySchema} {j : Journal} {lines : List LedgerEntry}
  (hJ : J.rows = a.journals.rows ++ [j]) (hE : E.rows = a.entries.rows ++ lines)
include hJ

omit h in
/-- The journal posted with a receipt is the only one of it, and the others keep theirs. -/
theorem journalsOf_post {orderIds : List Uuid} (hclosed : a.Closed orderIds) (hreceipt : j.paymentReceiptId = some r.id) :
    J.rows.filter (fun j => j.paymentReceiptId = some r.id) = [j] ∧
      ∀ old ∈ a.receipts.rows, J.rows.filter (fun j => j.paymentReceiptId = some old.id) = a.journalsOf old.id := by
  have hfresh := id_not_mem_of_receive hR
  constructor
  · have hnone : a.journals.rows.filter (fun j => j.paymentReceiptId = some r.id) = [] := by
      refine List.filter_eq_nil_iff.mpr fun old hold => ?_
      intro hid
      exact hfresh (hclosed.journalReceipts old hold r.id (of_decide_eq_true hid))
    rw [hJ, List.filter_append, hnone, List.nil_append, List.filter_cons, List.filter_nil]
    simp [hreceipt]
  · intro old hold
    have hne : r.id ≠ old.id := fun hid => hfresh (hid ▸ List.mem_map_of_mem hold)
    rw [hJ, List.filter_append, List.filter_cons, List.filter_nil]
    simp [hreceipt, hne, journalsOf]

include hE

/-- A receipt posted with balanced lines that account for it keeps the money conserved. -/
theorem Conserved.post {orderIds : List Uuid} (hclosed : a.Closed orderIds)
    (hreceipt : j.paymentReceiptId = some r.id) (hlines : ∀ e ∈ lines, e.journalId = j.id)
    (hcurrency : ∀ e ∈ lines, e.currency = j.currency)
    (htotal : journalTotal lines .debit = journalTotal lines .credit)
    (hconserves : ∀ currency, Conserves lines [r] currency)
    (hsupported : (currencyExponents.lookup r.currency).isSome = true) :
    ({ a with receipts := R, journals := J, entries := E } : Accounts).Conserved where
  balanced old hold := by
    change old ∈ J.rows at hold
    rw [hJ, List.mem_append, List.mem_singleton] at hold
    rcases hold with hold | rfl
    · have hsame := entriesOf_post_other (a := a) hJ hE hlines hold
      obtain ⟨hcur, htot⟩ := h.balanced old hold
      rw [← hsame] at hcur htot
      exact ⟨hcur, htot⟩
    · have hself := entriesOf_post_self (a := a) hJ hE hlines hclosed
      rw [← hself] at hcurrency htotal
      exact ⟨hcurrency, htotal⟩
  conserves currency := by
    have happend := (h.conserves currency).append (hconserves currency)
    rw [← hR, ← hE] at happend
    exact happend
  journaled old hold hknown := by
    obtain ⟨hself, hother⟩ := journalsOf_post hR hJ hclosed hreceipt
    change old ∈ R.rows at hold
    rw [hR, List.mem_append, List.mem_singleton] at hold
    rcases hold with hold | rfl
    · obtain ⟨journal, hjournal⟩ := h.journaled old hold hknown
      exact ⟨journal, (hother old hold).trans hjournal⟩
    · exact ⟨j, hself⟩
  supported old hold hknown := by
    change old ∈ R.rows at hold
    rw [hR, List.mem_append, List.mem_singleton] at hold
    rcases hold with hold | rfl
    · exact h.supported old hold hknown
    · exact hsupported

end Receive

end Accounts

/-- The total of an order is its subtotal and its VAT. -/
theorem totalMinor_eq {db : Db} {o : Order} (ho : o ∈ db.orders.rows) : o.totalMinor = o.subtotalMinor + o.vatMinor := by
  have hcheck := db.orders.valid.check o ho
  simp only [orderSchema, Bool.and_eq_true, decide_eq_true_eq] at hcheck
  exact hcheck.2

/-- An ingestion conserves the money. -/
theorem Accounts.Conserved.ingested {db db' : Db} (h : db.accounts.Conserved) (hreconciled : Reconciled db)
    {settings : Settings} {draws : Draws} {advice : RemittanceAdvice} {now : Time}
    (heffect : IngestEffect settings draws advice now db db') :
    db'.accounts.Conserved := by
  cases heffect with
  | replayed receipt hmem hreference => exact h
  | unknown payloadHash R A hR => exact h.receive hR rfl
  | mismatched intent payloadHash R J E M A hintent hstatus hR hJ hE hsupported =>
    refine h.post hR hJ hE hreconciled.closed rfl ?_ ?_ ?_ (Conserves.mismatched hstatus rfl rfl _ _) hsupported
    · intro e he
      simp only [unappliedEntries, List.mem_cons, List.not_mem_nil, or_false] at he
      rcases he with rfl | rfl <;> rfl
    · intro e he
      simp only [unappliedEntries, List.mem_cons, List.not_mem_nil, or_false] at he
      rcases he with rfl | rfl <;> rfl
    · simp [journalTotal, unappliedEntries]
  | settled intent order payloadHash R O T I J E M A hintent hstatus horder hid hawaiting hR hO hT hI hJ hE
      hsupported =>
    obtain ⟨hamount, hcurrency, -⟩ := classify_matched hstatus
    -- The intent of an order that awaits payment is over the order's total.
    have hdossier := hreconciled.dossier order horder
    unfold Accounts.Dossier at hdossier
    rw [hawaiting] at hdossier
    obtain ⟨i, hi⟩ := hdossier
    obtain rfl : intent = i := Accounts.eq_of_mem_intentsOf hi.intents hintent hid.symm
    have htotal := totalMinor_eq horder
    have hsettled : ∀ currency, Conserves (settlementEntries order (draws.uuid 1) now)
        [newReceipt (draws.uuid 0) (some intent) advice payloadHash now] currency :=
      Conserves.settled hstatus (hamount.symm.trans hi.amount) (hcurrency.symm.trans hi.currency) htotal _ _
    have hreceipt : (currencyExponents.lookup advice.currency).isSome = true := by
      rw [← hcurrency, hi.currency]
      exact hsupported
    have hpost := h.post hR hJ hE hreconciled.closed rfl (Accounts.settlementEntries_journalId order _ now) ?_ ?_
      hsettled hreceipt
    · exact hpost.intents I
    · intro e he
      simp only [settlementEntries, List.mem_cons, List.not_mem_nil, or_false] at he
      rcases he with rfl | rfl | rfl <;> rfl
    · simp [journalTotal, settlementEntries, htotal]

/-- Every transaction conserves the money. -/
theorem Accounts.Conserved.step (settings : Settings) (s : Platform) (e : Event) (hreconciled : Reconciled s.db)
    (h : s.db.accounts.Conserved) : (TaxStamp.step settings s e).db.accounts.Conserved := by
  have hchange := step_change settings s e
  generalize (TaxStamp.step settings s e).db = db' at hchange ⊢
  cases hchange with
  | sameCore e db' hsame =>
    rw [Db.accounts, hsame.paymentIntents, hsame.paymentReceipts, hsame.journals, hsame.ledgerEntries]
    exact h
  | submitted compliance draws actor command now key draft compliant O T A hdraft hfresh hO hT => exact h
  | decided draws actor command now key order P db₁ A horder hid hstatus hrole hsubmitter hfirst hP heffect =>
    cases heffect with
    | rejected O T hdecision hO hT => exact h
    | recorded hdecision hopen => exact h
    | opened O T I M hdecision hfull hO hT hI => exact h.intents I
  | cancelled draws actor orderId reason now order O T A horder hid hmay hlegal hO hT => exact h
  | ingested draws advice now db' heffect => exact h.ingested hreconciled heffect
  | issued draws orderId chunkSize now db' heffect =>
    cases heffect
    exact h
  | inspected draws actor command now db' heffect =>
    cases heffect
    exact h
  | activated index draws actor now key a db' ha heffect =>
    cases heffect
    exact h
  | retired e db' heffect =>
    cases heffect
    exact h

/-- The money is conserved after every run. -/
theorem Accounts.Conserved.run (settings : Settings) (companies : Table companySchema)
    (tariffs : Table tariffSchema) (events : List Event) :
    (Lib.run (TaxStamp.step settings) (Platform.initial companies tariffs) events).db.accounts.Conserved := by
  have hinv := run_invariant (fun s => Reconciled s.db ∧ s.db.accounts.Conserved)
    (fun s e h => ⟨h.1.step settings s e, h.2.step settings s e h.1⟩) (Platform.initial companies tariffs)
    ⟨Reconciled.initial companies tariffs, ?_⟩ events
  · exact hinv.2
  · refine ⟨?_, Conserves.nil, ?_, ?_⟩ <;> intro x hx <;> cases hx

/-- In a supported currency the balance of an account is its debit-positive total. -/
theorem accountBalance_eq {account : Account} {currency : String} {db : Db}
    (hsupported : (currencyExponents.lookup currency).isSome = true) :
    accountBalance account currency db =
      .ok (⟨netTotal db.ledgerEntries.rows account currency, currency, hsupported⟩, db) :=
  accountBalance_ok.mpr ⟨rfl, rfl, rfl⟩

/-- In an unsupported currency there is no balance. -/
theorem accountBalance_unsupported {account : Account} {currency : String} {db : Db}
    (hunsupported : ¬(currencyExponents.lookup currency).isSome = true) (result : Money × Db) :
    accountBalance account currency db ≠ .ok result := by
  intro h
  obtain ⟨-, hcurrency, -⟩ := accountBalance_ok.mp h
  exact hunsupported (hcurrency ▸ result.1.supported)

/-- Funds conservation: after every run all journals balance in their currency; in every supported currency
the balances account for the receipts, and in any other there is neither a balance nor a receipt that moved
money; and every receipt that moved money has exactly one journal. -/
theorem funds_conserved (settings : Settings) (companies : Table companySchema) (tariffs : Table tariffSchema)
    (events : List Event) :
    let db := (Lib.run (step settings) (Platform.initial companies tariffs) events).db
    let received := receivedTotal db.paymentReceipts.rows
    (∀ j ∈ db.journals.rows, db.accounts.Balanced j) ∧
      (∀ currency, (currencyExponents.lookup currency).isSome = true →
        ∃ bank duty vat unapplied : Money,
          accountBalance .bankCollections currency db = .ok (bank, db) ∧
          accountBalance .dutyPayable currency db = .ok (duty, db) ∧
          accountBalance .vatPayable currency db = .ok (vat, db) ∧
          accountBalance .unappliedReceipts currency db = .ok (unapplied, db) ∧
          bank.minor = received .matched currency + received .amountMismatch currency ∧
          -(duty.minor + vat.minor) = received .matched currency ∧
          -unapplied.minor = received .amountMismatch currency) ∧
      (∀ currency, ¬(currencyExponents.lookup currency).isSome = true →
        (∀ account result, accountBalance account currency db ≠ .ok result) ∧
          ∀ r ∈ db.paymentReceipts.rows, r.currency = currency → r.status = .unknownReference) ∧
      ∀ r ∈ db.paymentReceipts.rows, r.status = .matched ∨ r.status = .amountMismatch →
        ∃ j, db.accounts.journalsOf r.id = [j] := by
  intro db received
  have h : db.accounts.Conserved := Accounts.Conserved.run settings companies tariffs events
  refine ⟨h.balanced, fun currency hsupported => ?_, fun currency hunsupported => ⟨?_, ?_⟩, ?_⟩
  · obtain ⟨hbank, hduty, hunapplied⟩ := h.conserves currency
    exact ⟨_, _, _, _, accountBalance_eq hsupported, accountBalance_eq hsupported, accountBalance_eq hsupported,
      accountBalance_eq hsupported, hbank, hduty, hunapplied⟩
  · exact fun account result => accountBalance_unsupported hunsupported result
  · rintro r hr rfl
    by_contra hknown
    exact hunsupported (h.supported r hr hknown)
  · intro r hr hstatus
    apply h.journaled r hr
    rcases hstatus with hs | hs <;> rw [hs] <;> decide

/-- The sample order receives one naira and then its exact amount. -/
def sampleMispaid : List Event :=
  sampleApproved ++ [sampleRemittance 3 "BANK-1" 100, sampleRemittance 4 "BANK-2" 1344]

/-- The bank holds both remittances of the sample order, and the first is posted once. -/
theorem funds_conserved_sample :
    let db := (Lib.run (step sampleSettings) samplePlatform sampleMispaid).db
    (∃ bank, accountBalance .bankCollections "NGN" db = .ok (bank, db) ∧ bank.minor = 1444) ∧
      ∃ r ∈ db.paymentReceipts.rows, r.status = .amountMismatch ∧ ∃ j, db.accounts.journalsOf r.id = [j] := by
  have hconserved := funds_conserved sampleSettings sampleCompanies sampleTariffs sampleMispaid
  have hreceipts :
      let receipts := (Lib.run (step sampleSettings) samplePlatform sampleMispaid).db.paymentReceipts.rows
      receivedTotal receipts .matched "NGN" + receivedTotal receipts .amountMismatch "NGN" = 1444 ∧
        ∃ r ∈ receipts, r.status = .amountMismatch := by
    decide +kernel
  generalize (Lib.run (step sampleSettings) samplePlatform sampleMispaid).db = db at hconserved hreceipts ⊢
  obtain ⟨-, hsupported, -, hjournaled⟩ := hconserved
  obtain ⟨bank, -, -, -, hread, -, -, -, hbank, -, -⟩ := hsupported "NGN" rfl
  obtain ⟨htotal, r, hr, hstatus⟩ := hreceipts
  exact ⟨⟨bank, hread, hbank.trans htotal⟩, r, hr, hstatus, hjournaled r hr (.inr hstatus)⟩

end TaxStamp
