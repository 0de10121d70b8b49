import TaxStamp.Conservation
import TaxStamp.LedgerRequests
import TaxStamp.Lib.KeyedSums
import TaxStamp.TerminalIntents

/-!
# The external ledger against the duty owed

Three records speak of the money that has been paid exactly: the settled payment intents, the
internal ledger, where duty and VAT become payable, and the external ledger, which the workers
write over a network that loses their answers. In every currency the workers have caused
transfers of no more than is payable, and what the external ledger holds for the posted
intents is the whole of it exactly when every settled payment has its intent posted.
-/

namespace TaxStamp

open Lib

/-- The amount of the settled payments in a currency. -/
def settledTotal (payments : List PaymentIntent) (currency : String) : ℤ :=
  ((payments.filter fun p => p.status = .settled ∧ p.currency = currency).map PaymentIntent.amountMinor).sum

/-- The duty and VAT payable in a currency, by the internal ledger. -/
def payableTotal (db : Db) (currency : String) : ℤ :=
  -(netTotal db.ledgerEntries.rows .dutyPayable currency + netTotal db.ledgerEntries.rows .vatPayable currency)

/-- The ledger intents in a currency. -/
def Subledger.intentsIn (s : Subledger) (currency : String) : List TigerBeetleLedgerIntent :=
  s.intents.filter fun i => i.currency = currency

/-- The posted ledger intents in a currency. -/
def Subledger.postedIn (s : Subledger) (currency : String) : List TigerBeetleLedgerIntent :=
  (s.intentsIn currency).filter fun i => i.state = .posted

/-- The transfers that workers have caused for the ledger intents in a currency. -/
def Subledger.causedIn (s : Subledger) (currency : String) : List TigerBeetleTransfer :=
  s.caused.filter fun t => (s.intentsIn currency).any fun i => i.tigerbeetleTransferId = t.transferId

/-- The amount under an identifier in the external ledger. -/
def Subledger.heldUnder (s : Subledger) (transferId : String) : ℤ :=
  match s.external.get transferId with
  | some t => t.amountMinor
  | none => 0

/-- What the external ledger holds for the posted intents in a currency. -/
def Subledger.externalTotal (s : Subledger) (currency : String) : ℤ :=
  ((s.postedIn currency).map fun i => s.heldUnder i.tigerbeetleTransferId).sum

variable {settings : Settings} {db db' : Db}

/-! ### Settled payments -/

/-- The amount that a payment contributes to the settled ones in a currency. -/
def PaymentIntent.settledAmount (currency : String) (p : PaymentIntent) : ℤ :=
  if p.status = .settled ∧ p.currency = currency then p.amountMinor else 0

/-- A filtered sum is a sum of contributions. -/
theorem settledTotal_eq (payments : List PaymentIntent) (currency : String) :
    settledTotal payments currency = (payments.map (PaymentIntent.settledAmount currency)).sum := by
  induction payments with
  | nil => rfl
  | cons p rest ih =>
    rw [settledTotal] at ih ⊢
    rw [List.map_cons, List.sum_cons, ← ih, List.filter_cons, PaymentIntent.settledAmount]
    by_cases hp : p.status = .settled ∧ p.currency = currency
    · rw [if_pos (decide_eq_true hp), if_pos hp, List.map_cons, List.sum_cons]
    · rw [if_neg (by simpa using hp), if_neg hp, Int.zero_add]

/-- The payments of a table have different identifiers. -/
theorem nodup_paymentIds (I : Table paymentIntentSchema) : (I.rows.map PaymentIntent.id).Nodup := by
  rw [List.Nodup, List.pairwise_map]
  apply I.valid.distinct.imp
  intro a b hdistinct hid
  simp [paymentIntentSchema, hid] at hdistinct

/-- The settled payments are what was received exactly. -/
def SettledReceived (db : Db) : Prop :=
  ∀ currency, settledTotal db.paymentIntents.rows currency = receivedTotal db.paymentReceipts.rows .matched currency

/-- A receipt that is not exact does not count as received. -/
theorem receivedTotal_concat_other {receipts : List PaymentReceipt} {r : PaymentReceipt} (hstatus : r.status ≠ .matched)
    (currency : String) : receivedTotal (receipts ++ [r]) .matched currency = receivedTotal receipts .matched currency := by
  rw [receivedTotal_append, receivedTotal, receivedTotal, List.filter_cons, List.filter_nil, if_neg (by simp [hstatus])]
  simp

/-- An ingestion settles what it receives exactly. -/
theorem SettledReceived.ingested {draws : Draws} {advice : RemittanceAdvice} {now : Time} (h : SettledReceived db)
    (heffect : IngestEffect settings draws advice now db db') : SettledReceived db' := by
  cases heffect with
  | replayed receipt hmem hreference => exact h
  | unknown payloadHash R A hR =>
    intro currency
    change _ = receivedTotal R.rows .matched currency
    rw [hR, receivedTotal_concat_other fun hmatched => by cases hmatched]
    exact h currency
  | mismatched intent payloadHash R J E M A hintent hstatus hR =>
    intro currency
    change _ = receivedTotal R.rows .matched currency
    rw [hR, receivedTotal_concat_other]
    · exact h currency
    · change classify (some intent) advice ≠ .matched
      rw [hstatus]
      decide
  | settled intent order payloadHash R O T I J E M A hintent hstatus horder hid hawaiting hR hO hT hI =>
    intro currency
    obtain ⟨hamount, hcurrency, hopen⟩ := classify_matched hstatus
    change settledTotal I.rows currency = receivedTotal R.rows .matched currency
    rw [hI, hR, receivedTotal_append, ← h currency, settledTotal_eq, settledTotal_eq,
      sum_map_rewrite PaymentIntent.id (fun p => p.settle now) hintent (nodup_paymentIds _)]
    -- The payment was open and is settled now; the receipt has its amount and its currency.
    have hbefore : intent.settledAmount currency = 0 := by
      rw [PaymentIntent.settledAmount, if_neg]
      intro hsettled
      rw [hopen] at hsettled
      cases hsettled.1
    have hafter : (intent.settle now).settledAmount currency = receivedTotal
        [newReceipt (draws.uuid 0) (some intent) advice payloadHash now] .matched currency := by
      by_cases hc : advice.currency = currency
      · simp [PaymentIntent.settledAmount, PaymentIntent.settle, receivedTotal, newReceipt, hstatus, hcurrency, hamount, hc]
      · simp [PaymentIntent.settledAmount, PaymentIntent.settle, receivedTotal, newReceipt, hcurrency, hc]
    omega

/-- Every transaction keeps the settled payments and the exact receipts equal. -/
theorem SettledReceived.step (settings : Settings) (s : Platform) (e : Event) (h : SettledReceived s.db) :
    SettledReceived (TaxStamp.step settings s e).db := by
  have hchange := step_change settings s e
  generalize (TaxStamp.step settings s e).db = db' at hchange ⊢
  cases hchange with
  | sameCore e db' hsame =>
    intro currency
    rw [hsame.paymentIntents, hsame.paymentReceipts]
    exact h currency
  | submitted compliance draws actor command now key draft compliant O T A hdraft hfresh hO hT => exact h
  | decided draws actor command now key order P db₁ A horder hid hstatus hrole hsubmitter hfirst hP heffect =>
    cases heffect with
    | rejected O T hdecision hO hT => exact h
    | recorded hdecision hopen => exact h
    | opened O T I M hdecision hfull hO hT hI =>
      intro currency
      change settledTotal I.rows currency = _
      rw [hI, settledTotal_eq, List.map_append, List.sum_append, ← settledTotal_eq]
      have hopen : (newIntent draws order now).settledAmount currency = 0 := by
        rw [PaymentIntent.settledAmount, if_neg]
        intro hsettled
        cases hsettled.1
      change settledTotal s.db.paymentIntents.rows currency + ([(newIntent draws order now).settledAmount currency]).sum = _
      rw [hopen]
      exact (Int.add_zero _).trans (h currency)
  | cancelled draws actor orderId reason now order O T A horder hid hmay hlegal hO hT => exact h
  | ingested draws advice now db' heffect => exact h.ingested heffect
  | issued draws orderId chunkSize now db' heffect =>
    cases heffect
    exact h
  | inspected draws actor command now db' heffect =>
    cases heffect
    exact h
  | activated index draws actor now key a db' ha heffect =>
    cases heffect
    exact h
  | retired e db' heffect =>
    cases heffect
    exact h

/-! ### Paid intents -/

/-- The payment of the intent is settled over its amount in its currency. -/
def TigerBeetleLedgerIntent.FundedIn (i : TigerBeetleLedgerIntent) (db : Db) : Prop :=
  ∃ p ∈ db.paymentIntents.rows, p.id = i.paymentIntentId ∧ p.status = .settled ∧ p.amountMinor = i.amountMinor ∧
    p.currency = i.currency

/-- A settled payment stays settled, over the same amount in the same currency. -/
theorem TigerBeetleLedgerIntent.FundedIn.step {i : TigerBeetleLedgerIntent} {s : Platform} (h : i.FundedIn s.db)
    (settings : Settings) (e : Event) : i.FundedIn (TaxStamp.step settings s e).db := by
  obtain ⟨p, hp, hid, hsettled, hamount, hcurrency⟩ := h
  cases (step_change settings s e).intentStep with
  | same hI => exact ⟨p, hI ▸ hp, hid, hsettled, hamount, hcurrency⟩
  | opened draws order now horder hI =>
    exact ⟨p, hI ▸ List.mem_append_left _ hp, hid, hsettled, hamount, hcurrency⟩
  | settled intent now hI =>
    refine ⟨if p.id = intent.id then p.settle now else p, ?_, ?_⟩
    · rw [hI]
      exact List.mem_map_of_mem hp
    · split
      · exact ⟨hid, rfl, hamount, hcurrency⟩
      · exact ⟨hid, hsettled, hamount, hcurrency⟩

/-- An intent is funded when one with its material is. -/
theorem TigerBeetleLedgerIntent.FundedIn.of_material {i i' : TigerBeetleLedgerIntent} (h : i.FundedIn db)
    (hmaterial : i'.material = i.material) : i'.FundedIn db := by
  simp only [TigerBeetleLedgerIntent.material, LedgerIntentRequest.mk.injEq] at hmaterial
  obtain ⟨hpayment, -, -, -, -, -, -, hamount, hcurrency⟩ := hmaterial
  rw [FundedIn, hpayment, hamount, hcurrency]
  exact h

/-- All ledger intents are funded. -/
def LedgerFunded (db : Db) : Prop := ∀ i ∈ db.tigerbeetleLedgerIntents.rows, i.FundedIn db

/-- Every transaction keeps the ledger intents funded. -/
theorem LedgerFunded.step (settings : Settings) (s : Platform) (e : Event) (h : LedgerFunded s.db) :
    LedgerFunded (TaxStamp.step settings s e).db := by
  -- An intent of the new database is an old one, or a request has just added it.
  suffices horigin : ∀ i' ∈ (TaxStamp.step settings s e).db.tigerbeetleLedgerIntents.rows,
      (∃ i ∈ s.db.tigerbeetleLedgerIntents.rows, i'.material = i.material) ∨ i'.FundedIn s.db by
    intro i' hi'
    obtain ⟨i, hi, hmaterial⟩ | hnew := horigin i' hi'
    · exact ((h i hi).step settings e).of_material hmaterial
    · exact hnew.step settings e
  intro i' hi'
  by_cases hwork : ∃ work, e = .ledgerWork work
  · obtain ⟨work, rfl⟩ := hwork
    obtain ⟨i, hi, hmaterial, -⟩ := work.keepsMaterial settings s.db i' hi'
    exact .inl ⟨i, hi, hmaterial⟩
  · obtain hsame | ⟨draws, hcreate⟩ := step_requestsOnly settings s e (not_exists.mp hwork)
    · rw [hsame] at hi'
      exact .inl ⟨i', hi', rfl⟩
    · generalize (TaxStamp.step settings s e).db = db' at hi' hcreate
      cases hcreate with
      | reused => exact .inl ⟨i', hi', rfl⟩
      | created intent payment L M A hpayment hid hsettled hamount hcurrency hready hL =>
        change i' ∈ L.rows at hi'
        rw [hL, List.mem_append, List.mem_singleton] at hi'
        obtain hold | rfl := hi'
        · exact .inl ⟨i', hold, rfl⟩
        · exact .inr ⟨payment, hpayment, hid, hsettled, hamount, hcurrency⟩

/-! ### The subledger -/

/-- The platform under the workers runs like the platform. -/
theorem subledger_platform (settings : Settings) (companies : Table companySchema) (tariffs : Table tariffSchema)
    (events : List SubledgerEvent) :
    ∃ events', (run (subledgerStep settings) (.initial companies tariffs) events).platform =
      run (step settings) (.initial companies tariffs) events' := by
  refine run_simulates Subledger.platform (fun s e => ?_) (Subledger.initial companies tariffs) events
  cases e with
  | service e =>
    by_cases hwork : ∃ work, e = .ledgerWork work
    · obtain ⟨work, rfl⟩ := hwork
      exact ⟨[], rfl⟩
    · refine ⟨[e], ?_⟩
      cases e with
      | ledgerWork work => exact absurd ⟨work, rfl⟩ hwork
      | _ => rfl
  | submit intentId => exact ⟨[], rfl⟩
  | foreign transfer => exact ⟨[], rfl⟩
  | worker index e =>
    unfold subledgerStep
    dsimp only
    split
    · exact ⟨[], rfl⟩
    · rename_i w _
      obtain hsame | ⟨work, hstep, -⟩ := submit_platform settings s w e
      · exact ⟨[], hsame⟩
      · exact ⟨[.ledgerWork work], hstep⟩

section Totals

variable {s : Subledger} (hsound : s.Sound) (hfunded : LedgerFunded s.platform.db)

/-- The settled payments in a currency. -/
def Subledger.paidIn (s : Subledger) (currency : String) : List PaymentIntent :=
  s.platform.db.paymentIntents.rows.filter fun p => p.status = .settled ∧ p.currency = currency

/-- A settled payment has a positive amount. -/
theorem paidIn_positive {currency : String} : ∀ p ∈ s.paidIn currency, 0 < p.amountMinor := by
  intro p hp
  have hcheck := s.platform.db.paymentIntents.valid.check p (List.mem_filter.mp hp).1
  exact of_decide_eq_true hcheck

/-- The settled payments have different identifiers. -/
theorem paidIn_distinct (s : Subledger) (currency : String) : ((s.paidIn currency).map PaymentIntent.id).Nodup :=
  (nodup_paymentIds _).sublist (List.filter_sublist.map _)

/-- The ledger intents have different payments. -/
theorem intentsIn_payments (s : Subledger) (currency : String) :
    ((s.intentsIn currency).map TigerBeetleLedgerIntent.paymentIntentId).Nodup := by
  rw [List.Nodup, List.pairwise_map]
  apply (s.platform.db.tigerbeetleLedgerIntents.valid.distinct.sublist List.filter_sublist).imp
  intro a b hdistinct hpayment
  simp [tigerbeetleLedgerIntentSchema, hpayment] at hdistinct

include hfunded in
/-- The payment of a ledger intent covers it. -/
theorem intentsIn_covered (currency : String) :
    Covered TigerBeetleLedgerIntent.paymentIntentId TigerBeetleLedgerIntent.amountMinor PaymentIntent.id
      PaymentIntent.amountMinor (s.intentsIn currency) (s.paidIn currency) := by
  intro i hi
  obtain ⟨hmem, hcurrency⟩ := List.mem_filter.mp hi
  obtain ⟨p, hp, hid, hsettled, hamount, hsame⟩ := hfunded i hmem
  refine ⟨p, List.mem_filter.mpr ⟨hp, ?_⟩, hid, hamount.ge⟩
  exact decide_eq_true ⟨hsettled, hsame.trans (of_decide_eq_true hcurrency)⟩

include hsound in
/-- The intent of a caused transfer covers it. -/
theorem causedIn_covered (currency : String) :
    Covered TigerBeetleTransfer.transferId TigerBeetleTransfer.amountMinor TigerBeetleLedgerIntent.tigerbeetleTransferId
      TigerBeetleLedgerIntent.amountMinor (s.causedIn currency) (s.intentsIn currency) := by
  intro t ht
  obtain ⟨hcaused, hasked⟩ := List.mem_filter.mp ht
  obtain ⟨i, hi, hid⟩ := List.any_eq_true.mp hasked
  have hid : i.tigerbeetleTransferId = t.transferId := of_decide_eq_true hid
  obtain ⟨-, i', hi', hmatches⟩ := hsound.caused t hcaused
  -- The intent that the transfer matches has the same identifier, so it is this one.
  have hsame : i' = i := by
    apply s.platform.db.tigerbeetleLedgerIntents.eq_of_clash hi' (List.mem_filter.mp hi).1
    simp [tigerbeetleLedgerIntentSchema, hid, transferId_of_matches hmatches]
  refine ⟨i, hi, hid, ?_⟩
  rw [← hsame]
  simp only [transferMatches, Bool.and_eq_true, decide_eq_true_eq] at hmatches
  exact hmatches.2.le

include hsound in
/-- What the external ledger holds for a posted intent is its amount. -/
theorem heldUnder_of_posted {i : TigerBeetleLedgerIntent} (hi : i ∈ s.intents) (hposted : i.state = .posted) :
    s.heldUnder i.tigerbeetleTransferId = i.amountMinor := by
  obtain ⟨t, hget, hmatches⟩ := hsound.confirmed i hi (.inr hposted)
  simp only [transferMatches, Bool.and_eq_true, decide_eq_true_eq] at hmatches
  rw [Subledger.heldUnder, hget]
  exact hmatches.2

include hsound hfunded

/-- The workers have caused no more than was settled. -/
theorem causedIn_le (currency : String) :
    ((s.causedIn currency).map TigerBeetleTransfer.amountMinor).sum ≤
      settledTotal s.platform.db.paymentIntents.rows currency := by
  have hintents : ∀ i ∈ s.intentsIn currency, 0 ≤ i.amountMinor := by
    intro i hi
    have hcheck := s.platform.db.tigerbeetleLedgerIntents.valid.check i (List.mem_filter.mp hi).1
    simp only [tigerbeetleLedgerIntentSchema, Bool.and_eq_true, decide_eq_true_eq] at hcheck
    omega
  calc ((s.causedIn currency).map TigerBeetleTransfer.amountMinor).sum
      ≤ ((s.intentsIn currency).map TigerBeetleLedgerIntent.amountMinor).sum :=
        (causedIn_covered hsound currency).sum_le (hsound.once.sublist (List.filter_sublist.map _)) hintents
    _ ≤ ((s.paidIn currency).map PaymentIntent.amountMinor).sum :=
        (intentsIn_covered hfunded currency).sum_le (intentsIn_payments s currency) fun p hp => (paidIn_positive p hp).le

/-- A posted intent is covered by its payment with what the external ledger holds for it. -/
theorem postedIn_covered (currency : String) :
    Covered TigerBeetleLedgerIntent.paymentIntentId (fun i => s.heldUnder i.tigerbeetleTransferId) PaymentIntent.id
      PaymentIntent.amountMinor (s.postedIn currency) (s.paidIn currency) := by
  intro i hi
  obtain ⟨hmem, hposted⟩ := List.mem_filter.mp hi
  obtain ⟨p, hp, hid, hle⟩ := intentsIn_covered hfunded currency i hmem
  refine ⟨p, hp, hid, ?_⟩
  change s.heldUnder i.tigerbeetleTransferId ≤ p.amountMinor
  rw [heldUnder_of_posted hsound (List.mem_filter.mp hmem).1 (of_decide_eq_true hposted)]
  exact hle

/-- The external ledger holds no more for the posted intents than was settled, and all of it exactly when every
settled payment has its intent posted. -/
theorem externalTotal_le (currency : String) :
    s.externalTotal currency ≤ settledTotal s.platform.db.paymentIntents.rows currency ∧
      (s.externalTotal currency = settledTotal s.platform.db.paymentIntents.rows currency ↔
        ∀ p ∈ s.paidIn currency, ∃ i ∈ s.postedIn currency, i.paymentIntentId = p.id) := by
  have hcovered := postedIn_covered hsound hfunded currency
  have hdistinct : ((s.postedIn currency).map TigerBeetleLedgerIntent.paymentIntentId).Nodup :=
    (intentsIn_payments s currency).sublist (List.filter_sublist.map _)
  have hexact : ∀ i ∈ s.postedIn currency, ∀ p ∈ s.paidIn currency, p.id = i.paymentIntentId →
      s.heldUnder i.tigerbeetleTransferId = p.amountMinor := by
    intro i hi p hp hid
    obtain ⟨hmem, hposted⟩ := List.mem_filter.mp hi
    have hin : i ∈ s.intents := (List.mem_filter.mp hmem).1
    obtain ⟨p', hp', hid', -, hamount, -⟩ := hfunded i hin
    have hsame : p' = p := by
      apply s.platform.db.paymentIntents.eq_of_clash hp' (List.mem_filter.mp hp).1
      simp [paymentIntentSchema, hid, hid']
    rw [heldUnder_of_posted hsound hin (of_decide_eq_true hposted), ← hamount, hsame]
  refine ⟨hcovered.sum_le hdistinct fun p hp => (paidIn_positive p hp).le, ?_⟩
  apply hcovered.sum_eq_iff hdistinct (paidIn_distinct s currency) ?_ paidIn_positive hexact
  intro i hi
  obtain ⟨hmem, -⟩ := List.mem_filter.mp hi
  obtain ⟨p, hp, hid, -⟩ := intentsIn_covered hfunded currency i hmem
  rw [hexact i hi p hp hid]
  exact (paidIn_positive p hp).le

end Totals

/-- The external ledger never runs ahead of the internal one. After every interleaving of the services and any number
of workers, with crashes and lost answers anywhere, and in every currency, the settled payments add up to the duty and
VAT payable by the internal ledger; the transfers that workers have caused add up to no more; and what the external
ledger holds for the posted intents is no more either, and is all of it exactly when every settled payment in the
currency has a posted intent. -/
theorem external_within_payable (settings : Settings) (companies : Table companySchema) (tariffs : Table tariffSchema)
    (events : List SubledgerEvent) (currency : String) :
    let s := run (subledgerStep settings) (.initial companies tariffs) events
    let payable := payableTotal s.platform.db currency
    settledTotal s.platform.db.paymentIntents.rows currency = payable ∧
      ((s.causedIn currency).map TigerBeetleTransfer.amountMinor).sum ≤ payable ∧
      s.externalTotal currency ≤ payable ∧
      (s.externalTotal currency = payable ↔
        ∀ p ∈ s.platform.db.paymentIntents.rows, p.status = .settled → p.currency = currency →
          ∃ i ∈ s.intents, i.paymentIntentId = p.id ∧ i.state = .posted) := by
  intro s payable
  have hsound : s.Sound := sound_run settings companies tariffs events
  obtain ⟨events', hplatform⟩ := subledger_platform settings companies tariffs events
  have hinv := run_invariant (fun P : Platform => SettledReceived P.db ∧ LedgerFunded P.db)
    (fun P e h => ⟨h.1.step settings P e, h.2.step settings P e⟩) (.initial companies tariffs)
    ⟨fun _ => rfl, fun i hi => by cases hi⟩ events'
  rw [← hplatform] at hinv
  obtain ⟨hreceived, hfunded⟩ := hinv
  have hpayable : settledTotal s.platform.db.paymentIntents.rows currency = payable := by
    have hconserved := (Accounts.Conserved.run settings companies tariffs events').conserves currency
    rw [← hplatform] at hconserved
    exact (hreceived currency).trans hconserved.duty.symm
  obtain ⟨hle, hiff⟩ := externalTotal_le hsound hfunded currency
  rw [← hpayable]
  refine ⟨rfl, causedIn_le hsound hfunded currency, hle, hiff.trans ?_⟩
  constructor
  · intro h p hp hsettled hcurrency
    obtain ⟨i, hi, hid⟩ := h p (List.mem_filter.mpr ⟨hp, decide_eq_true ⟨hsettled, hcurrency⟩⟩)
    obtain ⟨hmem, hposted⟩ := List.mem_filter.mp hi
    exact ⟨i, (List.mem_filter.mp hmem).1, hid, of_decide_eq_true hposted⟩
  · intro h p hp
    obtain ⟨hmem, hpaid⟩ := List.mem_filter.mp hp
    obtain ⟨hsettled, hcurrency⟩ := of_decide_eq_true hpaid
    obtain ⟨i, hi, hid, hposted⟩ := h p hmem hsettled hcurrency
    obtain ⟨p', hp', hid', -, -, hsame⟩ := hfunded i hi
    have hp : p' = p := by
      apply s.platform.db.paymentIntents.eq_of_clash hp' hmem
      simp [paymentIntentSchema, hid, hid']
    have hin : i ∈ s.intentsIn currency :=
      List.mem_filter.mpr ⟨hi, decide_eq_true (hsame.symm.trans ((congrArg PaymentIntent.currency hp).trans hcurrency))⟩
    exact ⟨i, List.mem_filter.mpr ⟨hin, decide_eq_true hposted⟩, hid⟩

end TaxStamp
