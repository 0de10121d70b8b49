import TaxStamp.LedgerTotals
import TaxStamp.Lib.Matching
import TaxStamp.ReconciliationRuns

/-!
# Reconciling the sandbox exports

An operator's script reads an export of each settlement system, a document from outside, and
reconciles both with the platform. It is to exit with zero exactly when the documents describe
the settled payments. A document describes them in any order and in any case of its currency
codes and states, so what it describes is compared with the payments themselves and not with
the rows that the parser makes of it.
-/

namespace TaxStamp

open Lib

/-- The Unicode tables of the interpreter, which differ between its versions outside ASCII. -/
structure UnicodeTables where
  upper : String → String
  isAlpha : String → Bool
  upper_ascii : ∀ text : String, (∀ c ∈ text.toList, c.toNat < 128) → upper text = String.ofList (text.toList.map Char.toUpper)
  isAlpha_ascii : ∀ text : String, (∀ c ∈ text.toList, c.toNat < 128) →
    (isAlpha text = true ↔ text ≠ "" ∧ ∀ c ∈ text.toList, c.isAlpha = true)

/-- The lower case of a text. Characters outside ASCII stand for themselves, since none of them has a letter of a
state as its lower case. -/
def lowerAscii (text : String) : String := String.ofList (text.toList.map Char.toLower)

/-- The state of a text. -/
def settlementState (text : String) : Except Fault SettlementState :=
  if lowerAscii text = SettlementState.settled.value then .ok .settled
  else if lowerAscii text = SettlementState.pending.value then .ok .pending
  else if lowerAscii text = SettlementState.failed.value then .ok .failed
  else .error (.valueError s!"{pyRepr (lowerAscii text)} is not a valid SettlementState")

section Parsing

variable (unicode : UnicodeTables) (provider : SettlementProvider)

/-- Build a row, refusing one that is not well formed. -/
def ExternalSettlement.make (reference externalId : String) (amountMinor : ℤ) (currency : String) (state : SettlementState) :
    Except Fault ExternalSettlement :=
  if hidentified : reference ≠ "" ∧ externalId ≠ "" then
    if hpositive : 0 < amountMinor then
      if hcoded : currency.length = 3 ∧ unicode.isAlpha currency = true then
        .ok ⟨provider, reference, externalId, amountMinor, currency, state, hidentified, hpositive, hcoded.1⟩
      else .error (.valueError "external settlement currency must be a three-letter code")
    else .error (.valueError "external settlement amount_minor must be positive")
  else .error (.valueError "external settlement requires reference and external_id")

/-- Read one settlement of an export. -/
def parseSettlement (entry : Json) : Except Fault ExternalSettlement :=
  match entry with
  | .obj fields =>
    match JsonObject.getD fields "reference", JsonObject.getD fields "external_id" with
    | .str reference, .str externalId =>
      match JsonObject.getD fields "amount_minor" with
      | .int amountMinor =>
        match JsonObject.getD fields "currency", JsonObject.getD fields "state" with
        | .str currency, .str state => do
          let state ← settlementState state
          ExternalSettlement.make unicode provider reference externalId amountMinor (unicode.upper currency) state
        | _, _ => .error .typeError
      | _ => .error .typeError
    | _, _ => .error .typeError
  | _ => .error .typeError

/-- Read the settlements of an export. -/
def parseSnapshot (document : JsonObject) : Except Fault (List ExternalSettlement) :=
  match document.getD "settlements" with
  | .arr entries => entries.mapM (parseSettlement unicode provider)
  | _ => .error .typeError

/-- Read the document of an export. -/
def snapshot (document : Json) : Except Fault (List ExternalSettlement) :=
  match document with
  | .obj fields => parseSnapshot unicode provider fields
  | _ => .error .typeError

end Parsing

/-- Reconcile the exports of both systems, and exit with zero when nothing is found. -/
def reconcileSandbox (unicode : UnicodeTables) (settings : Settings) (times : CreationTimes) (now : Time)
    (tigerbeetle mojaloop : Json) : Session ℤ := do
  let tigerbeetle ← Tx.lift (snapshot unicode .tigerbeetle tigerbeetle)
  let mojaloop ← Tx.lift (snapshot unicode .mojaloop mojaloop)
  let (report, _) ← runReconciliation settings times now 900 (tigerbeetle ++ mojaloop) [.tigerbeetle, .mojaloop]
  return if report.clean then 0 else 2

/-! ### What a document describes -/

/-- The settled payments. -/
def settledPayments (db : Db) : List PaymentIntent := db.paymentIntents.rows.filter fun p => p.status = .settled

/-- An entry describes a payment: it has its reference, its amount and, up to case, its currency, under an external
identifier, and says, up to case, that it is settled. -/
def Describes (unicode : UnicodeTables) (entry : Json) (p : PaymentIntent) : Prop :=
  ∃ fields externalId currency state, entry = .obj fields ∧ JsonObject.getD fields "reference" = .str p.reference ∧
    JsonObject.getD fields "external_id" = .str externalId ∧ externalId ≠ "" ∧
    JsonObject.getD fields "amount_minor" = .int p.amountMinor ∧
    JsonObject.getD fields "currency" = .str currency ∧ unicode.upper currency = p.currency ∧
    JsonObject.getD fields "state" = .str state ∧ lowerAscii state = SettlementState.settled.value

/-- A document describes the settled payments, each of them once and in some order. -/
def DescribesSettled (unicode : UnicodeTables) (document : Json) (db : Db) : Prop :=
  ∃ fields entries payments, document = .obj fields ∧ JsonObject.getD fields "settlements" = .arr entries ∧
    payments.Perm (settledPayments db) ∧ List.Forall₂ (Describes unicode) entries payments

/-- The entry of a settled payment as it is stored. -/
def exportEntry (p : PaymentIntent) : Json :=
  .obj [("reference", .str p.reference), ("external_id", .str p.reference), ("amount_minor", .int p.amountMinor),
    ("currency", .str p.currency), ("state", .str "settled")]

/-- The document of an export that holds the settled payments as they are stored. -/
def exportDocument (db : Db) : Json := .obj [("settlements", .arr ((settledPayments db).map exportEntry))]

/-! ### What the parser reads -/

section Reads

variable {unicode : UnicodeTables} {provider : SettlementProvider}

/-- An entry is read as a row. -/
def Reads (unicode : UnicodeTables) (provider : SettlementProvider) (entry : Json) (row : ExternalSettlement) : Prop :=
  ∃ fields currency state, entry = .obj fields ∧ JsonObject.getD fields "reference" = .str row.reference ∧
    JsonObject.getD fields "external_id" = .str row.externalId ∧
    JsonObject.getD fields "amount_minor" = .int row.amountMinor ∧
    JsonObject.getD fields "currency" = .str currency ∧ unicode.upper currency = row.currency ∧
    unicode.isAlpha row.currency = true ∧ JsonObject.getD fields "state" = .str state ∧
    lowerAscii state = row.state.value ∧ row.provider = provider

/-- A text has a state exactly when it is the state's text up to case. -/
theorem settlementState_ok {text : String} {state : SettlementState} :
    settlementState text = .ok state ↔ lowerAscii text = state.value := by
  rw [settlementState]
  split_ifs with hsettled hpending hfailed
  · rw [hsettled]
    cases state <;> decide
  · rw [hpending]
    cases state <;> decide
  · rw [hfailed]
    cases state <;> decide
  · cases state <;> simp_all

/-- The parser reads exactly these rows. -/
theorem parseSettlement_ok {entry : Json} {row : ExternalSettlement} :
    parseSettlement unicode provider entry = .ok row ↔ Reads unicode provider entry row := by
  constructor
  · intro h
    unfold parseSettlement at h
    split at h
    · rename_i fields
      split at h
      · rename_i reference externalId hreference hexternal
        split at h
        · rename_i amountMinor hamount
          split at h
          · rename_i currency state hcurrency hstate
            obtain ⟨state', hlower, hmake⟩ := Except.bind_ok.mp h
            unfold ExternalSettlement.make at hmake
            split_ifs at hmake with hidentified hpositive hcoded
            obtain rfl := Except.ok.inj hmake
            exact ⟨fields, currency, state, rfl, hreference, hexternal, hamount, hcurrency, rfl, hcoded.2, hstate,
              settlementState_ok.mp hlower, rfl⟩
          · cases h
        · cases h
      · cases h
    · cases h
  · intro h
    obtain ⟨fields, currency, state, rfl, hreference, hexternal, hamount, hcurrency, hupper, halpha, hstate, hlower,
      rfl⟩ := h
    simp only [parseSettlement, hreference, hexternal, hamount, hcurrency, hstate, settlementState_ok.mpr hlower,
      Except.bind_ok]
    refine ⟨row.state, rfl, ?_⟩
    rw [ExternalSettlement.make, dif_pos row.identified, dif_pos row.positive, hupper, dif_pos ⟨row.coded, halpha⟩]

/-- All entries of a list are read exactly when each of them is. -/
theorem mapM_parseSettlement {entries : List Json} {rows : List ExternalSettlement} :
    entries.mapM (parseSettlement unicode provider) = .ok rows ↔ List.Forall₂ (Reads unicode provider) entries rows := by
  induction entries generalizing rows with
  | nil =>
    rw [List.mapM_nil, List.forall₂_nil_left_iff, eq_comm]
    exact ⟨fun h => Except.ok.inj h, fun h => congrArg Except.ok h⟩
  | cons entry rest ih =>
    rw [List.mapM_cons, Except.bind_ok, List.forall₂_cons_left_iff]
    constructor
    · intro h
      obtain ⟨row, hrow, h⟩ := h
      obtain ⟨others, hothers, h⟩ := Except.bind_ok.mp h
      exact ⟨row, others, parseSettlement_ok.mp hrow, ih.mp hothers, (Except.ok.inj h).symm⟩
    · intro h
      obtain ⟨row, others, hrow, hothers, rfl⟩ := h
      exact ⟨row, parseSettlement_ok.mpr hrow, Except.bind_ok.mpr ⟨others, ih.mpr hothers, rfl⟩⟩

/-- The rows of a document are those of its list of settlements. -/
theorem snapshot_ok {document : Json} {rows : List ExternalSettlement} :
    snapshot unicode provider document = .ok rows ↔ ∃ fields entries, document = .obj fields ∧
      JsonObject.getD fields "settlements" = .arr entries ∧ List.Forall₂ (Reads unicode provider) entries rows := by
  constructor
  · intro h
    unfold snapshot parseSnapshot at h
    split at h
    · rename_i fields
      split at h
      · rename_i entries hentries
        exact ⟨fields, entries, rfl, hentries, mapM_parseSettlement.mp h⟩
      · cases h
    · cases h
  · intro h
    obtain ⟨fields, entries, rfl, hentries, hreads⟩ := h
    simp only [snapshot, parseSnapshot, hentries]
    exact mapM_parseSettlement.mpr hreads

/-- The rows of a document are those of its system. -/
theorem provider_of_snapshot {document : Json} {rows : List ExternalSettlement}
    (h : snapshot unicode provider document = .ok rows) : ∀ row ∈ rows, row.provider = provider := by
  intro row hrow
  obtain ⟨fields, entries, -, -, hreads⟩ := snapshot_ok.mp h
  obtain ⟨entry, -, hentry⟩ := exists_of_forall₂ hreads.flip hrow
  obtain ⟨-, -, -, -, -, -, -, -, -, -, -, -, hprovider⟩ := hentry
  exact hprovider

end Reads

/-! ### What the rows agree with -/

/-- The row is the payment's. -/
structure RowOf (row : ExternalSettlement) (p : PaymentIntent) : Prop where
  reference : row.reference = p.reference
  amount : row.amountMinor = p.amountMinor
  currency : row.currency = p.currency
  state : row.state = .settled

/-- The payment can be exported. -/
structure Exportable (unicode : UnicodeTables) (p : PaymentIntent) : Prop where
  reference : p.reference ≠ ""
  amount : 0 < p.amountMinor
  coded : p.currency.length = 3
  letters : unicode.isAlpha p.currency = true
  upper : unicode.upper p.currency = p.currency

section Agreement

variable {unicode : UnicodeTables} {provider : SettlementProvider} {db : Db}

/-- An entry that is read as the row of a payment describes it. -/
theorem describes_of_reads {entry : Json} {p : PaymentIntent}
    (h : Relation.Comp (Reads unicode provider) RowOf entry p) : Describes unicode entry p := by
  obtain ⟨row, hreads, hrow⟩ := h
  obtain ⟨fields, currency, state, hentry, hreference, hexternal, hamount, hcurrency, hupper, -, hstate, hlower, -⟩ := hreads
  rw [hrow.reference] at hreference
  rw [hrow.amount] at hamount
  rw [hrow.currency] at hupper
  rw [hrow.state] at hlower
  exact ⟨fields, row.externalId, currency, state, hentry, hreference, hexternal, row.identified.2, hamount, hcurrency,
    hupper, hstate, hlower⟩

/-- An entry that describes an exportable payment is read as its row. -/
theorem Describes.reads {entry : Json} {p : PaymentIntent} (h : Describes unicode entry p) (hp : Exportable unicode p) :
    Relation.Comp (Reads unicode provider) RowOf entry p := by
  obtain ⟨fields, externalId, currency, state, hentry, hreference, hexternal, hnonempty, hamount, hcurrency, hupper, hstate,
    hlower⟩ := h
  refine ⟨⟨provider, p.reference, externalId, p.amountMinor, p.currency, .settled, ⟨hp.reference, hnonempty⟩, hp.amount,
    hp.coded⟩, ?_, rfl, rfl, rfl, rfl⟩
  exact ⟨fields, currency, state, hentry, hreference, hexternal, hamount, hcurrency, hupper, hp.letters, hstate, hlower, rfl⟩

/-- The settled payments as they are stored are described. -/
theorem describesSettled_exportDocument (hexportable : ∀ p ∈ settledPayments db, Exportable unicode p) :
    DescribesSettled unicode (exportDocument db) db := by
  refine ⟨_, _, settledPayments db, rfl, rfl, .refl _, ?_⟩
  rw [List.forall₂_map_left_iff, List.forall₂_same]
  intro p hp
  have hp := hexportable p hp
  exact ⟨_, p.reference, p.currency, "settled", rfl, rfl, rfl, hp.reference, rfl, rfl, hp.upper, rfl, by decide⟩

/-- Rows agree with the settled payments exactly when they are theirs in some order. -/
theorem agrees_iff {rows : List ExternalSettlement} :
    Agrees (expectedSettlements db) rows ↔
      ∃ payments, payments.Perm (settledPayments db) ∧ List.Forall₂ RowOf rows payments := by
  have hreferences : (expectedSettlements db).map ExpectedSettlement.reference =
      (settledPayments db).map PaymentIntent.reference := by
    rw [expectedSettlements, List.map_map]
    rfl
  have hdistinct := nodup_expectedSettlements db
  rw [hreferences] at hdistinct
  rw [exists_perm_forall₂_iff (fun row p h => RowOf.reference h) hdistinct, ← hreferences]
  have hrow : ∀ row : ExternalSettlement, (∃ item ∈ expectedSettlements db, item.reference = row.reference ∧
      item.amountMinor = row.amountMinor ∧ item.currency = row.currency ∧ row.state = .settled) ↔
      ∃ p ∈ settledPayments db, RowOf row p := by
    intro row
    constructor
    · intro h
      obtain ⟨item, hitem, hreference, hamount, hcurrency, hstate⟩ := h
      obtain ⟨p, hp, rfl⟩ := List.mem_map.mp hitem
      exact ⟨p, hp, hreference.symm, hamount.symm, hcurrency.symm, hstate⟩
    · intro h
      obtain ⟨p, hp, hreference, hamount, hcurrency, hstate⟩ := h
      exact ⟨_, List.mem_map_of_mem hp, hreference.symm, hamount.symm, hcurrency.symm, hstate⟩
  constructor
  · intro h
    exact ⟨h.distinct, h.references, fun row hmem => (hrow row).mp (h.settled row hmem)⟩
  · intro h
    exact ⟨h.1, h.2.1, fun row hmem => (hrow row).mpr (h.2.2 row hmem)⟩

/-- A document is read as rows that agree with the settled payments exactly when it describes them. -/
theorem snapshot_agrees_iff (hexportable : ∀ p ∈ settledPayments db, Exportable unicode p) {document : Json} :
    (∃ rows, snapshot unicode provider document = .ok rows ∧ Agrees (expectedSettlements db) rows) ↔
      DescribesSettled unicode document db := by
  constructor
  · intro h
    obtain ⟨rows, hread, hagrees⟩ := h
    obtain ⟨fields, entries, hdocument, hentries, hreads⟩ := snapshot_ok.mp hread
    obtain ⟨payments, hperm, hrows⟩ := agrees_iff.mp hagrees
    have hcomp := forall₂_comp.mpr ⟨rows, hreads, hrows⟩
    exact ⟨fields, entries, payments, hdocument, hentries, hperm, hcomp.imp fun _ _ => describes_of_reads⟩
  · intro h
    obtain ⟨fields, entries, payments, hdocument, hentries, hperm, hdescribes⟩ := h
    have hcomp : List.Forall₂ (Relation.Comp (Reads unicode provider) RowOf) entries payments :=
      forall₂_imp_of_mem (fun entry p hp h => h.reads (hexportable p (hperm.mem_iff.mp hp))) hdescribes
    obtain ⟨rows, hreads, hrows⟩ := forall₂_comp.mp hcomp
    exact ⟨rows, snapshot_ok.mpr ⟨fields, entries, hdocument, hentries, hreads⟩, agrees_iff.mpr ⟨payments, hperm, hrows⟩⟩

end Agreement

/-! ### What the platform settles -/

/-- Every payment has a reference. -/
def Referenced (db : Db) : Prop := ∀ p ∈ db.paymentIntents.rows, p.reference ≠ ""

/-- References are given when payments are opened. -/
theorem Referenced.step (settings : Settings) (s : Platform) (e : Event) (h : Referenced s.db) :
    Referenced (TaxStamp.step settings s e).db := by
  intro p hp
  cases (step_change settings s e).intentStep with
  | same hI => exact h p (hI ▸ hp)
  | opened draws order now horder hI =>
    rw [hI, List.mem_append, List.mem_singleton] at hp
    obtain hold | rfl := hp
    · exact h p hold
    · intro hempty
      have htext := congrArg String.toList hempty
      simp [newIntent, reference] at htext
  | settled intent now hI =>
    rw [hI] at hp
    obtain ⟨old, hold, rfl⟩ := List.mem_map.mp hp
    split
    · exact h old hold
    · exact h old hold

/-- Settled payments are in supported currencies, because they have been received. -/
theorem SettledReceived.supported {db : Db} (h : SettledReceived db) (hconserved : db.accounts.Conserved) {p : PaymentIntent}
    (hp : p ∈ settledPayments db) : (currencyExponents.lookup p.currency).isSome = true := by
  by_contra hunsupported
  obtain ⟨hmem, hsettled⟩ := List.mem_filter.mp hp
  have hnone : receivedTotal db.paymentReceipts.rows .matched p.currency = 0 := by
    rw [receivedTotal, List.filter_eq_nil_iff.mpr]
    · rfl
    · intro r hr hreceived
      obtain ⟨hmatched, hcurrency⟩ := of_decide_eq_true hreceived
      have hknown := hconserved.supported r hr (by rw [hmatched]; decide)
      rw [hcurrency] at hknown
      exact hunsupported hknown
  have hpositive : 0 < settledTotal db.paymentIntents.rows p.currency := by
    apply List.sum_pos
    · intro amount hamount
      obtain ⟨q, hq, rfl⟩ := List.mem_map.mp hamount
      exact of_decide_eq_true (db.paymentIntents.valid.check q (List.mem_filter.mp hq).1)
    · have hin : p ∈ db.paymentIntents.rows.filter fun q => q.status = .settled ∧ q.currency = p.currency :=
        List.mem_filter.mpr ⟨hmem, by simpa using hsettled⟩
      rw [Ne, List.map_eq_nil_iff]
      exact List.ne_nil_of_mem hin
  rw [h p.currency, hnone] at hpositive
  exact lt_irrefl 0 hpositive

/-- A supported currency has three upper-case letters in any version of the tables. -/
theorem letters_of_supported (unicode : UnicodeTables) {currency : String}
    (h : (currencyExponents.lookup currency).isSome = true) :
    currency.length = 3 ∧ unicode.isAlpha currency = true ∧ unicode.upper currency = currency := by
  have hsupported : currency = "NGN" ∨ currency = "USD" := by
    by_contra hother
    rw [not_or, ← Ne, ← Ne, ← beq_eq_false_iff_ne, ← beq_eq_false_iff_ne] at hother
    rw [currencyExponents, List.lookup_cons, hother.1, List.lookup_cons, hother.2] at h
    cases h
  have hascii : (∀ c ∈ currency.toList, c.toNat < 128) ∧ (∀ c ∈ currency.toList, c.isAlpha = true) ∧
      currency.length = 3 ∧ currency ≠ "" ∧ String.ofList (currency.toList.map Char.toUpper) = currency := by
    have hnaira : "NGN".toList = ['N', 'G', 'N'] := rfl
    have hdollar : "USD".toList = ['U', 'S', 'D'] := rfl
    obtain rfl | rfl := hsupported
    · exact ⟨by simp [hnaira], by simp [hnaira], rfl, by decide, by rw [hnaira]; rfl⟩
    · exact ⟨by simp [hdollar], by simp [hdollar], rfl, by decide, by rw [hdollar]; rfl⟩
  obtain ⟨hchars, hletters, hlength, hnonempty, hupper⟩ := hascii
  exact ⟨hlength, (unicode.isAlpha_ascii _ hchars).mpr ⟨hnonempty, hletters⟩, (unicode.upper_ascii _ hchars).trans hupper⟩

/-- Every settled payment of a run can be exported. -/
theorem exportable_run (unicode : UnicodeTables) (settings : Settings) (companies : Table companySchema)
    (tariffs : Table tariffSchema) (events : List RegisterEvent) :
    ∀ p ∈ settledPayments (run (registerStep settings) (.initial companies tariffs) events).platform.db,
      Exportable unicode p := by
  intro p hp
  obtain ⟨events', hplatform⟩ := register_platform settings companies tariffs events
  rw [hplatform] at hp
  have hinv := run_invariant (fun P : Platform => SettledReceived P.db ∧ Referenced P.db)
    (fun P e h => ⟨h.1.step settings P e, h.2.step settings P e⟩) (.initial companies tariffs)
    ⟨fun _ => rfl, fun q hq => by cases hq⟩ events'
  have hconserved := Accounts.Conserved.run settings companies tariffs events'
  obtain ⟨hcoded, hletters, hupper⟩ := letters_of_supported unicode (hinv.1.supported hconserved hp)
  have hmem := (List.mem_filter.mp hp).1
  exact ⟨hinv.2 p hmem, of_decide_eq_true (Table.valid _ |>.check p hmem), hcoded, hletters, hupper⟩

/-- The rows of one system among those of both are its own. -/
theorem rowsOf_append {first second : List ExternalSettlement} (hfirst : ∀ row ∈ first, row.provider = .tigerbeetle)
    (hsecond : ∀ row ∈ second, row.provider = .mojaloop) :
    rowsOf ExternalSettlement.provider .tigerbeetle (first ++ second) = first ∧
      rowsOf ExternalSettlement.provider .mojaloop (first ++ second) = second := by
  simp only [rowsOf, List.filter_append]
  constructor
  · rw [List.filter_eq_self.mpr fun row hrow => decide_eq_true (hfirst row hrow), List.filter_eq_nil_iff.mpr,
      List.append_nil]
    intro row hrow
    rw [hsecond row hrow]
    decide
  · rw [List.filter_eq_nil_iff.mpr, List.filter_eq_self.mpr fun row hrow => decide_eq_true (hsecond row hrow),
      List.nil_append]
    intro row hrow
    rw [hfirst row hrow]
    decide

/-- The sandbox reconciliation exits with zero exactly when both documents describe what the platform has settled.
After every run of the services and the verifications, and for any two documents, the script exits with zero exactly
when each of them describes the settled payments, each of them once, and the platform has neither a message that is
dead or has been waiting for a quarter of an hour nor a ledger intent that is quarantined or has been worked on for as
long. The document with the settled payments as they are stored describes them. -/
theorem reconcileSandbox_exits (unicode : UnicodeTables) (settings : Settings) (companies : Table companySchema)
    (tariffs : Table tariffSchema) (events : List RegisterEvent) (times : CreationTimes) (now : Time)
    (tigerbeetle mojaloop : Json) :
    let db := (run (registerStep settings) (.initial companies tariffs) events).platform.db
    let cutoff := now - seconds 900
    (reconcileSandbox unicode settings times now tigerbeetle mojaloop db = .ok (0, db) ↔
        DescribesSettled unicode tigerbeetle db ∧ DescribesSettled unicode mojaloop db ∧
          cutoff.representable = true ∧ ¬Backlogged times cutoff db ∧ ¬Stuck times cutoff db) ∧
      DescribesSettled unicode (exportDocument db) db := by
  intro db cutoff
  have hsound : Sound settings db := .register settings companies tariffs events
  have hexportable := exportable_run unicode settings companies tariffs events
  have htigerbeetle := @snapshot_agrees_iff unicode .tigerbeetle db hexportable tigerbeetle
  have hmojaloop := @snapshot_agrees_iff unicode .mojaloop db hexportable mojaloop
  refine ⟨?_, describesSettled_exportDocument hexportable⟩
  rw [← htigerbeetle, ← hmojaloop]
  simp only [reconcileSandbox, Tx.bind_ok, Tx.lift_ok, Tx.pure_ok]
  constructor
  · intro h
    obtain ⟨first, db₁, ⟨hfirst, rfl⟩, second, db₂, ⟨hsecond, rfl⟩, result, db₃, hrun, hexit, rfl⟩ := h
    obtain ⟨htb, hml⟩ := rowsOf_append (provider_of_snapshot hfirst) (provider_of_snapshot hsecond)
    have hclean : result.1.clean = true := by
      by_contra hfindings
      rw [if_neg hfindings] at hexit
      cases hexit
    obtain ⟨hrepresentable, hbacklog, hstuck, hagrees⟩ := (runReconciliation_clean_iff hsound).mp ⟨result, hrun, hclean⟩
    have hagreesFirst := hagrees .tigerbeetle (by decide)
    have hagreesSecond := hagrees .mojaloop (by decide)
    rw [htb] at hagreesFirst
    rw [hml] at hagreesSecond
    exact ⟨⟨first, hfirst, hagreesFirst⟩, ⟨second, hsecond, hagreesSecond⟩, hrepresentable, hbacklog, hstuck⟩
  · intro h
    obtain ⟨⟨first, hfirst, hagreesFirst⟩, ⟨second, hsecond, hagreesSecond⟩, hrepresentable, hbacklog, hstuck⟩ := h
    obtain ⟨htb, hml⟩ := rowsOf_append (provider_of_snapshot hfirst) (provider_of_snapshot hsecond)
    have hagrees : ∀ provider ∈ [SettlementProvider.tigerbeetle, .mojaloop],
        Agrees (expectedSettlements db) (rowsOf ExternalSettlement.provider provider (first ++ second)) := by
      intro provider _
      cases provider with
      | tigerbeetle => rwa [htb]
      | mojaloop => rwa [hml]
    obtain ⟨result, hrun, hclean⟩ :=
      (runReconciliation_clean_iff hsound).mpr ⟨hrepresentable, hbacklog, hstuck, hagrees⟩
    exact ⟨first, db, ⟨hfirst, rfl⟩, second, db, ⟨hsecond, rfl⟩, result, db, hrun, (if_pos hclean).symm, rfl⟩

end TaxStamp
