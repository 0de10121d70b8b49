import Mathlib.Algebra.Order.BigOperators.Group.List
import TaxStamp.Ledger
import TaxStamp.Lib.Accepts

/-!
# The deferred trigger on journal entries

The database checks a journal a second time: at commit the trigger
`taxstamp_assert_journal_balanced` is evaluated for each entry that was inserted, over the
rows the journal then has. It reads the rows back through aggregates whose results are
assigned to variables of fixed width: the totals to `bigint`, the counts to `integer`.
-/

namespace TaxStamp

open Lib

/-- An error that ends the evaluation of a trigger. -/
inductive TriggerError
  | numericValueOutOfRange
  | raiseException (message : String)
  deriving DecidableEq, Repr

/-- Assign an aggregate to a variable of a type with a range. -/
def assignInto (fits : ℤ → Bool) (value : ℤ) : Except TriggerError ℤ :=
  if fits value then .ok value else .error .numericValueOutOfRange

/-- The total of one side of the rows, as `SUM(CASE WHEN direction = … THEN amount_minor ELSE 0 END)`. -/
def caseTotal (direction : Direction) (rows : List LedgerEntry) : ℤ :=
  (rows.map fun e => if e.direction = direction then e.amountMinor else 0).sum

/-- The trigger function, evaluated for one inserted entry over the tables at commit. -/
def assertJournalBalanced (journals : List Journal) (entries : List LedgerEntry) (new : LedgerEntry) :
    Except TriggerError Unit := do
  let rows := entries.filter fun e => e.journalId = new.journalId
  let debits ← assignInto bigint (caseTotal .debit rows)
  let credits ← assignInto bigint (caseTotal .credit rows)
  let entryCount ← assignInto integer rows.length
  let currencyCount ← assignInto integer (rows.map LedgerEntry.currency).dedup.length
  let journalCurrency := (journals.find? fun j => j.id = new.journalId).map Journal.currency
  if entryCount < 2 then .error (.raiseException s!"journal {new.journalId.str} must have at least two entries")
  else if currencyCount ≠ 1 then .error (.raiseException s!"journal {new.journalId.str} mixes currencies")
  else if journalCurrency ≠ some new.currency then
    .error (.raiseException s!"entry currency {new.currency} does not match journal {new.journalId.str}")
  else if debits ≠ credits then
    .error (.raiseException s!"journal {new.journalId.str} is unbalanced: debits={debits} credits={credits}")
  else return ()

/-- A supported currency is one of two. -/
theorem supported_iff {currency : String} :
    (currencyExponents.lookup currency).isSome = true ↔ currency = "NGN" ∨ currency = "USD" := by
  simp only [currencyExponents, List.lookup_cons, List.lookup_nil]
  split
  · rename_i heq
    simp [beq_iff_eq.mp heq]
  · rename_i hne
    split
    · rename_i heq
      simp [beq_iff_eq.mp heq]
    · rename_i hne'
      simp only [Option.isSome_none, Bool.false_eq_true, false_iff, not_or]
      exact ⟨fun h => by simp [h] at hne, fun h => by simp [h] at hne'⟩

/-- A supported currency fits its column. -/
theorem supported_varchar {currency : String} (h : (currencyExponents.lookup currency).isSome = true) :
    varchar 3 currency = true := by
  rcases supported_iff.mp h with rfl | rfl
  · decide
  · decide

/-- The accounts that are posted to fit their column. -/
theorem Account.chart_fits : varchar 64 bankCollections.text = true ∧ varchar 64 dutyPayable.text = true ∧
    varchar 64 vatPayable.text = true ∧ varchar 64 unappliedReceipts.text = true := by
  decide

/-- An entry fits when its account, its amount and its currency do. -/
theorem entry_fits {e : LedgerEntry} (haccount : varchar 64 e.account.text = true) (hamount : bigint e.amountMinor = true)
    (hcurrency : varchar 3 e.currency = true) : ledgerEntrySchema.fits e = true := by
  simp only [ledgerEntrySchema, haccount, hamount, hcurrency, Bool.and_self]

/-- A journal is posted when it is balanced in one currency and the tables take its rows. -/
theorem postJournal_of_accepts (db : Db) {journalId : Uuid} {reference : String} {kind : JournalKind}
    {postings : List Posting} {now : Time} {orderId receiptId : Option Uuid} {currency : String} (htwo : 2 ≤ postings.length)
    (hcurrency : soleCurrency postings = some currency)
    (hbalanced : postedTotal .debit postings = postedTotal .credit postings)
    (hjournal : db.journals.Accepts ⟨journalId, reference, kind, currency, orderId, receiptId, now⟩)
    (hentries : ∀ e ∈ postings.map fun p => p.entry journalId now, ledgerEntrySchema.fits e = true) :
    ∃ (J : Table journalSchema) (E : Table ledgerEntrySchema),
      J.rows = db.journals.rows ++ [⟨journalId, reference, kind, currency, orderId, receiptId, now⟩] ∧
      E.rows = db.ledgerEntries.rows ++ postings.map (fun p => p.entry journalId now) ∧
      postJournal journalId reference kind postings now orderId receiptId db =
        .ok (⟨journalId, reference, kind, currency, orderId, receiptId, now⟩,
          Tables.ledgerEntries.set E (Tables.journals.set J db)) := by
  obtain ⟨J, hJ⟩ := Table.exists_append_iff.mpr hjournal
  have hpositive : ∀ e ∈ postings.map fun p => p.entry journalId now, ledgerEntrySchema.check e = true := by
    intro e he
    obtain ⟨p, -, rfl⟩ := List.mem_map.mp he
    exact decide_eq_true p.positive
  obtain ⟨E, hE⟩ := Table.exists_append_all (t := db.ledgerEntries) hentries hpositive fun _ _ => rfl
  refine ⟨J, E, hJ, hE, ?_⟩
  simp only [postJournal, Tx.bind_ok, Tx.require_ok, Tx.orRefuse_ok, insertRow_ok, insertRows_ok, Tx.pure_ok]
  exact ⟨(), db, ⟨htwo, rfl⟩, currency, db, ⟨hcurrency, rfl⟩, (), db, ⟨hbalanced, rfl⟩, (), _, ⟨J, hJ, rfl⟩, (), _,
    ⟨E, hE, rfl⟩, rfl, rfl⟩

/-- What the helper asks of a list of postings. -/
def BalancedPostings (postings : List Posting) : Prop :=
  2 ≤ postings.length ∧ (soleCurrency postings).isSome = true ∧
    postedTotal .debit postings = postedTotal .credit postings

/-- A rejected write is not a refusal of the postings. -/
theorem ofRejection_ne_illegalState (rejection : Rejection) (message : String) :
    Fault.ofRejection rejection ≠ .illegalState message := by
  cases rejection <;> simp [Fault.ofRejection, Fault.illegalState]

/-- The helper refuses exactly the postings that are not balanced in one currency. -/
theorem postJournal_refuses_iff {db : Db} {journalId : Uuid} {reference : String} {kind : JournalKind}
    {postings : List Posting} {now : Time} {orderId receiptId : Option Uuid} :
    (∃ message, postJournal journalId reference kind postings now orderId receiptId db = .error (.illegalState message)) ↔
      ¬BalancedPostings postings := by
  by_cases htwo : 2 ≤ postings.length
  · cases hcurrency : soleCurrency postings with
    | none =>
      simp only [BalancedPostings, hcurrency, Option.isSome_none, Bool.false_eq_true, false_and, and_false, not_false_iff,
        iff_true]
      exact ⟨_, by simp only [postJournal, bind, Tx.require, if_pos htwo, Tx.orRefuse, hcurrency]; rfl⟩
    | some currency =>
      by_cases hbalanced : postedTotal .debit postings = postedTotal .credit postings
      · have hok : BalancedPostings postings := ⟨htwo, by rw [hcurrency]; rfl, hbalanced⟩
        simp only [hok, not_true_eq_false, iff_false, not_exists]
        intro message h
        simp only [postJournal, bind, Tx.require, if_pos htwo, Tx.orRefuse, hcurrency, if_pos hbalanced, insertRow,
          insertRows, write, pure] at h
        split at h
        · split at h
          · cases h
          · rename_i hrejected
            split at hrejected
            · cases hrejected
            · obtain rfl := Except.error.inj hrejected
              exact ofRejection_ne_illegalState _ _ (Except.error.inj h)
        · rename_i hrejected
          split at hrejected
          · cases hrejected
          · obtain rfl := Except.error.inj hrejected
            exact ofRejection_ne_illegalState _ _ (Except.error.inj h)
      · simp only [BalancedPostings, hbalanced, and_false, not_false_iff, iff_true]
        exact ⟨_, by
          simp only [postJournal, bind, Tx.require, if_pos htwo, Tx.orRefuse, hcurrency, if_neg hbalanced]
          rfl⟩
  · simp only [BalancedPostings, htwo, false_and, not_false_iff, iff_true]
    exact ⟨_, by simp only [postJournal, bind, Tx.require, if_neg htwo]; rfl⟩

/-- The returned journal has the only currency. -/
theorem postJournal_value {db db' : Db} {journalId : Uuid} {reference : String} {kind : JournalKind}
    {postings : List Posting} {now : Time} {orderId receiptId : Option Uuid} {currency : String} {written : Journal}
    (honly : soleCurrency postings = some currency)
    (h : postJournal journalId reference kind postings now orderId receiptId db = .ok (written, db')) :
    written = ⟨journalId, reference, kind, currency, orderId, receiptId, now⟩ := by
  simp only [postJournal, Tx.bind_ok, Tx.require_ok, Tx.orRefuse_ok, insertRow_ok, insertRows_ok, Tx.pure_ok, honly,
    Option.some.injEq] at h
  obtain ⟨-, -, -, currency', -, ⟨rfl, -⟩, -, -, -, -, -, -, -, -, -, hwritten, -⟩ := h
  exact hwritten

/-- An assignment succeeds exactly for the values in the range. -/
theorem assignInto_ok {fits : ℤ → Bool} {value result : ℤ} :
    assignInto fits value = .ok result ↔ fits value = true ∧ value = result := by
  unfold assignInto
  split
  · rename_i hfits
    simp [hfits]
  · rename_i hfits
    simp [hfits]

/-- A guarded error is passed exactly when its condition fails. -/
theorem ite_error_ok {condition : Prop} [Decidable condition] {e : TriggerError} {rest : Except TriggerError Unit} :
    (if condition then .error e else rest) = .ok () ↔ ¬condition ∧ rest = .ok () := by
  by_cases h : condition <;> simp [h]

/-- The trigger passes exactly when the aggregates fit their variables and every condition holds. -/
theorem assertJournalBalanced_ok {journals : List Journal} {entries : List LedgerEntry} {new : LedgerEntry} :
    assertJournalBalanced journals entries new = .ok () ↔
      let rows := entries.filter fun e => e.journalId = new.journalId
      bigint (caseTotal .debit rows) = true ∧ bigint (caseTotal .credit rows) = true ∧ integer rows.length = true ∧
        integer (rows.map LedgerEntry.currency).dedup.length = true ∧ 2 ≤ rows.length ∧
        (rows.map LedgerEntry.currency).dedup.length = 1 ∧
        (journals.find? fun j => j.id = new.journalId).map Journal.currency = some new.currency ∧
        caseTotal .debit rows = caseTotal .credit rows := by
  simp only [assertJournalBalanced, Except.bind_ok, assignInto_ok, ite_error_ok, ne_eq, not_not]
  constructor
  · rintro ⟨debits, ⟨hdebits, rfl⟩, credits, ⟨hcredits, rfl⟩, count, ⟨hcount, rfl⟩, currencies, ⟨hcurrencies, rfl⟩, htwo,
      hone, hcurrency, hbalanced, -⟩
    exact ⟨hdebits, hcredits, hcount, hcurrencies, by omega, by omega, hcurrency, hbalanced⟩
  · rintro ⟨hdebits, hcredits, hcount, hcurrencies, htwo, hone, hcurrency, hbalanced⟩
    exact ⟨_, ⟨hdebits, rfl⟩, _, ⟨hcredits, rfl⟩, _, ⟨hcount, rfl⟩, _, ⟨hcurrencies, rfl⟩, by omega, by omega, hcurrency,
      hbalanced, rfl⟩

/-! ### The rows of a new journal -/

section Rows

variable {journalId : Uuid} {now : Time} (postings : List Posting)

/-- The rows of a new journal are its entries. -/
theorem filter_entries {old : List LedgerEntry} (hfresh : ∀ e ∈ old, e.journalId ≠ journalId) :
    (old ++ postings.map fun p => p.entry journalId now).filter (fun e => e.journalId = journalId) =
      postings.map fun p => p.entry journalId now := by
  rw [List.filter_append, List.filter_eq_nil_iff.mpr (by simpa using hfresh), List.nil_append, List.filter_eq_self]
  intro e he
  obtain ⟨p, -, rfl⟩ := List.mem_map.mp he
  exact decide_eq_true rfl

/-- The aggregate over the entries is the total over the postings. -/
theorem caseTotal_entries (direction : Direction) :
    caseTotal direction (postings.map fun p => p.entry journalId now) = postedTotal direction postings := by
  induction postings with
  | nil => rfl
  | cons p postings ih =>
    rw [caseTotal, List.map_cons, List.map_cons, List.sum_cons, ← caseTotal, ih, postedTotal, postedTotal]
    by_cases hdirection : p.direction = direction <;> simp [hdirection, Posting.entry]

/-- The currencies of the entries are those of the postings. -/
theorem currencies_entries : (postings.map fun p => p.entry journalId now).map LedgerEntry.currency =
    postings.map fun p => p.amount.currency := by
  rw [List.map_map]
  rfl

/-- One currency counts as one. -/
theorem soleCurrency_isSome_iff :
    (soleCurrency postings).isSome = true ↔ (postings.map fun p => p.amount.currency).dedup.length = 1 := by
  unfold soleCurrency
  split
  · rename_i hdedup
    simp [hdedup]
  · rename_i hdedup
    simp only [Option.isSome_none, Bool.false_eq_true, false_iff, List.length_eq_one_iff, not_exists]
    exact hdedup

/-- A total is not negative. -/
theorem postedTotal_nonneg (direction : Direction) : 0 ≤ postedTotal direction postings := by
  apply List.sum_nonneg
  intro amount hamount
  obtain ⟨p, -, rfl⟩ := List.mem_map.mp hamount
  exact p.positive.le

end Rows

variable {db : Db} {journal : Journal} {postings : List Posting}

/-- A header in the currency of a posting is in the only currency. -/
theorem header_currency {currency : String} (hcurrency : journal.currency ∈ postings.map fun p => p.amount.currency)
    (honly : soleCurrency postings = some currency) : journal.currency = currency := by
  obtain ⟨p, hp, hheader⟩ := List.mem_map.mp hcurrency
  rw [← hheader, soleCurrency_some honly p hp]

/-- The trigger passes for all entries of a new journal exactly when the postings are balanced in one currency and are
fewer than an `integer` can count. -/
theorem trigger_iff (hne : postings ≠ []) (hdebits : postedTotal .debit postings < 2 ^ 63)
    (hcredits : postedTotal .credit postings < 2 ^ 63)
    (hcurrency : journal.currency ∈ postings.map fun p => p.amount.currency)
    (hjournals : ∀ j ∈ db.journals.rows, j.id ≠ journal.id) (hentries : ∀ e ∈ db.ledgerEntries.rows, e.journalId ≠ journal.id) :
    (∀ e ∈ postings.map (fun p => p.entry journal.id journal.createdAt),
      assertJournalBalanced (db.journals.rows ++ [journal])
        (db.ledgerEntries.rows ++ postings.map fun p => p.entry journal.id journal.createdAt) e = .ok ()) ↔
      BalancedPostings postings ∧ postings.length < 2 ^ 31 := by
  have hbigint : ∀ direction, postedTotal direction postings < 2 ^ 63 → bigint (postedTotal direction postings) = true := by
    intro direction hlt
    have hnonneg := postedTotal_nonneg postings direction
    simp only [bigint, Bool.and_eq_true, decide_eq_true_eq]
    omega
  have hfind : (db.journals.rows ++ [journal]).find? (fun j => j.id = journal.id) = some journal := by
    rw [List.find?_append, List.find?_eq_none.mpr (by simpa using hjournals)]
    simp
  have hinteger : integer postings.length = true ↔ postings.length < 2 ^ 31 := by
    simp only [integer, Bool.and_eq_true, decide_eq_true_eq]
    omega
  have heach : ∀ p ∈ postings, assertJournalBalanced (db.journals.rows ++ [journal])
      (db.ledgerEntries.rows ++ postings.map fun p => p.entry journal.id journal.createdAt)
        (p.entry journal.id journal.createdAt) = .ok () ↔
      BalancedPostings postings ∧ postings.length < 2 ^ 31 ∧ journal.currency = p.amount.currency := by
    intro p hp
    rw [assertJournalBalanced_ok, show (p.entry journal.id journal.createdAt).journalId = journal.id from rfl]
    dsimp only
    rw [filter_entries postings hentries, caseTotal_entries, caseTotal_entries, currencies_entries, List.length_map, hfind,
      ← soleCurrency_isSome_iff, hinteger]
    constructor
    · rintro ⟨-, -, hlength, -, htwo, hone, hsame, hbalanced⟩
      exact ⟨⟨htwo, hone, hbalanced⟩, hlength, Option.some.inj hsame⟩
    · rintro ⟨⟨htwo, hone, hbalanced⟩, hlength, hsame⟩
      refine ⟨hbigint .debit hdebits, hbigint .credit hcredits, hlength, ?_, htwo, hone, congrArg some hsame, hbalanced⟩
      rw [(soleCurrency_isSome_iff postings).mp hone]
      decide
  simp only [List.forall_mem_map]
  constructor
  · intro hall
    obtain ⟨p, hp⟩ := List.exists_mem_of_ne_nil postings hne
    obtain ⟨hbalanced, hlength, -⟩ := (heach p hp).mp (hall p hp)
    exact ⟨hbalanced, hlength⟩
  · rintro ⟨hbalanced, hlength⟩ p hp
    -- the header has the only currency
    obtain ⟨currency, honly⟩ := Option.isSome_iff_exists.mp hbalanced.2.1
    refine (heach p hp).mpr ⟨hbalanced, hlength, ?_⟩
    rw [header_currency hcurrency honly, soleCurrency_some honly p hp]

/-- The entries fit their columns when the accounts and the totals do. -/
theorem entries_fit {journalId : Uuid} {now : Time} (haccounts : ∀ p ∈ postings, varchar 64 p.account.text = true)
    (hdebits : postedTotal .debit postings < 2 ^ 63) (hcredits : postedTotal .credit postings < 2 ^ 63) :
    ∀ e ∈ postings.map fun p => p.entry journalId now, ledgerEntrySchema.fits e = true := by
  intro e he
  obtain ⟨p, hp, rfl⟩ := List.mem_map.mp he
  have hle : p.amount.minor ≤ postedTotal p.direction postings := by
    apply List.single_le_sum
    · intro amount hamount
      obtain ⟨q, -, rfl⟩ := List.mem_map.mp hamount
      exact q.positive.le
    · exact List.mem_map_of_mem (List.mem_filter.mpr ⟨hp, decide_eq_true rfl⟩)
  have hlt : postedTotal p.direction postings < 2 ^ 63 := by
    cases p.direction
    · exact hdebits
    · exact hcredits
  have hpositive := p.positive
  refine entry_fits (haccounts p hp) ?_ (supported_varchar p.amount.supported)
  simp only [bigint, Posting.entry, Bool.and_eq_true]
  exact ⟨decide_eq_true (by omega), decide_eq_true (by omega)⟩

/-- The helper and the trigger agree on a list of postings, whatever their number, accounts, sides and currencies,
exactly when there are fewer than `2 ^ 31` of them or they are not balanced in one currency: a longer journal is accepted
by the helper, while the trigger cannot count its entries. Where the tables can take the rows, the helper returns exactly
when it does not refuse, and the tables then hold the rows the trigger is evaluated on. -/
theorem postJournal_trigger_iff (db : Db) (journal : Journal) (postings : List Posting) (hne : postings ≠ [])
    (hdebits : postedTotal .debit postings < 2 ^ 63) (hcredits : postedTotal .credit postings < 2 ^ 63)
    (hcurrency : journal.currency ∈ postings.map fun p => p.amount.currency)
    (hjournals : ∀ j ∈ db.journals.rows, j.id ≠ journal.id)
    (hentries : ∀ e ∈ db.ledgerEntries.rows, e.journalId ≠ journal.id) :
    let entries := postings.map fun p => p.entry journal.id journal.createdAt
    let posted := postJournal journal.id journal.reference journal.kind postings journal.createdAt journal.orderId
      journal.paymentReceiptId db
    (((¬∃ message, posted = .error (.illegalState message)) ↔
        ∀ e ∈ entries, assertJournalBalanced (db.journals.rows ++ [journal]) (db.ledgerEntries.rows ++ entries) e = .ok ()) ↔
      (postings.length < 2 ^ 31 ∨ ¬BalancedPostings postings)) ∧
    (db.journals.Accepts journal → (∀ p ∈ postings, varchar 64 p.account.text = true) →
      ((¬∃ message, posted = .error (.illegalState message)) ↔ ∃ db', posted = .ok (journal, db')) ∧
      ∀ written db', posted = .ok (written, db') → written = journal ∧
        db'.journals.rows = db.journals.rows ++ [journal] ∧ db'.ledgerEntries.rows = db.ledgerEntries.rows ++ entries) := by
  intro entries posted
  have hrefuses : (∃ message, posted = .error (.illegalState message)) ↔ ¬BalancedPostings postings :=
    postJournal_refuses_iff
  constructor
  · rw [hrefuses, trigger_iff hne hdebits hcredits hcurrency hjournals hentries, not_not]
    constructor
    · intro hagree
      by_cases hbalanced : BalancedPostings postings
      · exact .inl (hagree.mp hbalanced).2
      · exact .inr hbalanced
    · rintro (hlength | hunbalanced)
      · exact ⟨fun hbalanced => ⟨hbalanced, hlength⟩, And.left⟩
      · exact ⟨fun hbalanced => absurd hbalanced hunbalanced, And.left⟩
  · intro haccepts haccounts
    have hwritten : ∀ written db', posted = .ok (written, db') → written = journal ∧
        db'.journals.rows = db.journals.rows ++ [journal] ∧ db'.ledgerEntries.rows = db.ledgerEntries.rows ++ entries := by
      intro written db' hok
      obtain ⟨currency, J, E, honly, -, hJ, hE, rfl⟩ := postJournal_ok hok
      obtain rfl := header_currency hcurrency honly
      exact ⟨postJournal_value honly hok, hJ, hE⟩
    refine ⟨?_, hwritten⟩
    rw [hrefuses, not_not]
    constructor
    · rintro ⟨htwo, hone, hbalanced⟩
      obtain ⟨currency, honly⟩ := Option.isSome_iff_exists.mp hone
      obtain rfl := header_currency hcurrency honly
      obtain ⟨J, E, -, -, hok⟩ := postJournal_of_accepts db htwo honly hbalanced haccepts (entries_fit haccounts hdebits hcredits)
      exact ⟨_, hok⟩
    · rintro ⟨db', hok⟩
      by_contra hunbalanced
      obtain ⟨message, herror⟩ := hrefuses.mpr hunbalanced
      rw [hok] at herror
      cases herror

/-- A posting of one minor unit. -/
def unitPosting (account : Account) (direction : Direction) : Posting := ⟨account, direction, ⟨1, "NGN", rfl⟩, by decide⟩

/-- As many debits of one unit as credits of one unit. -/
def unitPostings (n : ℕ) : List Posting :=
  List.replicate n (unitPosting .bankCollections .debit) ++ List.replicate n (unitPosting .dutyPayable .credit)

/-- The unit postings have one total per side. -/
theorem postedTotal_unitPostings (direction : Direction) (n : ℕ) : postedTotal direction (unitPostings n) = n := by
  cases direction <;> simp [postedTotal, unitPostings, unitPosting]

/-- The unit postings have one currency. -/
theorem currencies_unitPostings (n : ℕ) :
    (unitPostings n).map (fun p => p.amount.currency) = List.replicate (n + n) "NGN" := by
  simp [unitPostings, unitPosting]

/-- The unit postings are balanced in one currency. -/
theorem balanced_unitPostings {n : ℕ} (hn : 0 < n) : BalancedPostings (unitPostings n) := by
  refine ⟨?_, ?_, ?_⟩
  · simp only [unitPostings, List.length_append, List.length_replicate]
    omega
  · rw [soleCurrency_isSome_iff, currencies_unitPostings, List.replicate_dedup (by omega)]
    rfl
  · rw [postedTotal_unitPostings, postedTotal_unitPostings]

/-- The header of a first journal. -/
def firstJournal : Journal := ⟨⟨1⟩, "settlement:first", .dutySettlement, "NGN", none, none, 0⟩

/-- A debit and a credit of one unit, on which helper and trigger agree. -/
theorem postJournal_trigger_pair : (unitPostings 1).length = 2 ∧ ∀ e ∈ (unitPostings 1).map (fun p => p.entry ⟨1⟩ 0),
    assertJournalBalanced [firstJournal] ((unitPostings 1).map fun p => p.entry ⟨1⟩ 0) e = .ok () := by
  have hagree := postJournal_trigger_iff (Db.initial (.empty _) (.empty _)) firstJournal (unitPostings 1) (by decide)
    (by rw [postedTotal_unitPostings]; decide) (by rw [postedTotal_unitPostings]; decide) (by decide)
    (fun j hj => by cases hj) (fun e he => by cases he)
  refine ⟨rfl, (hagree.1.mpr (.inl (by decide))).mp ?_⟩
  rw [postJournal_refuses_iff, not_not]
  exact balanced_unitPostings (by decide)

/-- A journal of `2 ^ 31` entries: the helper accepts the balanced postings, and the trigger fails for their entries. -/
theorem not_postJournal_trigger :
    unitPostings (2 ^ 30) ≠ [] ∧ postedTotal .debit (unitPostings (2 ^ 30)) < 2 ^ 63 ∧
      postedTotal .credit (unitPostings (2 ^ 30)) < 2 ^ 63 ∧
      (∀ message, postJournal ⟨1⟩ "settlement:first" .dutySettlement (unitPostings (2 ^ 30)) 0 none none
        (Db.initial (.empty _) (.empty _)) ≠ .error (.illegalState message)) ∧
      ¬∀ e ∈ (unitPostings (2 ^ 30)).map (fun p => p.entry ⟨1⟩ 0),
        assertJournalBalanced [firstJournal] ((unitPostings (2 ^ 30)).map fun p => p.entry ⟨1⟩ 0) e = .ok () := by
  have hbalanced : BalancedPostings (unitPostings (2 ^ 30)) := balanced_unitPostings (by decide)
  have hlength : (unitPostings (2 ^ 30)).length = 2 ^ 31 := by
    rw [unitPostings, List.length_append, List.length_replicate, List.length_replicate]
    rfl
  have htotal : ∀ direction, postedTotal direction (unitPostings (2 ^ 30)) < 2 ^ 63 := by
    intro direction
    rw [postedTotal_unitPostings]
    decide
  have hne : unitPostings (2 ^ 30) ≠ [] := by
    rw [← List.length_pos_iff, hlength]
    decide
  have hcurrency : firstJournal.currency ∈ (unitPostings (2 ^ 30)).map fun p => p.amount.currency := by
    rw [currencies_unitPostings]
    exact List.mem_replicate.mpr ⟨by decide, rfl⟩
  refine ⟨hne, htotal .debit, htotal .credit, fun message herror => ?_, fun hall => ?_⟩
  · exact postJournal_refuses_iff.mp ⟨message, herror⟩ hbalanced
  · have htrigger := @trigger_iff (Db.initial (.empty _) (.empty _)) firstJournal (unitPostings (2 ^ 30)) hne
      (htotal .debit) (htotal .credit) hcurrency (fun j hj => by cases hj) (fun e he => by cases he)
    have hcount := (htrigger.mp hall).2
    rw [hlength] at hcount
    exact absurd hcount (by decide)

end TaxStamp
