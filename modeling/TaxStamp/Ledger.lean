import Mathlib.Data.List.Dedup
import TaxStamp.Models

/-!
# Double-entry posting

A posting always moves a positive amount. A journal is refused unless it has at least two
postings in one currency whose debits equal their credits; its entries are written with it.
-/

namespace TaxStamp

open Lib

/-- A positive amount on one side of an account. -/
structure Posting where
  account : Account
  direction : Direction
  amount : Money
  positive : 0 < amount.minor

/-- Build a posting, refusing an amount that is not positive. -/
def Posting.make (account : Account) (direction : Direction) (amount : Money) : Except Fault Posting :=
  if h : 0 < amount.minor then .ok ⟨account, direction, amount, h⟩
  else .error (.illegalState "posting amount must be positive")

/-- A built posting has the given account, side and amount. -/
theorem Posting.make_ok {account : Account} {direction : Direction} {amount : Money} {p : Posting}
    (h : Posting.make account direction amount = .ok p) :
    p.account = account ∧ p.direction = direction ∧ p.amount = amount := by
  unfold Posting.make at h
  split at h
  · injection h with h
    subst h
    exact ⟨rfl, rfl, rfl⟩
  · contradiction

/-- The total of one side of a list of postings. -/
def postedTotal (direction : Direction) (postings : List Posting) : ℤ :=
  ((postings.filter fun p => p.direction = direction).map fun p => p.amount.minor).sum

/-- The only currency of a list of postings. -/
def soleCurrency (postings : List Posting) : Option String :=
  match (postings.map fun p => p.amount.currency).dedup with
  | [currency] => some currency
  | _ => none

/-- Every posting is in the only currency. -/
theorem soleCurrency_some {postings : List Posting} {currency : String}
    (h : soleCurrency postings = some currency) : ∀ p ∈ postings, p.amount.currency = currency := by
  intro p hp
  unfold soleCurrency at h
  split at h
  · rename_i only honly
    have hmem : p.amount.currency ∈ (postings.map fun p => p.amount.currency).dedup :=
      List.mem_dedup.mpr (List.mem_map_of_mem hp)
    rw [honly, List.mem_singleton] at hmem
    injection h with h
    rw [hmem, h]
  · contradiction

/-- The entry that a posting writes. -/
def Posting.entry (p : Posting) (journalId : Uuid) (now : Time) : LedgerEntry where
  journalId := journalId
  account := p.account
  direction := p.direction
  amountMinor := p.amount.minor
  currency := p.amount.currency
  createdAt := now

/-- Write a balanced journal with its entries. -/
def postJournal (journalId : Uuid) (reference : String) (kind : JournalKind) (postings : List Posting)
    (now : Time) (orderId paymentReceiptId : Option Uuid) : Session Journal := do
  Tx.require (2 ≤ postings.length) (.illegalState "a journal requires at least two postings")
  let currency ← Tx.orRefuse (soleCurrency postings) (.illegalState "a journal cannot mix currencies")
  let debits := postedTotal .debit postings
  let credits := postedTotal .credit postings
  Tx.require (debits = credits)
    (.illegalState s!"journal is unbalanced: debits={debits} credits={credits}")
  let journal : Journal := ⟨journalId, reference, kind, currency, orderId, paymentReceiptId, now⟩
  addRow Tables.journals journal
  addRows Tables.ledgerEntries (postings.map fun p => p.entry journalId now)
  return journal

/-- A posted journal is balanced in its only currency and is written with exactly its entries. -/
theorem postJournal_ok {journalId : Uuid} {reference : String} {kind : JournalKind}
    {postings : List Posting} {now : Time} {orderId paymentReceiptId : Option Uuid} {journal : Journal}
    {db db' : Db}
    (h : postJournal journalId reference kind postings now orderId paymentReceiptId db = .ok (journal, db')) :
    ∃ (currency : String) (J : Table journalSchema) (E : Table ledgerEntrySchema),
      soleCurrency postings = some currency ∧
      postedTotal .debit postings = postedTotal .credit postings ∧
      J.rows = db.journals.rows ++ [⟨journalId, reference, kind, currency, orderId, paymentReceiptId, now⟩] ∧
      E.rows = db.ledgerEntries.rows ++ postings.map (fun p => p.entry journalId now) ∧
      db' = Tables.ledgerEntries.set E (Tables.journals.set J db) := by
  simp only [postJournal, Tx.bind_ok, Tx.require_ok, Tx.orRefuse_ok, insertRow_ok, insertRows_ok,
    Tx.pure_ok] at h
  obtain ⟨-, db₁, ⟨-, rfl⟩, currency, db₂, ⟨hcurrency, rfl⟩, -, db₃, ⟨hbalanced, rfl⟩, -, db₄,
    ⟨J, hJ, rfl⟩, -, db₅, ⟨E, hE, rfl⟩, rfl, rfl⟩ := h
  exact ⟨currency, J, E, hcurrency, hbalanced, hJ, hE, rfl⟩

/-- The amount of one side of an account in a currency. -/
def sideTotal (entries : List LedgerEntry) (account : Account) (currency : String) (direction : Direction) : ℤ :=
  ((entries.filter fun e => e.account = account ∧ e.currency = currency ∧ e.direction = direction).map
    LedgerEntry.amountMinor).sum

/-- The debit-positive balance of an account. -/
def accountBalance (account : Account) (currency : String) : Session Money := do
  let debits ← Tx.read fun db => sideTotal db.ledgerEntries.rows account currency .debit
  let credits ← Tx.read fun db => sideTotal db.ledgerEntries.rows account currency .credit
  Tx.lift (Money.make (debits - credits) currency)

/-- The balance is the difference of the two sides, in a supported currency. -/
theorem accountBalance_ok {account : Account} {currency : String} {balance : Money} {db db' : Db} :
    accountBalance account currency db = .ok (balance, db') ↔
      balance.minor = sideTotal db.ledgerEntries.rows account currency .debit -
          sideTotal db.ledgerEntries.rows account currency .credit ∧
        balance.currency = currency ∧ db = db' := by
  simp only [accountBalance, Tx.bind_ok, Tx.read_ok, Tx.lift_ok, Money.make_ok]
  constructor
  · rintro ⟨debits, db₁, ⟨rfl, rfl⟩, credits, db₂, ⟨rfl, rfl⟩, ⟨hminor, hcurrency⟩, rfl⟩
    exact ⟨hminor, hcurrency, rfl⟩
  · rintro ⟨hminor, hcurrency, rfl⟩
    exact ⟨_, _, ⟨rfl, rfl⟩, _, _, ⟨rfl, rfl⟩, ⟨hminor, hcurrency⟩, rfl⟩

end TaxStamp
