import TaxStamp.Lib.WriteOnce

/-!
# The ledger boundary

The reference implementation of the lookup-before-retry protocol, over any client. A lost
answer is no evidence that a transfer does not exist, so the durable identifier is looked
up before every creation.

The safety results are over every client whose store is a write-once map, and say nothing
about what the client answers or when it fails: a creation may fail before or after the
transfer is stored.
-/

namespace TaxStamp

open Lib

/-- A transfer to be made. The amount and the ledger code are unsigned machine integers. -/
structure TransferIntent where
  transferId : String
  debitAccountId : String
  creditAccountId : String
  amountMinor : BitVec 128
  ledgerCode : BitVec 32
  deriving DecidableEq, Repr

/-- Why an intent is refused before any call. -/
inductive TransferError
  | emptyIdentifier
  | identicalAccounts
  | zeroAmount
  | zeroLedgerCode
  deriving DecidableEq, Repr

/-- A transfer as a lookup returns it. -/
structure ObservedTransfer where
  transferId : String
  debitAccountId : String
  creditAccountId : String
  amountMinor : BitVec 128
  ledgerCode : BitVec 32
  deriving DecidableEq, Repr

/-- What a client answers to a creation. -/
inductive CreateTransferResult
  | created
  | exists
  | rejected
  deriving DecidableEq, Repr

/-- A client over its own state. A call may fail, and a call that fails may have changed the state. -/
structure TransferClient (σ ε : Type) where
  lookupTransfer : String → σ → Except ε (Option ObservedTransfer) × σ
  createTransfer : TransferIntent → σ → Except ε CreateTransferResult × σ

/-- What a submission decides. -/
inductive SubmitOutcome
  | confirmed
  | rejected
  deriving DecidableEq, Repr

/-- Why a submission decides nothing. -/
inductive SubmitError (ε : Type)
  | invalidIntent (error : TransferError)
  | client (error : ε)
  | missingAfterCreate
  | existingTransferMismatch
  deriving DecidableEq, Repr

/-- A character with the Unicode property `White_Space`. -/
def isWhiteSpace (c : Char) : Bool :=
  (0x09 ≤ c.toNat && c.toNat ≤ 0x0D) || c.toNat = 0x20 || c.toNat = 0x85 || c.toNat = 0xA0 || c.toNat = 0x1680 ||
    (0x2000 ≤ c.toNat && c.toNat ≤ 0x200A) || c.toNat = 0x2028 || c.toNat = 0x2029 || c.toNat = 0x202F ||
    c.toNat = 0x205F || c.toNat = 0x3000

/-- The characters of a text between its leading and its trailing white space. -/
def trim (text : String) : List Char :=
  ((text.toList.dropWhile isWhiteSpace).reverse.dropWhile isWhiteSpace).reverse

namespace TransferIntent

/-- Validate before any external ledger call. -/
def validate (intent : TransferIntent) : Except TransferError Unit :=
  if (trim intent.transferId).isEmpty || (trim intent.debitAccountId).isEmpty ||
      (trim intent.creditAccountId).isEmpty then
    .error .emptyIdentifier
  else if intent.debitAccountId = intent.creditAccountId then .error .identicalAccounts
  else if intent.amountMinor = 0 then .error .zeroAmount
  else if intent.ledgerCode = 0 then .error .zeroLedgerCode
  else .ok ()

/-- The transfer that an intent asks for. -/
def observed (intent : TransferIntent) : ObservedTransfer :=
  ⟨intent.transferId, intent.debitAccountId, intent.creditAccountId, intent.amountMinor, intent.ledgerCode⟩

end TransferIntent

/-- Whether an observed transfer is the one that was asked for. -/
def matchesIntent (intent : TransferIntent) (observed : ObservedTransfer) : Bool :=
  intent.transferId = observed.transferId && intent.debitAccountId = observed.debitAccountId &&
    intent.creditAccountId = observed.creditAccountId && intent.amountMinor = observed.amountMinor &&
    intent.ledgerCode = observed.ledgerCode

/-- What an observed transfer decides. -/
def TransferIntent.verdict {ε : Type} (intent : TransferIntent) (observed : ObservedTransfer) :
    Except (SubmitError ε) SubmitOutcome :=
  if matchesIntent intent observed then .ok .confirmed else .error .existingTransferMismatch

/-- Look up again after a creation that was answered. -/
def lookupAfterCreate {σ ε : Type} (client : TransferClient σ ε) (intent : TransferIntent) (s : σ) :
    Except (SubmitError ε) SubmitOutcome × σ :=
  match client.lookupTransfer intent.transferId s with
  | (.error error, s₁) => (.error (.client error), s₁)
  | (.ok none, s₁) => (.error .missingAfterCreate, s₁)
  | (.ok (some observed), s₁) => (intent.verdict observed, s₁)

/-- Look up before retrying a creation. -/
def submitLookupBeforeRetry {σ ε : Type} (client : TransferClient σ ε) (intent : TransferIntent) (s : σ) :
    Except (SubmitError ε) SubmitOutcome × σ :=
  match intent.validate with
  | .error error => (.error (.invalidIntent error), s)
  | .ok () =>
    match client.lookupTransfer intent.transferId s with
    | (.error error, s₁) => (.error (.client error), s₁)
    | (.ok (some observed), s₁) => (intent.verdict observed, s₁)
    | (.ok none, s₁) =>
      match client.createTransfer intent s₁ with
      | (.error error, s₂) => (.error (.client error), s₂)
      | (.ok .rejected, s₂) => (.ok .rejected, s₂)
      | (.ok .created, s₂) | (.ok .exists, s₂) => lookupAfterCreate client intent s₂

/-- The comparison covers every field of the intent. -/
theorem matchesIntent_iff {intent : TransferIntent} {observed : ObservedTransfer} :
    matchesIntent intent observed = true ↔ observed = intent.observed := by
  cases observed
  simp only [matchesIntent, TransferIntent.observed, Bool.and_eq_true, decide_eq_true_eq, ObservedTransfer.mk.injEq,
    and_assoc]
  simp only [eq_comm]

/-- Only the transfer that was asked for is confirmed. -/
theorem TransferIntent.verdict_confirmed {ε : Type} {intent : TransferIntent} {observed : ObservedTransfer} :
    intent.verdict (ε := ε) observed = .ok .confirmed ↔ observed = intent.observed := by
  rw [← matchesIntent_iff]
  unfold verdict
  split <;> simp [*]

/-- A client whose store is a write-once map: a lookup that is answered tells what is stored, and a creation
stores the transfer it is asked for, where its identifier is free, or nothing. -/
structure WriteOnceClient (σ ε : Type) extends TransferClient σ ε where
  store : σ → WriteOnce String ObservedTransfer
  lookup_store : ∀ transferId s, store (lookupTransfer transferId s).2 = store s
  lookup_answer : ∀ transferId s found, (lookupTransfer transferId s).1 = .ok found → (store s).get transferId = found
  create_store : ∀ intent s, store (createTransfer intent s).2 = store s ∨
    store (createTransfer intent s).2 = (store s).store intent.transferId intent.observed

/-- A call of a client with its answer. -/
inductive ClientCall (ε : Type)
  | lookup (transferId : String) (answer : Except ε (Option ObservedTransfer))
  | create (intent : TransferIntent) (answer : Except ε CreateTransferResult)

/-- A call with the store before and after it. -/
structure LoggedCall (ε : Type) where
  call : ClientCall ε
  before : WriteOnce String ObservedTransfer
  after : WriteOnce String ObservedTransfer

namespace LoggedCall

variable {ε : Type}

/-- The call has stored a transfer under an identifier. -/
def stores (transferId : String) (c : LoggedCall ε) : Bool :=
  (c.before.get transferId).isNone && (c.after.get transferId).isSome

/-- A log that leads from a store to a store, each call from where the one before it ended. -/
inductive Linked : WriteOnce String ObservedTransfer → List (LoggedCall ε) → WriteOnce String ObservedTransfer → Prop
  | nil (m : WriteOnce String ObservedTransfer) : Linked m [] m
  | cons (c : LoggedCall ε) (rest : List (LoggedCall ε)) (m : WriteOnce String ObservedTransfer)
      (hgrows : c.before.Extends c.after) (hrest : Linked c.after rest m) : Linked c.before (c :: rest) m

variable {m m' m'' : WriteOnce String ObservedTransfer} {log log' : List (LoggedCall ε)}

/-- Logs are put one after the other. -/
theorem Linked.append (h : Linked m log m') (h' : Linked m' log' m'') : Linked m (log ++ log') m'' := by
  induction h with
  | nil m => exact h'
  | cons c rest m hgrows hrest ih => exact .cons c _ _ hgrows (ih h')

/-- The store grows along a log. -/
theorem Linked.extends (h : Linked m log m') : m.Extends m' := by
  induction h with
  | nil m => exact .refl m
  | cons c rest m hgrows hrest ih => exact hgrows.trans ih

/-- What is stored after a call is still stored at the end. -/
theorem Linked.kept (h : Linked m log m') {c : LoggedCall ε} (hc : c ∈ log) : c.after.Extends m' := by
  induction h with
  | nil m => exact absurd hc List.not_mem_nil
  | cons first rest m hgrows hrest ih =>
    rcases List.mem_cons.mp hc with rfl | hc
    · exact hrest.extends
    · exact ih hc

/-- Each call of a log overwrites nothing. -/
theorem Linked.grows (h : Linked m log m') {c : LoggedCall ε} (hc : c ∈ log) : c.before.Extends c.after := by
  induction h with
  | nil m => exact absurd hc List.not_mem_nil
  | cons first rest m hgrows hrest ih =>
    rcases List.mem_cons.mp hc with rfl | hc
    · exact hgrows
    · exact ih hc

/-- Nothing is stored under an identifier that is taken, and no identifier is stored under twice. -/
theorem Linked.countP_stores (h : Linked m log m') (transferId : String) :
    log.countP (stores transferId) ≤ if (m.get transferId).isSome then 0 else 1 := by
  induction h with
  | nil m => simp
  | cons c rest m hgrows hrest ih =>
    rw [List.countP_cons]
    cases hbefore : c.before.get transferId with
    | some transfer =>
      -- A taken identifier stays taken, so neither this call nor a later one stores under it.
      rw [hgrows transferId transfer hbefore] at ih
      simpa [stores, hbefore] using ih
    | none =>
      cases hafter : c.after.get transferId with
      | none => simpa [stores, hbefore, hafter] using ih
      | some transfer =>
        rw [hafter] at ih
        simpa [stores, hbefore, hafter] using ih

end LoggedCall

namespace WriteOnceClient

variable {σ ε : Type} (client : WriteOnceClient σ ε)

/-- The record of a lookup. -/
def looked (transferId : String) (s : σ) : LoggedCall ε :=
  ⟨.lookup transferId (client.lookupTransfer transferId s).1, client.store s,
    client.store (client.lookupTransfer transferId s).2⟩

/-- The record of a creation. -/
def made (intent : TransferIntent) (s : σ) : LoggedCall ε :=
  ⟨.create intent (client.createTransfer intent s).1, client.store s, client.store (client.createTransfer intent s).2⟩

/-- The client with a record of every call. -/
def logged : TransferClient (σ × List (LoggedCall ε)) ε where
  lookupTransfer transferId s :=
    ((client.lookupTransfer transferId s.1).1, (client.lookupTransfer transferId s.1).2,
      s.2 ++ [client.looked transferId s.1])
  createTransfer intent s :=
    ((client.createTransfer intent s.1).1, (client.createTransfer intent s.1).2, s.2 ++ [client.made intent s.1])

/-- A lookup stores nothing. -/
theorem looked_extends (transferId : String) (s : σ) :
    (client.looked transferId s).before.Extends (client.looked transferId s).after := by
  unfold looked
  rw [client.lookup_store]
  exact .refl _

/-- A creation overwrites nothing. -/
theorem made_extends (intent : TransferIntent) (s : σ) :
    (client.made intent s).before.Extends (client.made intent s).after := by
  unfold made
  rcases client.create_store intent s with hsame | hstored
  · rw [hsame]
    exact .refl _
  · rw [hstored]
    exact fun _ _ h => WriteOnce.get_store_of_some h

/-- A call stores nothing but the transfer of its own creation. -/
theorem made_stored (intent : TransferIntent) (s : σ) {transferId : String} {transfer : ObservedTransfer}
    (h : (client.made intent s).after.get transferId = some transfer) :
    (client.made intent s).before.get transferId = some transfer ∨
      (transferId = intent.transferId ∧ transfer = intent.observed) := by
  unfold made at h ⊢
  rcases client.create_store intent s with hsame | hstored
  · rw [hsame] at h
    exact .inl h
  · rw [hstored] at h
    exact WriteOnce.get_store_cases h

/-- What a submission does: the calls it makes, in order, and what it returns. -/
inductive Submits (intent : TransferIntent) (s : σ) :
    Except (SubmitError ε) SubmitOutcome → List (LoggedCall ε) → σ → Prop
  | refused (error : TransferError) (h : intent.validate = .error error) :
      Submits intent s (.error (.invalidIntent error)) [] s
  | unanswered (error : ε) (h : (client.lookupTransfer intent.transferId s).1 = .error error) :
      Submits intent s (.error (.client error)) [client.looked intent.transferId s]
        (client.lookupTransfer intent.transferId s).2
  | found (observed : ObservedTransfer) (h : (client.lookupTransfer intent.transferId s).1 = .ok (some observed)) :
      Submits intent s (intent.verdict observed) [client.looked intent.transferId s]
        (client.lookupTransfer intent.transferId s).2
  | undecided (s₁ : σ) (result : Except (SubmitError ε) SubmitOutcome) (hvalid : intent.validate = .ok ())
      (h : client.lookupTransfer intent.transferId s = (.ok none, s₁)) (hresult : result ≠ .ok .confirmed) :
      Submits intent s result [client.looked intent.transferId s, client.made intent s₁]
        (client.createTransfer intent s₁).2
  | created (s₁ s₂ : σ) (result : Except (SubmitError ε) SubmitOutcome) (hvalid : intent.validate = .ok ())
      (h : client.lookupTransfer intent.transferId s = (.ok none, s₁)) (h₂ : (client.createTransfer intent s₁).2 = s₂)
      (hresult : result = .ok .confirmed →
        (client.lookupTransfer intent.transferId s₂).1 = .ok (some intent.observed)) :
      Submits intent s result
        [client.looked intent.transferId s, client.made intent s₁, client.looked intent.transferId s₂]
        (client.lookupTransfer intent.transferId s₂).2

/-- A submission whose creation was answered looks up again. -/
theorem submits_again {intent : TransferIntent} {s s₁ s₂ : σ} {answer : Except ε CreateTransferResult}
    (hvalid : intent.validate = .ok ()) (hlookup : client.lookupTransfer intent.transferId s = (.ok none, s₁))
    (hcreate : client.createTransfer intent s₁ = (answer, s₂)) :
    let r := lookupAfterCreate client.logged intent
      (s₂, [client.looked intent.transferId s, client.made intent s₁])
    client.Submits intent s r.1 r.2.2 r.2.1 := by
  intro r
  have hcase : ∀ result, (result = .ok .confirmed →
      (client.lookupTransfer intent.transferId s₂).1 = .ok (some intent.observed)) →
      client.Submits intent s result _ _ :=
    fun result => .created s₁ s₂ result hvalid hlookup (by rw [hcreate])
  rcases hagain : client.lookupTransfer intent.transferId s₂ with ⟨_ | _ | observed, s₃⟩ <;>
    rw [hagain] at hcase <;> simp only [r, lookupAfterCreate, logged, hagain]
  · exact hcase _ (by simp)
  · exact hcase _ (by simp)
  · refine hcase _ fun hconfirmed => ?_
    rw [TransferIntent.verdict_confirmed.mp hconfirmed]

/-- Every submission does so. -/
theorem submits (intent : TransferIntent) (s : σ) :
    client.Submits intent s (submitLookupBeforeRetry client.logged intent (s, [])).1
      (submitLookupBeforeRetry client.logged intent (s, [])).2.2
      (submitLookupBeforeRetry client.logged intent (s, [])).2.1 := by
  unfold submitLookupBeforeRetry
  split
  · rename_i error hinvalid
    exact .refused error hinvalid
  · rename_i hvalid
    dsimp only [logged]
    rcases hlookup : client.lookupTransfer intent.transferId s with ⟨_ | _ | observed, s₁⟩
    · rename_i error
      have hcase : client.Submits intent s _ _ _ := .unanswered error (by rw [hlookup])
      rwa [hlookup] at hcase
    · dsimp only [List.nil_append]
      rcases hcreate : client.createTransfer intent s₁ with ⟨_ | _ | _ | _, s₂⟩
      case ok.rejected =>
        have hcase : client.Submits intent s (.ok .rejected) _ _ := .undecided s₁ _ hvalid hlookup (by simp)
        rwa [hcreate] at hcase
      case error error =>
        have hcase : client.Submits intent s (.error (.client error)) _ _ := .undecided s₁ _ hvalid hlookup (by simp)
        rwa [hcreate] at hcase
      all_goals exact client.submits_again hvalid hlookup hcreate
    · have hcase : client.Submits intent s _ _ _ := .found observed (by rw [hlookup])
      rwa [hlookup] at hcase

variable {client} {intent : TransferIntent} {s s' : σ} {result : Except (SubmitError ε) SubmitOutcome}
  {calls : List (LoggedCall ε)}

/-- The calls lead from the store before the submission to the store after it. -/
theorem Submits.linked (h : client.Submits intent s result calls s') :
    LoggedCall.Linked (client.store s) calls (client.store s') := by
  have hlooked : ∀ s, LoggedCall.Linked (client.store s) [client.looked intent.transferId s]
      (client.store (client.lookupTransfer intent.transferId s).2) :=
    fun s => .cons _ _ _ (client.looked_extends intent.transferId s) (.nil _)
  have hmade : ∀ s, LoggedCall.Linked (client.store s) [client.made intent s]
      (client.store (client.createTransfer intent s).2) :=
    fun s => .cons _ _ _ (client.made_extends intent s) (.nil _)
  cases h with
  | refused => exact .nil _
  | unanswered => exact hlooked s
  | found => exact hlooked s
  | undecided s₁ _ _ hnone =>
    have hfirst := hlooked s
    rw [hnone] at hfirst
    exact hfirst.append (hmade s₁)
  | created s₁ s₂ _ _ hnone hcreated =>
    have hfirst := hlooked s
    rw [hnone] at hfirst
    have hsecond := hmade s₁
    rw [hcreated] at hsecond
    exact hfirst.append (hsecond.append (hlooked s₂))

/-- A creation follows at once on a lookup of the same identifier that found nothing, and its intent is valid. -/
theorem Submits.create_after_lookup (h : client.Submits intent s result calls s') {j : ℕ} {c : LoggedCall ε}
    {asked : TransferIntent} {answer : Except ε CreateTransferResult} (hc : calls[j]? = some c)
    (hcall : c.call = .create asked answer) :
    asked.validate = .ok () ∧ ∃ i c', j = i + 1 ∧ calls[i]? = some c' ∧
      c'.call = .lookup asked.transferId (.ok none) := by
  have hlooked : ∀ s, client.looked intent.transferId s ≠ c := by
    rintro s rfl
    cases hcall
  have hmade : ∀ s, client.made intent s = c → asked = intent := by
    rintro s rfl
    cases hcall
    rfl
  cases h with
  | refused => simp at hc
  | unanswered =>
    cases j with
    | zero => exact absurd (Option.some.inj hc) (hlooked s)
    | succ j => simp at hc
  | found =>
    cases j with
    | zero => exact absurd (Option.some.inj hc) (hlooked s)
    | succ j => simp at hc
  | undecided s₁ _ hvalid hnone =>
    match j with
    | 0 => exact absurd (Option.some.inj hc) (hlooked s)
    | 1 =>
      obtain rfl := hmade s₁ (Option.some.inj hc)
      exact ⟨hvalid, 0, _, rfl, rfl, by rw [looked, hnone]⟩
    | j + 2 => simp at hc
  | created s₁ s₂ _ hvalid hnone =>
    match j with
    | 0 => exact absurd (Option.some.inj hc) (hlooked s)
    | 1 =>
      obtain rfl := hmade s₁ (Option.some.inj hc)
      exact ⟨hvalid, 0, _, rfl, rfl, by rw [looked, hnone]⟩
    | 2 => exact absurd (Option.some.inj hc) (hlooked s₂)
    | j + 3 => simp at hc

/-- A confirmed transfer is stored as the intent asks for it. -/
theorem Submits.confirmed (h : client.Submits intent s result calls s') (hconfirmed : result = .ok .confirmed) :
    (client.store s').get intent.transferId = some intent.observed := by
  cases h with
  | refused => cases hconfirmed
  | unanswered => cases hconfirmed
  | found observed hfound =>
    rw [TransferIntent.verdict_confirmed.mp hconfirmed] at hfound
    rw [client.lookup_store]
    exact client.lookup_answer _ _ _ hfound
  | undecided _ _ _ _ hresult => exact absurd hconfirmed hresult
  | created s₁ s₂ _ _ _ _ hresult =>
    rw [client.lookup_store]
    exact client.lookup_answer _ _ _ (hresult hconfirmed)

/-- A call of a submission stores nothing but the transfer of the intent, by a creation. -/
theorem Submits.stored (h : client.Submits intent s result calls s') {c : LoggedCall ε} (hc : c ∈ calls)
    {transferId : String} {transfer : ObservedTransfer} (hafter : c.after.get transferId = some transfer) :
    c.before.get transferId = some transfer ∨
      (transferId = intent.transferId ∧ transfer = intent.observed ∧ intent.validate = .ok ()) := by
  have hlooked : ∀ s, c = client.looked intent.transferId s → c.before.get transferId = some transfer := by
    rintro s rfl
    rw [looked, client.lookup_store] at hafter
    exact hafter
  have hmade : ∀ s, intent.validate = .ok () → c = client.made intent s → c.before.get transferId = some transfer ∨
      (transferId = intent.transferId ∧ transfer = intent.observed ∧ intent.validate = .ok ()) := by
    rintro s hvalid rfl
    refine (client.made_stored intent s hafter).imp_right ?_
    rintro ⟨hid, htransfer⟩
    exact ⟨hid, htransfer, hvalid⟩
  cases h with
  | refused => exact absurd hc List.not_mem_nil
  | unanswered => exact .inl (hlooked s (List.mem_singleton.mp hc))
  | found => exact .inl (hlooked s (List.mem_singleton.mp hc))
  | undecided s₁ _ hvalid =>
    simp only [List.mem_cons, List.not_mem_nil, or_false] at hc
    rcases hc with hc | hc
    · exact .inl (hlooked s hc)
    · exact hmade s₁ hvalid hc
  | created s₁ s₂ _ hvalid =>
    simp only [List.mem_cons, List.not_mem_nil, or_false] at hc
    rcases hc with hc | hc | hc
    · exact .inl (hlooked s hc)
    · exact hmade s₁ hvalid hc
    · exact .inl (hlooked s₂ hc)

end WriteOnceClient

/-- A submission that was made: its intent, what it returned, its calls, and the state it left behind. -/
structure Submitted (σ ε : Type) where
  intent : TransferIntent
  result : Except (SubmitError ε) SubmitOutcome
  calls : List (LoggedCall ε)
  after : σ

namespace WriteOnceClient

variable {σ ε : Type} (client : WriteOnceClient σ ε)

/-- Submissions one after the other, each from the state that the one before it left behind. -/
def submitAll (s : σ) : List TransferIntent → List (Submitted σ ε)
  | [] => []
  | intent :: rest =>
    let (result, after, calls) := submitLookupBeforeRetry client.logged intent (s, [])
    ⟨intent, result, calls, after⟩ :: submitAll after rest

/-- The calls of all submissions, in order. -/
def log (s : σ) (intents : List TransferIntent) : List (LoggedCall ε) :=
  (client.submitAll s intents).flatMap Submitted.calls

/-- The state after all submissions. -/
def afterAll (s : σ) : List TransferIntent → σ
  | [] => s
  | intent :: rest => afterAll (submitLookupBeforeRetry client.logged intent (s, [])).2.1 rest

variable {client} {s : σ} {intents : List TransferIntent}

/-- Each submission of a sequence is a submission from some state. -/
theorem exists_submits {x : Submitted σ ε} (hx : x ∈ client.submitAll s intents) :
    x.intent ∈ intents ∧ ∃ before, client.Submits x.intent before x.result x.calls x.after := by
  induction intents generalizing s with
  | nil => exact absurd hx List.not_mem_nil
  | cons intent rest ih =>
    rcases List.mem_cons.mp hx with rfl | hx
    · exact ⟨List.mem_cons_self .., s, client.submits intent s⟩
    · obtain ⟨hmem, hsubmits⟩ := ih hx
      exact ⟨List.mem_cons_of_mem _ hmem, hsubmits⟩

/-- The calls of a sequence lead from its first store to its last. -/
theorem log_linked (s : σ) (intents : List TransferIntent) :
    LoggedCall.Linked (client.store s) (client.log s intents) (client.store (client.afterAll s intents)) := by
  induction intents generalizing s with
  | nil => exact .nil _
  | cons intent rest ih => exact (client.submits intent s).linked.append (ih _)

/-- Every submission's store is a store that the last one extends. -/
theorem after_extends {x : Submitted σ ε} (hx : x ∈ client.submitAll s intents) :
    (client.store x.after).Extends (client.store (client.afterAll s intents)) := by
  induction intents generalizing s with
  | nil => exact absurd hx List.not_mem_nil
  | cons intent rest ih =>
    rcases List.mem_cons.mp hx with rfl | hx
    · exact (log_linked _ rest).extends
    · exact ih hx

end WriteOnceClient

/-- Looking up before a retry neither duplicates nor misreports, over every client whose store is a write-once map
and every sequence of submissions. A creation is called only at once after a lookup of the same identifier in the
same submission that found nothing, with a valid intent. A confirmed submission leaves, and the sequence keeps, the
transfer of its intent in the store. What a call has stored stays as it is to the end, a call stores nothing but
the transfer of a submitted valid intent under its identifier, and at most one call of the sequence stores under
an identifier, none where it was taken. -/
theorem lookup_before_retry_safe {σ ε : Type} (client : WriteOnceClient σ ε) (s : σ) (intents : List TransferIntent) :
    (∀ x ∈ client.submitAll s intents, ∀ (j : ℕ) (c : LoggedCall ε) (asked : TransferIntent)
      (answer : Except ε CreateTransferResult), x.calls[j]? = some c → c.call = .create asked answer →
      asked.validate = .ok () ∧ ∃ i c', j = i + 1 ∧ x.calls[i]? = some c' ∧
        c'.call = .lookup asked.transferId (.ok none)) ∧
    (∀ x ∈ client.submitAll s intents, x.result = .ok .confirmed →
      (client.store x.after).get x.intent.transferId = some x.intent.observed ∧
      (client.store (client.afterAll s intents)).get x.intent.transferId = some x.intent.observed) ∧
    (∀ c ∈ client.log s intents, c.before.Extends c.after ∧
      c.after.Extends (client.store (client.afterAll s intents))) ∧
    (∀ c ∈ client.log s intents, ∀ transferId transfer, c.after.get transferId = some transfer →
      c.before.get transferId = some transfer ∨
        ∃ intent ∈ intents, intent.validate = .ok () ∧ transferId = intent.transferId ∧ transfer = intent.observed) ∧
    (∀ transferId, (client.log s intents).countP (LoggedCall.stores transferId) ≤
      if ((client.store s).get transferId).isSome then 0 else 1) := by
  have hlinked := client.log_linked s intents
  refine ⟨?_, ?_, ?_, ?_, hlinked.countP_stores⟩
  · intro x hx j c asked answer hc hcall
    obtain ⟨-, before, hsubmits⟩ := WriteOnceClient.exists_submits hx
    exact hsubmits.create_after_lookup hc hcall
  · intro x hx hconfirmed
    obtain ⟨-, before, hsubmits⟩ := WriteOnceClient.exists_submits hx
    have hstored := hsubmits.confirmed hconfirmed
    exact ⟨hstored, WriteOnceClient.after_extends hx _ _ hstored⟩
  · intro c hc
    exact ⟨hlinked.grows hc, hlinked.kept hc⟩
  · intro c hc transferId transfer hafter
    obtain ⟨x, hx, hcalls⟩ := List.mem_flatMap.mp hc
    obtain ⟨hmem, before, hsubmits⟩ := WriteOnceClient.exists_submits hx
    refine (hsubmits.stored hcalls hafter).imp_right ?_
    rintro ⟨hid, htransfer, hvalid⟩
    exact ⟨x.intent, hmem, hvalid, hid, htransfer⟩

/-- A ledger with a script that says of each call whether it takes effect and whether its answer is lost. -/
def scriptedLedger : WriteOnceClient (WriteOnce String ObservedTransfer × List (Bool × Bool)) Unit where
  lookupTransfer transferId s :=
    (if s.2.head?.any Prod.snd then .error () else .ok (s.1.get transferId), s.1, s.2.tail)
  createTransfer intent s :=
    (if s.2.head?.any Prod.snd then .error ()
      else if ¬s.2.head?.any Prod.fst then .ok .rejected
      else if (s.1.get intent.transferId).isSome then .ok .exists
      else .ok .created,
      if s.2.head?.any Prod.fst then s.1.store intent.transferId intent.observed else s.1, s.2.tail)
  store := Prod.fst
  lookup_store _ _ := rfl
  lookup_answer transferId s found h := by
    split at h
    · cases h
    · exact Except.ok.inj h
  create_store intent s := by
    dsimp only
    split
    · exact .inr rfl
    · exact .inl rfl

/-- The intent of a settlement over 125 naira. -/
def sampleTransferIntent : TransferIntent := ⟨"settlement-0001", "payer-clearing", "tax-authority", 12500, 566⟩

/-- The answer to the first creation is lost after the transfer was stored; the retry finds it and creates none. -/
theorem lookup_before_retry_safe_retried :
    let s : WriteOnce String ObservedTransfer × List (Bool × Bool) := (.empty, [(true, false), (true, true), (true, false)])
    let intents := List.replicate 2 sampleTransferIntent
    (scriptedLedger.submitAll s intents).map Submitted.result = [.error (.client ()), .ok .confirmed] ∧
      (scriptedLedger.store (scriptedLedger.afterAll s intents)).get "settlement-0001" = some sampleTransferIntent.observed ∧
      (scriptedLedger.log s intents).countP (LoggedCall.stores "settlement-0001") ≤ 1 := by
  intro s intents
  obtain ⟨-, hconfirmed, -, -, hstores⟩ := lookup_before_retry_safe scriptedLedger s intents
  have hretried : (scriptedLedger.submitAll s intents).map Submitted.result = [.error (.client ()), .ok .confirmed] ∧
      ∃ x ∈ scriptedLedger.submitAll s intents, x.result = .ok .confirmed ∧ x.intent = sampleTransferIntent := by
    decide +kernel
  obtain ⟨hresults, x, hx, hresult, hintent⟩ := hretried
  have hstored := (hconfirmed x hx hresult).2
  rw [hintent] at hstored
  exact ⟨hresults, hstored, hstores "settlement-0001"⟩

end TaxStamp
