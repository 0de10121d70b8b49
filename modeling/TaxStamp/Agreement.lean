import TaxStamp.Settlement

/-!
# Orders and their payment intents

Approval, cancellation, settlement and issuance advance two status machines in two tables.
They stay in step except for a cancellation of an order that already awaits its payment:
`cancel_order` moves the order and leaves its intent open. Runs without such a
cancellation are described by a guard on the state before each step.
-/

namespace TaxStamp

open Lib

/-- An intent is open only while its order awaits payment, and settled exactly when its order is paid. -/
def PaymentIntent.Agrees (i : PaymentIntent) (o : Order) : Prop :=
  (i.status = .awaitingPayment → o.status = .awaitingPayment) ∧
    (i.status = .settled ↔ o.status = .paid ∨ o.status = .issuing ∨ o.status = .issued)

instance (i : PaymentIntent) (o : Order) : Decidable (i.Agrees o) :=
  inferInstanceAs (Decidable ((_ → _) ∧ (_ ↔ _)))

/-- Every intent has an order and agrees with it. -/
def IntentsAgree (db : Db) : Prop :=
  ∀ i ∈ db.paymentIntents.rows, ∃ o ∈ db.orders.rows, o.id = i.orderId ∧ i.Agrees o

instance (db : Db) : Decidable (IntentsAgree db) :=
  inferInstanceAs (Decidable (∀ i ∈ db.paymentIntents.rows, ∃ o ∈ db.orders.rows, o.id = i.orderId ∧ i.Agrees o))

/-- The step is not a cancellation, by someone who may cancel it, of an order that awaits its payment. -/
def noOpenCancel (s : Platform) : Event → Prop
  | .cancelOrder _ actor orderId _ _ =>
    ∀ o ∈ s.db.orders.rows, o.id = orderId → actor.mayCancel o → o.status ≠ .awaitingPayment
  | _ => True

instance (s : Platform) (e : Event) : Decidable (noOpenCancel s e) := by
  unfold noOpenCancel
  split <;> infer_instance

/-- No cancelled order has an intent. -/
def CancelledClosed (db : Db) : Prop :=
  ∀ o ∈ db.orders.rows, o.status = .cancelled → db.accounts.intentsOf o.id = []

/-- When no cancelled order has an intent, every intent agrees with its order. -/
theorem Reconciled.intentsAgree {db : Db} (h : Reconciled db) (hcancelled : CancelledClosed db) : IntentsAgree db := by
  intro i hi
  obtain ⟨o, ho, hid⟩ := List.mem_map.mp (h.closed.intents i hi)
  refine ⟨o, ho, hid, ?_⟩
  have hmem : i ∈ db.accounts.intentsOf o.id := Accounts.mem_intentsOf.mpr ⟨hi, hid.symm⟩
  have hunopened : ¬db.accounts.intentsOf o.id = [] := List.ne_nil_of_mem hmem
  have hdossier := h.dossier o ho
  unfold Accounts.Dossier at hdossier
  cases hs : o.status <;> simp only [hs] at hdossier
  case submitted | compliancePending | complianceRejected | awaitingApproval | rejected | approved =>
    exact absurd hdossier.intents hunopened
  case cancelled => exact absurd (hcancelled o ho hs) hunopened
  case awaitingPayment =>
    obtain ⟨i', hi'⟩ := hdossier
    obtain rfl : i = i' := Accounts.eq_of_mem_intentsOf hi'.intents hi hid.symm
    exact ⟨fun _ => hs, by simp [hi'.status, hs]⟩
  case paid | issuing | issued =>
    obtain ⟨i', r, j, hi'⟩ := hdossier
    obtain rfl : i = i' := Accounts.eq_of_mem_intentsOf hi'.intents hi hid.symm
    exact ⟨by simp [hi'.status], by simp [hi'.status, hs]⟩

section Preservation

variable {db : Db} (h : CancelledClosed db)
include h

/-- A transaction that leaves orders and intents alone closes nothing. -/
theorem CancelledClosed.frame {db' : Db} (horders : db'.orders = db.orders)
    (hintents : db'.paymentIntents = db.paymentIntents) : CancelledClosed db' := by
  intro o ho hs
  rw [horders] at ho
  change db'.paymentIntents.rows.filter _ = []
  rw [hintents]
  exact h o ho hs

/-- An order that moves to another status than cancelled keeps the cancelled ones closed when the
intents of the others do not grow. -/
theorem CancelledClosed.move {O : Table orderSchema} {orderId : Uuid} {status : OrderStatus} {now : Time} {db' : Db}
    (hO : O.rows = moveOrder orderId status now db.orders.rows) (horders : db'.orders = O)
    (hstatus : status = .cancelled → db.accounts.intentsOf orderId = [])
    (hintents : ∀ id, (id = orderId → status = .cancelled) → db.accounts.intentsOf id = [] →
      db'.accounts.intentsOf id = []) : CancelledClosed db' := by
  intro o ho hs
  rw [horders, hO] at ho
  obtain ⟨old, hold, ⟨hid, rfl⟩ | ⟨hid, rfl⟩⟩ := mem_moveOrder.mp ho
  · have hcancelled : status = .cancelled := hs
    apply hintents
    · intro _
      exact hcancelled
    · change db.accounts.intentsOf old.id = []
      rw [hid]
      exact hstatus hcancelled
  · apply hintents
    · intro heq
      exact absurd heq hid
    · exact h o hold hs

end Preservation

/-- Apart from a cancellation of an open order, no step leaves a cancelled order with an intent. -/
theorem CancelledClosed.step (settings : Settings) (s : Platform) (e : Event) (hreconciled : Reconciled s.db)
    (h : CancelledClosed s.db) (hguard : noOpenCancel s e) : CancelledClosed (TaxStamp.step settings s e).db := by
  have hchange := step_change settings s e
  generalize (TaxStamp.step settings s e).db = db' at hchange ⊢
  cases hchange with
  | sameCore e db' hsame => exact h.frame hsame.orders hsame.paymentIntents
  | submitted compliance draws actor command now key draft compliant O T A hdraft hfresh hO hT =>
    intro o ho hs
    change o ∈ O.rows at ho
    rw [hO, List.mem_append, List.mem_singleton] at ho
    rcases ho with ho | rfl
    · exact h o ho hs
    · cases compliant <;> contradiction
  | decided draws actor command now key order P db₁ A horder hid hstatus hrole hsubmitter hfirst hP heffect =>
    cases heffect with
    | rejected O T hdecision hO hT =>
      exact h.move hO rfl (fun heq => nomatch heq) fun id _ hnone => hnone
    | recorded hdecision hopen => exact h.frame rfl rfl
    | opened O T I M hdecision hfull hO hT hI =>
      refine h.move hO rfl (fun heq => nomatch heq) fun id hother hnone => ?_
      have hne : (newIntent draws order now).orderId ≠ id := fun heq => nomatch hother heq.symm
      have hopen := Accounts.intentsOf_open (a := s.db.accounts) hI id
      rw [hnone, if_neg hne] at hopen
      exact hopen
  | cancelled draws actor orderId reason now order O T A horder hid hmay hlegal hO hT =>
    refine h.move hO rfl (fun _ => ?_) fun id _ hnone => hnone
    have hdossier := hreconciled.dossier order horder
    have hopen := hguard order horder hid hmay
    unfold Accounts.Dossier at hdossier
    rcases cancelled_mem_orderTransitions.mp hlegal with hs | hs | hs | hs | hs | hs <;> rw [hs] at hdossier
    · exact hdossier.intents
    · exact hdossier.intents
    · exact hdossier.intents
    · exact hdossier.intents
    · exact hdossier.intents
    · exact absurd hs hopen
  | ingested draws advice now db' heffect =>
    cases heffect with
    | replayed receipt hmem hreference => exact h
    | unknown payloadHash R A hR => exact h.frame rfl rfl
    | mismatched intent payloadHash R J E M A hintent hstatus hR hJ hE hsupported => exact h.frame rfl rfl
    | settled intent order payloadHash R O T I J E M A hintent hstatus horder hid hawaiting hR hO hT hI hJ hE
        hsupported =>
      refine h.move hO rfl (fun heq => nomatch heq) fun id _ hnone => ?_
      have hmap := Accounts.intentsOf_settle (a := s.db.accounts) hI id
      rw [hnone, List.map_nil] at hmap
      exact hmap
  | issued draws orderId chunkSize now db' heffect =>
    obtain ⟨order, batch, base, added, complete, f, O, T, B, C, S, M, A, horder, hid, hstatus, hbatch, hbase,
      hadded, hcount, hcomplete, hf, hO, hT, hB, hS⟩ := heffect
    split at hO
    · exact h.frame (Table.ext_rows hO) rfl
    · refine h.move hO rfl (fun heq => ?_) fun id _ hnone => hnone
      unfold issuedStatus at heq
      split at heq <;> contradiction
  | inspected draws actor command now db' heffect =>
    cases heffect
    exact h.frame rfl rfl
  | activated index draws actor now key a db' ha heffect =>
    cases heffect
    exact h.frame rfl rfl
  | retired e db' heffect =>
    cases heffect
    exact h.frame rfl rfl

/-- Order and payment intent agree after every run in which no order is cancelled while it awaits its
payment. -/
theorem intents_agree_of_noOpenCancel (settings : Settings) (companies : Table companySchema)
    (tariffs : Table tariffSchema) (events : List Event)
    (halong : Along (step settings) noOpenCancel (Platform.initial companies tariffs) events) :
    IntentsAgree (Lib.run (step settings) (Platform.initial companies tariffs) events).db := by
  have hinv := run_invariant_along (fun s => Reconciled s.db ∧ CancelledClosed s.db)
    (fun s e h hguard => ⟨h.1.step settings s e, h.2.step settings s e h.1 hguard⟩)
    (Platform.initial companies tariffs) ⟨Reconciled.initial companies tariffs, ?_⟩ events halong
  · exact hinv.1.intentsAgree hinv.2
  · intro o ho
    cases ho

/-- The sample run cancels nothing, and its intent is settled with its order. -/
theorem intents_agree_sample :
    Along (step sampleSettings) noOpenCancel samplePlatform sampleIssued ∧
      IntentsAgree (Lib.run (step sampleSettings) samplePlatform sampleIssued).db := by
  have halong : Along (step sampleSettings) noOpenCancel samplePlatform sampleIssued :=
    ⟨trivial, trivial, trivial, trivial, trivial⟩
  exact ⟨halong, intents_agree_of_noOpenCancel sampleSettings sampleCompanies sampleTariffs sampleIssued halong⟩

/-- A requester cancels the approved sample order: its intent stays open. -/
theorem not_intents_agree_of_cancel :
    ¬IntentsAgree (Lib.run (step sampleSettings) samplePlatform
      (sampleApproved ++ [.cancelOrder (sampleDraws 3) sampleRequester ⟨100⟩ "changed" sampleNow])).db := by
  decide +kernel

end TaxStamp
