import TaxStamp.Lifecycle
import TaxStamp.Settlement

/-!
# The compliance and four-eyes gate

An order gets a payment intent only through the approval that completes the levels its
risk tier demands. The gate recomputes the approved levels after every recorded decision,
so an order neither passes too early nor waits for a level it already has. Approvals do
not record the role they were given in; that is read off the events of the run.
-/

namespace TaxStamp

open Lib

/-- The stored evidence holds an affirmative decision of the registry. -/
def Affirms (evidence : Json) (registry : Registry) : Prop :=
  ∃ fields decisions decision, evidence = .obj fields ∧ JsonObject.getD fields "decisions" = .arr decisions ∧
    .obj decision ∈ decisions ∧ JsonObject.getD decision "registry" = .str registry.value ∧
    JsonObject.getD decision "compliant" = .bool true

/-- The evidence of the order affirms every registry its product category requires. -/
def Order.Affirmed (o : Order) : Prop :=
  ∀ registry ∈ ComplianceService.registriesFor o.productCategory, Affirms o.complianceEvidence registry

/-- The evidence of a compliant check affirms every required registry. -/
theorem affirms_of_check {service : ComplianceService} {tin productCategory : String} {quantity : ℤ}
    {outcome : ComplianceOutcome} (h : service.check tin productCategory quantity = .ok outcome)
    (hcompliant : outcome.compliant = true) :
    ∀ registry ∈ ComplianceService.registriesFor productCategory, Affirms outcome.asEvidence registry := by
  obtain ⟨hregistries, hall⟩ := ComplianceService.check_ok h
  rw [hcompliant, eq_comm, List.all_eq_true] at hall
  intro registry hregistry
  rw [← hregistries, List.mem_map] at hregistry
  obtain ⟨decision, hdecision, rfl⟩ := hregistry
  refine ⟨_, outcome.decisions.map RegistryDecision.asEvidence, _, rfl, rfl, List.mem_map_of_mem hdecision, rfl, ?_⟩
  change Json.bool decision.compliant = _
  rw [hall decision hdecision]

/-- The approvals of an order. -/
def approvalsOf (approvals : List Approval) (orderId : Uuid) : List Approval :=
  approvals.filter fun a => a.orderId = orderId

/-- Every level that the order's risk tier demands is approved. -/
def Order.ApprovedBy (o : Order) (given : List Approval) : Prop :=
  ∀ level ∈ requiredApprovals o.riskTier, ∃ a ∈ given, a.decision = .approved ∧ a.level = level

/-- An order is fully approved by its own approvals. -/
theorem fullyApproved_iff {approvals : List Approval} {o : Order} :
    fullyApproved approvals o ↔ o.ApprovedBy (approvalsOf approvals o.id) := by
  refine forall₂_congr fun level _ => exists_congr fun a => ?_
  rw [approvalsOf, List.mem_filter, decide_eq_true_eq, and_assoc]

/-- What the gate keeps true of an order with the approvals given to it; `opened` says that it has
a payment intent. -/
structure Vetted (given : List Approval) (opened : Prop) (o : Order) : Prop where
  distinct : given.Pairwise fun a b => a.actorPrincipalId ≠ b.actorPrincipalId
  submitter : ∀ a ∈ given, a.actorPrincipalId ≠ o.submittedBy
  affirmed : o.status = .awaitingApproval ∨ opened → o.Affirmed
  approved : o.status = .awaitingApproval ∨ opened → ∀ a ∈ given, a.decision = .approved
  complete : opened → o.ApprovedBy given
  incomplete : o.status = .awaitingApproval → ¬o.ApprovedBy given

/-- Leaving the approval stage keeps an order vetted. -/
theorem Vetted.withStatus {given : List Approval} {opened opened' : Prop} {o : Order} (h : Vetted given opened o)
    {status : OrderStatus} (hstatus : status ≠ .awaitingApproval) (hopened : opened' → opened) (now : Time) :
    Vetted given opened' (o.withStatus status now) where
  distinct := h.distinct
  submitter := h.submitter
  affirmed hor := h.affirmed (.inr (hopened (hor.resolve_left hstatus)))
  approved hor := h.approved (.inr (hopened (hor.resolve_left hstatus)))
  complete ho := h.complete (hopened ho)
  incomplete hs := absurd hs hstatus

/-- An order is as vetted as its approvals and its intents say. -/
theorem Vetted.congr {given given' : List Approval} {opened opened' : Prop} {o : Order} (h : Vetted given opened o)
    (hgiven : given' = given) (hopened : opened' ↔ opened) : Vetted given' opened' o := by
  rw [hgiven, hopened]
  exact h

section Decision

variable {given : List Approval} {o : Order} {a : Approval}
  (h : Vetted given False o) (hstatus : o.status = .awaitingApproval)
  (hsubmitter : a.actorPrincipalId ≠ o.submittedBy)
  (hactors : ∀ b ∈ given, b.actorPrincipalId ≠ a.actorPrincipalId)
include h hsubmitter hactors

/-- A new approval is by another principal, who is not the submitter. -/
theorem Vetted.add_distinct :
    (given ++ [a]).Pairwise (fun a b => a.actorPrincipalId ≠ b.actorPrincipalId) ∧
      ∀ b ∈ given ++ [a], b.actorPrincipalId ≠ o.submittedBy := by
  constructor
  · rw [List.pairwise_append]
    refine ⟨h.distinct, List.pairwise_singleton _ _, ?_⟩
    intro b hb c hc
    rw [List.mem_singleton.mp hc]
    exact hactors b hb
  · intro b hb
    rw [List.mem_append, List.mem_singleton] at hb
    rcases hb with hb | rfl
    · exact h.submitter b hb
    · exact hsubmitter

include hstatus

/-- An approving decision leaves the approvals of the order all approving. -/
theorem Vetted.add_approved (hdecision : a.decision = .approved) : ∀ b ∈ given ++ [a], b.decision = .approved := by
  intro b hb
  rw [List.mem_append, List.mem_singleton] at hb
  rcases hb with hb | rfl
  · exact h.approved (.inl hstatus) b hb
  · exact hdecision

/-- An approval that leaves a level open keeps the order waiting. -/
theorem Vetted.recorded (hdecision : a.decision = .approved) (hopen : ¬o.ApprovedBy (given ++ [a])) :
    Vetted (given ++ [a]) False o where
  distinct := (h.add_distinct hsubmitter hactors).1
  submitter := (h.add_distinct hsubmitter hactors).2
  affirmed _ := h.affirmed (.inl hstatus)
  approved _ := h.add_approved hstatus hsubmitter hactors hdecision
  complete hfalse := hfalse.elim
  incomplete _ := hopen

/-- The approval that completes the levels opens the payment of a vetted order. -/
theorem Vetted.opened (hdecision : a.decision = .approved) (hfull : o.ApprovedBy (given ++ [a])) (now : Time) :
    Vetted (given ++ [a]) True (o.withStatus .awaitingPayment now) where
  distinct := (h.add_distinct hsubmitter hactors).1
  submitter := (h.add_distinct hsubmitter hactors).2
  affirmed _ := h.affirmed (.inl hstatus)
  approved _ := h.add_approved hstatus hsubmitter hactors hdecision
  complete _ := hfull
  incomplete hs := by contradiction

omit hstatus in
/-- A rejection ends the order. -/
theorem Vetted.rejected (now : Time) : Vetted (given ++ [a]) False (o.withStatus .rejected now) where
  distinct := (h.add_distinct hsubmitter hactors).1
  submitter := (h.add_distinct hsubmitter hactors).2
  affirmed hor := by
    rcases hor with hs | hfalse
    · contradiction
    · exact hfalse.elim
  approved hor := by
    rcases hor with hs | hfalse
    · contradiction
    · exact hfalse.elim
  complete hfalse := hfalse.elim
  incomplete hs := by contradiction

end Decision

/-- Every approval is of an order, and every order is vetted. -/
structure Gatekeeping (db : Db) : Prop where
  references : ∀ a ∈ db.approvals.rows, a.orderId ∈ db.orders.rows.map Order.id
  vetted : ∀ o ∈ db.orders.rows,
    Vetted (approvalsOf db.approvals.rows o.id) (db.accounts.intentsOf o.id ≠ []) o

/-- A platform with reference data only has nothing to vet. -/
theorem Gatekeeping.initial (companies : Table companySchema) (tariffs : Table tariffSchema) :
    Gatekeeping (Db.initial companies tariffs) := by
  constructor <;> intro x hx <;> cases hx

section Preservation

variable {db : Db} (h : Gatekeeping db)
include h

/-- A transaction that leaves orders, approvals and intents alone keeps the gate. -/
theorem Gatekeeping.frame {db' : Db} (horders : db'.orders = db.orders) (happrovals : db'.approvals = db.approvals)
    (hintents : ∀ id, db'.accounts.intentsOf id ≠ [] ↔ db.accounts.intentsOf id ≠ []) : Gatekeeping db' where
  references := by
    rw [happrovals, horders]
    exact h.references
  vetted o ho := by
    rw [horders] at ho
    rw [happrovals]
    exact (h.vetted o ho).congr rfl (hintents o.id)

/-- A move out of the approval stage keeps the gate. -/
theorem Gatekeeping.move {O : Table orderSchema} {orderId : Uuid} {status : OrderStatus} {now : Time} {db' : Db}
    (hstatus : status ≠ .awaitingApproval) (hO : O.rows = moveOrder orderId status now db.orders.rows)
    (horders : db'.orders = O) (happrovals : db'.approvals = db.approvals)
    (hintents : ∀ id, db'.accounts.intentsOf id ≠ [] ↔ db.accounts.intentsOf id ≠ []) : Gatekeeping db' where
  references := by
    rw [happrovals, horders, hO, ids_moveOrder]
    exact h.references
  vetted o ho := by
    rw [horders, hO] at ho
    rw [happrovals]
    obtain ⟨old, hold, ⟨-, rfl⟩ | ⟨-, rfl⟩⟩ := mem_moveOrder.mp ho
    · exact (h.vetted old hold).withStatus hstatus (hintents old.id).mp now
    · exact (h.vetted o hold).congr rfl (hintents o.id)

/-- A new order has no approvals and waits for them only if it is compliant. -/
theorem Gatekeeping.submitted {compliance : ComplianceService} {actor : Actor} {command : SubmitOrderCommand}
    {draft : Order} {compliant : Bool} {now : Time} {O : Table orderSchema} {db' : Db}
    (hclosed : db.accounts.Closed (db.orders.rows.map Order.id))
    (hdraft : DraftOf compliance actor command draft compliant) (hfresh : ∀ o ∈ db.orders.rows, o.id ≠ draft.id)
    (hO : O.rows = db.orders.rows ++ [draft.withStatus (submissionStatus compliant) now])
    (horders : db'.orders = O) (happrovals : db'.approvals = db.approvals)
    (haccounts : db'.accounts = db.accounts) : Gatekeeping db' := by
  have hnew : draft.id ∉ db.orders.rows.map Order.id := by
    intro hmem
    obtain ⟨o, ho, hid⟩ := List.mem_map.mp hmem
    exact hfresh o ho hid
  have hgiven : approvalsOf db.approvals.rows draft.id = [] := by
    refine List.filter_eq_nil_iff.mpr fun a ha hid => ?_
    rw [decide_eq_true_eq] at hid
    exact hnew (hid ▸ h.references a ha)
  have hintents : db.accounts.intentsOf draft.id = [] := by
    refine List.filter_eq_nil_iff.mpr fun i hi hid => ?_
    rw [decide_eq_true_eq] at hid
    exact hnew (hid ▸ hclosed.intents i hi)
  constructor
  · intro a ha
    rw [happrovals] at ha
    rw [horders, hO, List.map_append]
    exact List.mem_append_left _ (h.references a ha)
  · intro o ho
    rw [horders, hO, List.mem_append, List.mem_singleton] at ho
    rw [happrovals, haccounts]
    rcases ho with ho | rfl
    · exact h.vetted o ho
    · change Vetted (approvalsOf db.approvals.rows draft.id) (db.accounts.intentsOf draft.id ≠ []) _
      rw [hgiven, hintents]
      have haffirmed : compliant = true → draft.Affirmed := by
        intro hcompliant
        obtain ⟨tin, outcome, hcheck, hevidence, houtcome⟩ := hdraft.evidence
        unfold Order.Affirmed
        rw [hdraft.productCategory, hevidence]
        exact affirms_of_check hcheck (houtcome.trans hcompliant)
      have hopen : ¬draft.ApprovedBy [] := by
        intro hall
        obtain ⟨level, hlevel⟩ := List.exists_mem_of_ne_nil _ (requiredApprovals_ne_nil draft.riskTier)
        obtain ⟨a, ha, -⟩ := hall level hlevel
        cases ha
      refine ⟨List.Pairwise.nil, by simp, fun hor => ?_, by simp, fun hne => absurd rfl hne, fun _ => hopen⟩
      rcases hor with hs | hne
      · cases compliant with
        | true => exact haffirmed rfl
        | false => contradiction
      · exact absurd rfl hne

/-- A decision is recorded on the order it decides and leaves every other order alone. -/
theorem Gatekeeping.decided {draws : Draws} {order : Order} {actor : Actor} {command : ApprovalCommand} {now : Time}
    {P : Table approvalSchema} {db' : Db} (hreconciled : Reconciled db) (horder : order ∈ db.orders.rows)
    (hstatus : order.status = .awaitingApproval) (hsubmitter : order.submittedBy ≠ actor.principalId)
    (hfirst : ∀ a ∈ db.approvals.rows, a.orderId = order.id →
      a.level ≠ command.level ∧ a.actorPrincipalId ≠ actor.principalId)
    (hP : P.rows = db.approvals.rows ++
      [⟨order.id, command.level, command.decision, actor.principalId, command.reason, now⟩])
    (heffect : DecisionEffect draws order actor command now (Tables.approvals.set P db) db') :
    Gatekeeping db' := by
  have hunopened : db.accounts.intentsOf order.id = [] := by
    have hdossier := hreconciled.dossier order horder
    unfold Accounts.Dossier at hdossier
    rw [hstatus] at hdossier
    exact hdossier.intents
  have hbefore : Vetted (approvalsOf db.approvals.rows order.id) False order :=
    (h.vetted order horder).congr rfl ⟨False.elim, fun hne => hne hunopened⟩
  have hactors : ∀ b ∈ approvalsOf db.approvals.rows order.id, b.actorPrincipalId ≠ actor.principalId := by
    intro b hb
    obtain ⟨hmem, hid⟩ := List.mem_filter.mp hb
    exact (hfirst b hmem (of_decide_eq_true hid)).2
  have hself : approvalsOf P.rows order.id = approvalsOf db.approvals.rows order.id ++
      [⟨order.id, command.level, command.decision, actor.principalId, command.reason, now⟩] := by
    rw [approvalsOf, hP, List.filter_append, List.filter_cons, List.filter_nil]
    simp [approvalsOf]
  have hother : ∀ id, id ≠ order.id → approvalsOf P.rows id = approvalsOf db.approvals.rows id := by
    intro id hid
    rw [approvalsOf, hP, List.filter_append, List.filter_cons, List.filter_nil]
    simp [approvalsOf, Ne.symm hid]
  have hreferences : ∀ a ∈ P.rows, a.orderId ∈ db.orders.rows.map Order.id := by
    intro a ha
    rw [hP, List.mem_append, List.mem_singleton] at ha
    rcases ha with ha | rfl
    · exact h.references a ha
    · exact List.mem_map_of_mem horder
  cases heffect with
  | rejected O T hdecision hO hT =>
    constructor
    · change ∀ a ∈ P.rows, a.orderId ∈ O.rows.map Order.id
      rw [hO]
      change ∀ a ∈ P.rows, a.orderId ∈ (moveOrder order.id _ now db.orders.rows).map Order.id
      rw [ids_moveOrder]
      exact hreferences
    · intro o ho
      change o ∈ O.rows at ho
      rw [hO] at ho
      change Vetted (approvalsOf P.rows o.id) (db.accounts.intentsOf o.id ≠ []) o
      obtain ⟨old, hold, ⟨hid, rfl⟩ | ⟨hid, rfl⟩⟩ := mem_moveOrder.mp ho
      · obtain rfl : old = order := order_eq_of_id db hold horder hid
        exact (hbefore.rejected (Ne.symm hsubmitter) hactors now).congr hself ⟨fun hne => hne hunopened, False.elim⟩
      · rw [hother _ hid]
        exact h.vetted o hold
  | recorded hdecision hopen =>
    refine ⟨hreferences, fun o ho => ?_⟩
    change Vetted (approvalsOf P.rows o.id) (db.accounts.intentsOf o.id ≠ []) o
    by_cases hid : o.id = order.id
    · obtain rfl : o = order := order_eq_of_id db ho horder hid
      have hopen : ¬fullyApproved P.rows o := hopen
      rw [fullyApproved_iff, hself] at hopen
      exact (hbefore.recorded hstatus (Ne.symm hsubmitter) hactors hdecision hopen).congr hself
        ⟨fun hne => hne hunopened, False.elim⟩
    · rw [hother _ hid]
      exact h.vetted o ho
  | opened O T I M hdecision hfull hO hT hI =>
    have hintents := Accounts.intentsOf_open (a := db.accounts) hI
    constructor
    · change ∀ a ∈ P.rows, a.orderId ∈ O.rows.map Order.id
      rw [hO]
      change ∀ a ∈ P.rows, a.orderId ∈ (moveOrder order.id _ now db.orders.rows).map Order.id
      rw [ids_moveOrder]
      exact hreferences
    · intro o ho
      change o ∈ O.rows at ho
      rw [hO] at ho
      change Vetted (approvalsOf P.rows o.id) (({ db.accounts with intents := I } : Accounts).intentsOf o.id ≠ []) o
      obtain ⟨old, hold, ⟨hid, rfl⟩ | ⟨hid, rfl⟩⟩ := mem_moveOrder.mp ho
      · obtain rfl : old = order := order_eq_of_id db hold horder hid
        have hfull : fullyApproved P.rows old := hfull
        rw [fullyApproved_iff, hself] at hfull
        refine (hbefore.opened hstatus (Ne.symm hsubmitter) hactors hdecision hfull now).congr hself ?_
        change ({ db.accounts with intents := I } : Accounts).intentsOf old.id ≠ [] ↔ True
        have heq : (newIntent draws old now).orderId = old.id := rfl
        rw [hintents, if_pos heq]
        simp
      · have hne : (newIntent draws order now).orderId ≠ o.id := Ne.symm hid
        rw [hother _ hid, hintents, if_neg hne, List.append_nil]
        exact h.vetted o hold

end Preservation

/-- What a transaction does to the intents: at most it opens the payment of an order that then awaits it. -/
theorem Change.intentsOf {settings : Settings} {s : Platform} {e : Event} {db' : Db} (h : Change settings s e db') (id : Uuid) :
    (db'.accounts.intentsOf id ≠ [] ↔ s.db.accounts.intentsOf id ≠ []) ∨
      (db'.accounts.intentsOf id ≠ [] ∧ ∃ o ∈ db'.orders.rows, o.id = id ∧ o.status = .awaitingPayment) := by
  cases h.intentStep with
  | same hI =>
    left
    change db'.paymentIntents.rows.filter _ ≠ [] ↔ _
    rw [hI]
    rfl
  | opened draws order now horder hI =>
    have hopen := Accounts.intentsOf_open (a := s.db.accounts) hI id
    change db'.accounts.intentsOf id = _ at hopen
    by_cases hid : (newIntent draws order now).orderId = id
    · right
      rw [hopen, if_pos hid]
      exact ⟨by simp, order.withStatus .awaitingPayment now, horder, hid, rfl⟩
    · left
      rw [hopen, if_neg hid, List.append_nil]
  | settled intent now hI =>
    left
    have hmap := Accounts.intentsOf_settle (a := s.db.accounts) hI id
    change db'.accounts.intentsOf id = _ at hmap
    rw [hmap, ne_eq, List.map_eq_nil_iff]

/-- Every transaction keeps the gate. -/
theorem Gatekeeping.step (settings : Settings) (s : Platform) (e : Event) (hreconciled : Reconciled s.db)
    (h : Gatekeeping s.db) : Gatekeeping (TaxStamp.step settings s e).db := by
  have hchange := step_change settings s e
  generalize (TaxStamp.step settings s e).db = db' at hchange ⊢
  cases hchange with
  | sameCore e db' hsame =>
    refine h.frame hsame.orders hsame.approvals fun id => ?_
    change db'.paymentIntents.rows.filter _ ≠ [] ↔ _
    rw [hsame.paymentIntents]
    rfl
  | submitted compliance draws actor command now key draft compliant O T A hdraft hfresh hO hT =>
    exact h.submitted hreconciled.closed hdraft hfresh hO rfl rfl rfl
  | decided draws actor command now key order P db₁ A horder hid hstatus hrole hsubmitter hfirst hP heffect =>
    exact (h.decided hreconciled horder hstatus hsubmitter hfirst hP heffect).frame rfl rfl fun id => Iff.rfl
  | cancelled draws actor orderId reason now order O T A horder hid hmay hlegal hO hT =>
    exact h.move (by decide) hO rfl rfl fun id => Iff.rfl
  | ingested draws advice now db' heffect =>
    cases heffect with
    | replayed receipt hmem hreference => exact h
    | unknown payloadHash R A hR => exact h.frame rfl rfl fun id => Iff.rfl
    | mismatched intent payloadHash R J E M A hintent hstatus hR hJ hE hsupported =>
      exact h.frame rfl rfl fun id => Iff.rfl
    | settled intent order payloadHash R O T I J E M A hintent hstatus horder hid hawaiting hR hO hT hI hJ hE
        hsupported =>
      refine h.move (by decide) hO rfl rfl fun id => ?_
      have hmap := Accounts.intentsOf_settle (a := s.db.accounts) hI id
      change ({ s.db.accounts with intents := I } : Accounts).intentsOf id ≠ [] ↔ _
      rw [hmap, Ne, List.map_eq_nil_iff]
  | issued draws orderId chunkSize now db' heffect =>
    obtain ⟨order, batch, base, added, complete, f, O, T, B, C, S, M, A, horder, hid, hstatus, hbatch, hbase,
      hadded, hcount, hcomplete, hf, hO, hT, hB, hS⟩ := heffect
    split at hO
    · exact h.frame (Table.ext_rows hO) rfl fun id => Iff.rfl
    · refine h.move ?_ hO rfl rfl fun id => Iff.rfl
      unfold issuedStatus
      split <;> decide
  | inspected draws actor command now db' heffect =>
    cases heffect
    exact h.frame rfl rfl fun id => Iff.rfl
  | activated index draws actor now key a db' ha heffect =>
    cases heffect
    exact h.frame rfl rfl fun id => Iff.rfl
  | retired e db' heffect =>
    cases heffect
    exact h.frame rfl rfl fun id => Iff.rfl

/-- The gate is kept after every run. -/
theorem Gatekeeping.run (settings : Settings) (companies : Table companySchema) (tariffs : Table tariffSchema)
    (events : List Event) :
    Gatekeeping (Lib.run (TaxStamp.step settings) (Platform.initial companies tariffs) events).db := by
  have hinv := run_invariant (fun s => Reconciled s.db ∧ Gatekeeping s.db)
    (fun s e h => ⟨h.1.step settings s e, h.2.step settings s e h.1⟩) (Platform.initial companies tariffs)
    ⟨Reconciled.initial companies tariffs, Gatekeeping.initial companies tariffs⟩ events
  exact hinv.2

section History

variable (settings : Settings) (s₀ : Platform)

/-- At some point of the run the order awaited its payment. -/
def ReachedPayment (past : List Event) (orderId : Uuid) : Prop :=
  ∃ before, before <+: past ∧
    ∃ o ∈ (Lib.run (step settings) s₀ before).db.orders.rows, o.id = orderId ∧ o.status = .awaitingPayment

/-- The approval was recorded by a decision whose actor had the role of its level. -/
def GivenInRole (past : List Event) (a : Approval) : Prop :=
  ∃ before draws actor command now key after,
    past = before ++ .decideApproval draws actor command now key :: after ∧
    a ∉ (Lib.run (step settings) s₀ before).db.approvals.rows ∧
    a ∈ (Lib.run (step settings) s₀ (before ++ [.decideApproval draws actor command now key])).db.approvals.rows ∧
    a.actorPrincipalId = actor.principalId ∧ actor.role = levelRole a.level

variable {settings s₀}

/-- An order reaches payment in a longer run if it did before or does with the last event. -/
theorem reachedPayment_concat {past : List Event} {e : Event} {orderId : Uuid} :
    ReachedPayment settings s₀ (past ++ [e]) orderId ↔ ReachedPayment settings s₀ past orderId ∨
      ∃ o ∈ (step settings (Lib.run (step settings) s₀ past) e).db.orders.rows,
        o.id = orderId ∧ o.status = .awaitingPayment := by
  unfold ReachedPayment
  simp only [List.prefix_concat_iff]
  constructor
  · rintro ⟨before, rfl | hbefore, o, ho, hid, hstatus⟩
    · rw [run_concat] at ho
      exact .inr ⟨o, ho, hid, hstatus⟩
    · exact .inl ⟨before, hbefore, o, ho, hid, hstatus⟩
  · rintro (⟨before, hbefore, ho⟩ | ho)
    · exact ⟨before, .inr hbefore, ho⟩
    · refine ⟨past ++ [e], .inl rfl, ?_⟩
      rw [run_concat]
      exact ho

/-- Later events do not change how an approval was given. -/
theorem GivenInRole.concat {past : List Event} {a : Approval} (h : GivenInRole settings s₀ past a) (e : Event) :
    GivenInRole settings s₀ (past ++ [e]) a := by
  obtain ⟨before, draws, actor, command, now, key, after, rfl, hrest⟩ := h
  exact ⟨before, draws, actor, command, now, key, after ++ [e], by simp, hrest⟩

/-- An approval that a transaction adds was given in the role of its level. -/
theorem Change.approvals {settings : Settings} {s : Platform} {e : Event} {db' : Db} (h : Change settings s e db') :
    ∀ a ∈ db'.approvals.rows, a ∈ s.db.approvals.rows ∨
      ∃ draws actor command now key, e = .decideApproval draws actor command now key ∧
        a ∉ s.db.approvals.rows ∧ a.actorPrincipalId = actor.principalId ∧ actor.role = levelRole a.level := by
  intro a ha
  cases h with
  | sameCore e db' hsame =>
    rw [hsame.approvals] at ha
    exact .inl ha
  | decided draws actor command now key order P db₁ A horder hid hstatus hrole hsubmitter hfirst hP heffect =>
    have happrovals : a ∈ P.rows := by
      cases heffect <;> exact ha
    rw [hP, List.mem_append, List.mem_singleton] at happrovals
    rcases happrovals with ha | rfl
    · exact .inl ha
    · right
      refine ⟨draws, actor, command, now, key, rfl, fun hold => ?_, rfl, hrole⟩
      exact (hfirst _ hold rfl).1 rfl
  | submitted compliance draws actor command now key draft compliant O T A hdraft hfresh hO hT => exact .inl ha
  | cancelled draws actor orderId reason now order O T A horder hid hmay hlegal hO hT => exact .inl ha
  | ingested draws advice now db' heffect =>
    cases heffect <;> exact .inl ha
  | issued draws orderId chunkSize now db' heffect =>
    cases heffect
    exact .inl ha
  | inspected draws actor command now db' heffect =>
    cases heffect
    exact .inl ha
  | activated index draws actor now key a db' hactivation heffect =>
    cases heffect
    exact .inl ha
  | retired e db' heffect =>
    cases heffect
    exact .inl ha

/-- Every approval of a run was given in the role of its level. -/
theorem givenInRole_run (hempty : s₀.db.approvals.rows = []) (events : List Event) :
    ∀ a ∈ (Lib.run (step settings) s₀ events).db.approvals.rows, GivenInRole settings s₀ events a := by
  refine run_history (fun past s => ∀ a ∈ s.db.approvals.rows, GivenInRole settings s₀ past a) s₀ ?_ ?_ events
  · rw [hempty]
    intro a ha
    cases ha
  · intro past e ih a ha
    rcases (step_change settings (Lib.run (step settings) s₀ past) e).approvals a ha with hold | hnew
    · exact (ih a hold).concat e
    · obtain ⟨draws, actor, command, now, key, rfl, hfresh, hactor, hrole⟩ := hnew
      refine ⟨past, draws, actor, command, now, key, [], rfl, hfresh, ?_, hactor, hrole⟩
      rw [run_concat]
      exact ha

/-- After every run the orders that reached payment are those with an intent. -/
theorem reachedPayment_run (companies : Table companySchema) (tariffs : Table tariffSchema) (events : List Event)
    (orderId : Uuid) :
    ReachedPayment settings (Platform.initial companies tariffs) events orderId ↔
      (Lib.run (step settings) (Platform.initial companies tariffs) events).db.accounts.intentsOf orderId ≠ [] := by
  refine run_history (fun past (s : Platform) =>
    ReachedPayment settings (Platform.initial companies tariffs) past orderId ↔
      s.db.accounts.intentsOf orderId ≠ []) (Platform.initial companies tariffs) ?_ ?_ events
  · constructor
    · rintro ⟨before, hbefore, o, ho, -⟩
      rw [List.prefix_nil.mp hbefore] at ho
      cases ho
    · intro hne
      exact absurd rfl hne
  · intro past e ih
    have hreconciled := (Reconciled.run settings companies tariffs past).step settings _ e
    rw [reachedPayment_concat, ih]
    constructor
    · rintro (hold | ⟨o, ho, rfl, hstatus⟩)
      · rcases (step_change settings _ e).intentsOf orderId with hsame | ⟨hnew, -⟩
        · exact hsame.mpr hold
        · exact hnew
      · have hdossier := hreconciled.dossier o ho
        unfold Accounts.Dossier at hdossier
        rw [hstatus] at hdossier
        obtain ⟨i, hi⟩ := hdossier
        rw [hi.intents]
        simp
    · intro hnew
      rcases (step_change settings _ e).intentsOf orderId with hsame | ⟨-, hopened⟩
      · exact .inl (hsame.mp hnew)
      · exact .inr hopened

end History

/-- An approved level of an order has exactly one approving approval. -/
theorem approvals_level_eq_singleton {db : Db} {o : Order} {level : ApprovalLevel}
    (h : ∃ a ∈ approvalsOf db.approvals.rows o.id, a.decision = .approved ∧ a.level = level) :
    ∃ a, db.approvals.rows.filter (fun a => a.orderId = o.id ∧ a.level = level ∧ a.decision = .approved) = [a] := by
  obtain ⟨a, ha, hdecision, hlevel⟩ := h
  obtain ⟨hmem, horder⟩ := List.mem_filter.mp ha
  rw [decide_eq_true_eq] at horder
  refine ⟨a, db.approvals.filter_eq_singleton hmem (by simp [horder, hlevel, hdecision]) fun b _ hb => ?_⟩
  simp only [decide_eq_true_eq] at hb
  simp [approvalSchema, hb.1, hb.2.1, horder, hlevel]

/-- The compliance and four-eyes gate. After every run an order has a payment intent exactly when it reached
payment; such an order carries affirmative evidence of every required registry, has exactly one approving
approval of every required level, given in that level's role, and no rejecting one; the approvals of an order
are by pairwise distinct principals other than its submitter; and an order that awaits approval still lacks
a required level. -/
theorem four_eyes_gate (settings : Settings) (companies : Table companySchema) (tariffs : Table tariffSchema)
    (events : List Event) :
    let db := (Lib.run (step settings) (Platform.initial companies tariffs) events).db
    ∀ o ∈ db.orders.rows,
      (db.accounts.intentsOf o.id ≠ [] ↔ ReachedPayment settings (Platform.initial companies tariffs) events o.id) ∧
        (db.accounts.intentsOf o.id ≠ [] →
          (∀ registry ∈ ComplianceService.registriesFor o.productCategory, Affirms o.complianceEvidence registry) ∧
            (∀ level ∈ requiredApprovals o.riskTier, ∃ a,
              GivenInRole settings (Platform.initial companies tariffs) events a ∧
              db.approvals.rows.filter (fun a => a.orderId = o.id ∧ a.level = level ∧ a.decision = .approved) = [a]) ∧
            ∀ a ∈ approvalsOf db.approvals.rows o.id, a.decision ≠ .rejected) ∧
        (approvalsOf db.approvals.rows o.id).Pairwise (fun a b => a.actorPrincipalId ≠ b.actorPrincipalId) ∧
        (∀ a ∈ approvalsOf db.approvals.rows o.id, a.actorPrincipalId ≠ o.submittedBy) ∧
        (o.status = .awaitingApproval → ∃ level ∈ requiredApprovals o.riskTier,
          ∀ a ∈ approvalsOf db.approvals.rows o.id, a.level = level → a.decision ≠ .approved) := by
  intro db o ho
  have hvetted := (Gatekeeping.run settings companies tariffs events).vetted o ho
  refine ⟨(reachedPayment_run companies tariffs events o.id).symm, fun hopened => ⟨?_, ?_, ?_⟩,
    hvetted.distinct, hvetted.submitter, fun hstatus => ?_⟩
  · exact hvetted.affirmed (.inr hopened)
  · intro level hlevel
    obtain ⟨a, ha⟩ := approvals_level_eq_singleton (hvetted.complete hopened level hlevel)
    have hmem := (mem_of_filter_eq_singleton ha).1
    exact ⟨a, givenInRole_run rfl events a hmem, ha⟩
  · intro a ha hrejected
    rw [hvetted.approved (.inr hopened) a ha] at hrejected
    contradiction
  · by_contra hnone
    push Not at hnone
    refine hvetted.incomplete hstatus fun level hlevel => ?_
    obtain ⟨a, ha, hequal, hdecision⟩ := hnone level hlevel
    exact ⟨a, ha, hdecision, hequal⟩

/-- The sample order has an intent and has passed the gate. -/
theorem four_eyes_gate_sample :
    let db := (Lib.run (step sampleSettings) samplePlatform sampleApproved).db
    ∃ o ∈ db.orders.rows, db.accounts.intentsOf o.id ≠ [] ∧
      ReachedPayment sampleSettings samplePlatform sampleApproved o.id ∧
      ∀ registry ∈ ComplianceService.registriesFor o.productCategory, Affirms o.complianceEvidence registry := by
  have hgate := four_eyes_gate sampleSettings sampleCompanies sampleTariffs sampleApproved
  have hopened : ∃ o ∈ (Lib.run (step sampleSettings) samplePlatform sampleApproved).db.orders.rows,
      (Lib.run (step sampleSettings) samplePlatform sampleApproved).db.accounts.intentsOf o.id ≠ [] := by
    decide +kernel
  generalize (Lib.run (step sampleSettings) samplePlatform sampleApproved).db = db at hgate hopened ⊢
  obtain ⟨o, ho, hintent⟩ := hopened
  obtain ⟨hreached, hpassed, -⟩ := hgate o ho
  exact ⟨o, ho, hintent, hreached.mp hintent, (hpassed hintent).1⟩

end TaxStamp
