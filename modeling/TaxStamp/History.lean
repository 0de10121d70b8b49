import TaxStamp.Lib.Trail
import TaxStamp.Settlement

/-!
# The history of an order

Status changes and history rows are written by hand in four places: the transition helper,
settlement, the start of issuance and its completion. Whatever the interleaving, the rows
of an order are the log of one walk through the transition table. The table has no cycles,
so the walk enters no status twice and the rows form a simple path that ends in the order's
status.
-/

namespace TaxStamp

open Lib

/-- The history rows of an order. -/
def historyOf (rows : List OrderTransition) (orderId : Uuid) : List OrderTransition :=
  rows.filter fun t => t.orderId = orderId

/-- The rows of an order form one simple path from submission to its status: one row has no origin and leads
to submitted, every other goes along the transition table from a status that exactly one other row enters, no status
is entered or left twice, and the current status is entered and not left. -/
structure LegalHistory (rows : List OrderTransition) (current : OrderStatus) : Prop where
  initial : (rows.filter fun t => t.fromStatus = none).map OrderTransition.toStatus = [.submitted]
  edge : ∀ t ∈ rows, ∀ status, t.fromStatus = some status → t.toStatus ∈ orderTransitions status
  entered : (rows.map OrderTransition.toStatus).Nodup
  linked : ∀ t ∈ rows, ∀ status, t.fromStatus = some status →
    t.toStatus ≠ status ∧ (rows.filter fun t' => t'.toStatus = status).length = 1
  left : (rows.filterMap OrderTransition.fromStatus).Nodup
  current : current ∈ rows.map OrderTransition.toStatus ∧ ∀ t ∈ rows, t.fromStatus ≠ some current

/-- Every order has a legal history. -/
def HistoriesLegal (db : Db) : Prop :=
  ∀ o ∈ db.orders.rows, LegalHistory (historyOf db.orderTransitions.rows o.id) o.status

/-- How far a status is from submission at most. -/
def OrderStatus.rank : OrderStatus → ℕ
  | .submitted => 0
  | .compliancePending => 1
  | .complianceRejected => 2
  | .awaitingApproval => 2
  | .approved => 3
  | .rejected => 3
  | .awaitingPayment => 4
  | .paid => 5
  | .issuing => 6
  | .issued => 7
  | .cancelled => 8

/-- Every transition goes up in rank. -/
theorem OrderStatus.rank_lt (a b : OrderStatus) (h : b ∈ orderTransitions a) : a.rank < b.rank := by
  cases a <;> simp only [orderTransitions, List.mem_cons, List.not_mem_nil, or_false] at h <;>
    rcases h with rfl | rfl | rfl <;> decide

/-- A history row as a step of a walk. -/
def OrderTransition.step (t : OrderTransition) : Option OrderStatus × OrderStatus := (t.fromStatus, t.toStatus)

/-- The rows are the log of a walk through the transition table. -/
def Logged (rows : List OrderTransition) (current : OrderStatus) : Prop :=
  Trail (fun a b => b ∈ orderTransitions a) .submitted (rows.map OrderTransition.step) current

/-- The log of a walk is a legal history. -/
theorem Logged.legal {rows : List OrderTransition} {current : OrderStatus} (h : Logged rows current) :
    LegalHistory rows current := by
  have hmem : ∀ t ∈ rows, t.step ∈ rows.map OrderTransition.step := fun t ht => List.mem_map_of_mem ht
  have hentered : rows.map OrderTransition.toStatus = (rows.map OrderTransition.step).map Prod.snd := by
    rw [List.map_map]
    rfl
  have hleft : rows.filterMap OrderTransition.fromStatus = (rows.map OrderTransition.step).filterMap Prod.fst := by
    rw [List.filterMap_map]
    rfl
  have hnodup : (rows.map OrderTransition.toStatus).Nodup := by
    rw [hentered]
    exact h.entered_nodup OrderStatus.rank_lt
  refine ⟨?_, fun t ht status hfrom => h.along t.step (hmem t ht) status hfrom, hnodup, ?_, ?_, ?_, ?_⟩
  · have hinitial := congrArg (List.map Prod.snd) h.initial
    rw [List.filter_map, List.map_map] at hinitial
    have hfilter : rows.filter (fun t => t.fromStatus = none) =
        rows.filter ((fun step => step.1.isNone) ∘ OrderTransition.step) := by
      refine List.filter_congr fun t _ => ?_
      cases hfrom : t.fromStatus <;> simp [OrderTransition.step, hfrom]
    rw [hfilter]
    exact hinitial
  · intro t ht status hfrom
    have hup := OrderStatus.rank_lt _ _ (h.along t.step (hmem t ht) status hfrom)
    refine ⟨fun heq => ?_, ?_⟩
    · rw [← heq] at hup
      exact absurd hup (Nat.lt_irrefl _)
    · have hone := hnodup.count (a := status)
      rw [hentered, if_pos (h.linked t.step (hmem t ht) status hfrom), ← hentered] at hone
      rw [← List.countP_eq_length_filter, ← hone, List.count, List.countP_map]
      refine List.countP_congr fun t' _ => ?_
      simp
  · rw [hleft]
    exact h.left_nodup OrderStatus.rank_lt
  · rw [hentered]
    exact h.current_mem
  · exact fun t ht => h.not_left OrderStatus.rank_lt t.step (hmem t ht)

/-- A row along the transition table continues the log. -/
theorem Logged.extend {rows : List OrderTransition} {a b : OrderStatus} (h : Logged rows a)
    (hedge : b ∈ orderTransitions a) (orderId : Uuid) (actor : Option Uuid) (reason : String) (now : Time) :
    Logged (rows ++ [⟨orderId, some a, b, actor, reason, now⟩]) b := by
  unfold Logged
  rw [List.map_append]
  exact Trail.extend h hedge

/-- The history that a new order starts with is a log. -/
theorem logged_submission (orderId : Uuid) (compliant : Bool) (actor : Actor) (now : Time) :
    Logged (submissionHistory orderId compliant actor now) (submissionStatus compliant) := by
  have hstart : Logged [⟨orderId, none, .submitted, some actor.principalId, "submitted", now⟩] .submitted := .start
  cases compliant with
  | true => exact hstart.extend (by decide) ..
  | false => exact (hstart.extend (b := .compliancePending) (by decide) ..).extend (by decide) ..

/-- The rows of a chunk continue the log of its order. -/
theorem logged_issuance {rows : List OrderTransition} {order : Order} (h : Logged rows order.status) (complete : Bool)
    (now : Time) (hstatus : order.status = .paid ∨ order.status = .issuing ∨ order.status = .issued) :
    Logged (rows ++ issuanceHistory order complete now) (issuedStatus order.status complete) := by
  rcases hstatus with hs | hs | hs <;> rw [hs] at h
  · have hissuing := h.extend (b := .issuing) (by decide) order.id none "issuance started" now
    have hissued := hissuing.extend (b := .issued) (by decide) order.id none "issuance complete" now
    rw [List.append_assoc] at hissued
    cases complete <;> simp only [issuanceHistory, startHistory, issuedStatus, hs]
    · simpa using hissuing
    · simpa using hissued
  · have hissued := h.extend (b := .issued) (by decide) order.id none "issuance complete" now
    cases complete <;> simp only [issuanceHistory, startHistory, issuedStatus, hs]
    · simpa using h
    · simpa using hissued
  · simpa [issuanceHistory, startHistory, issuedStatus, hs] using h

/-- Every order has its log, and every history row an order. -/
structure Chronicled (db : Db) : Prop where
  logged : ∀ o ∈ db.orders.rows, Logged (historyOf db.orderTransitions.rows o.id) o.status
  known : ∀ t ∈ db.orderTransitions.rows, ∃ o ∈ db.orders.rows, o.id = t.orderId

/-- Rows of another order are not in a history. -/
theorem historyOf_append_other {rows new : List OrderTransition} {orderId : Uuid}
    (hnew : ∀ t ∈ new, t.orderId ≠ orderId) : historyOf (rows ++ new) orderId = historyOf rows orderId := by
  have hnone : new.filter (fun t => t.orderId = orderId) = [] := by
    rw [List.filter_eq_nil_iff]
    intro t ht
    simpa using hnew t ht
  rw [historyOf, List.filter_append, hnone, List.append_nil]
  rfl

/-- Rows of an order are appended to its history. -/
theorem historyOf_append_self {rows new : List OrderTransition} {orderId : Uuid}
    (hnew : ∀ t ∈ new, t.orderId = orderId) : historyOf (rows ++ new) orderId = historyOf rows orderId ++ new := by
  have hall : new.filter (fun t => t.orderId = orderId) = new := by
    rw [List.filter_eq_self]
    intro t ht
    simpa using hnew t ht
  rw [historyOf, List.filter_append, hall]
  rfl

section Changes

variable {db db' : Db} (h : Chronicled db)
include h

/-- A change of neither orders nor history keeps the logs. -/
theorem Chronicled.same (hO : db'.orders = db.orders) (hT : db'.orderTransitions = db.orderTransitions) :
    Chronicled db' := by
  refine ⟨?_, ?_⟩
  · rw [hO, hT]
    exact h.logged
  · rw [hO, hT]
    exact h.known

/-- A new order with its own log keeps the logs. -/
theorem Chronicled.added {o : Order} {new : List OrderTransition} (hfresh : ∀ old ∈ db.orders.rows, old.id ≠ o.id)
    (hO : db'.orders.rows = db.orders.rows ++ [o]) (hT : db'.orderTransitions.rows = db.orderTransitions.rows ++ new)
    (hnew : ∀ t ∈ new, t.orderId = o.id) (hlogged : Logged new o.status) : Chronicled db' := by
  have hnone : historyOf db.orderTransitions.rows o.id = [] := by
    rw [historyOf, List.filter_eq_nil_iff]
    intro t ht hid
    obtain ⟨old, hold, holdId⟩ := h.known t ht
    exact hfresh old hold (holdId.trans (of_decide_eq_true hid))
  refine ⟨fun o' ho' => ?_, fun t ht => ?_⟩
  · rw [hO, List.mem_append, List.mem_singleton] at ho'
    rw [hT]
    rcases ho' with hold | rfl
    · rw [historyOf_append_other fun t ht heq => hfresh o' hold (heq.symm.trans (hnew t ht))]
      exact h.logged o' hold
    · rw [historyOf_append_self hnew, hnone]
      exact hlogged
  · rw [hT, List.mem_append] at ht
    rw [hO]
    rcases ht with hold | hrow
    · obtain ⟨old, hmem, hid⟩ := h.known t hold
      exact ⟨old, List.mem_append_left _ hmem, hid⟩
    · exact ⟨o, List.mem_append_right _ (List.mem_singleton_self _), (hnew t hrow).symm⟩

/-- An order that moves on and logs its way keeps the logs. -/
theorem Chronicled.moved {order : Order} {status : OrderStatus} {now : Time} {new : List OrderTransition}
    (horder : order ∈ db.orders.rows) (hO : db'.orders.rows = moveOrder order.id status now db.orders.rows)
    (hT : db'.orderTransitions.rows = db.orderTransitions.rows ++ new) (hnew : ∀ t ∈ new, t.orderId = order.id)
    (hwalk : ∀ rows, Logged rows order.status → Logged (rows ++ new) status) : Chronicled db' := by
  refine ⟨fun o ho => ?_, fun t ht => ?_⟩
  · rw [hO] at ho
    rw [hT]
    obtain ⟨old, hold, ⟨hid, rfl⟩ | ⟨hid, rfl⟩⟩ := mem_moveOrder.mp ho
    · obtain rfl : old = order := order_eq_of_id db hold horder hid
      change Logged (historyOf _ old.id) status
      rw [historyOf_append_self hnew]
      exact hwalk _ (h.logged old hold)
    · rw [historyOf_append_other fun t ht heq => hid (heq.symm.trans (hnew t ht))]
      exact h.logged o hold
  · have hids := ids_moveOrder order.id status now db.orders.rows
    have hknown : ∃ o ∈ db.orders.rows, o.id = t.orderId := by
      rw [hT, List.mem_append] at ht
      rcases ht with hold | hrow
      · exact h.known t hold
      · exact ⟨order, horder, (hnew t hrow).symm⟩
    obtain ⟨o, ho, hid⟩ := hknown
    have hmem : t.orderId ∈ db'.orders.rows.map Order.id := by
      rw [hO, hids, ← hid]
      exact List.mem_map_of_mem ho
    exact List.mem_map.mp hmem

end Changes

/-- Every row a new order starts with is its own. -/
theorem submissionHistory_orderId {orderId : Uuid} {compliant : Bool} {actor : Actor} {now : Time} :
    ∀ t ∈ submissionHistory orderId compliant actor now, t.orderId = orderId := by
  intro t ht
  cases compliant <;> simp only [submissionHistory, List.mem_cons, List.not_mem_nil, or_false, if_true, if_false,
    Bool.false_eq_true] at ht
  · rcases ht with rfl | rfl | rfl <;> rfl
  · rcases ht with rfl | rfl <;> rfl

/-- Every row of a chunk is its order's. -/
theorem issuanceHistory_orderId {order : Order} {complete : Bool} {now : Time} :
    ∀ t ∈ issuanceHistory order complete now, t.orderId = order.id := by
  intro t ht
  unfold issuanceHistory startHistory at ht
  rcases List.mem_append.mp ht with hstart | hfinish
  · split at hstart
    · rw [List.mem_singleton.mp hstart]
    · cases hstart
  · split at hfinish
    · rw [List.mem_singleton.mp hfinish]
    · cases hfinish

/-- Every transaction keeps the logs. -/
theorem Chronicled.step {settings : Settings} {s : Platform} (h : Chronicled s.db) {e : Event} {db' : Db}
    (hchange : Change settings s e db') : Chronicled db' := by
  cases hchange with
  | sameCore _ _ hsame => exact h.same hsame.orders hsame.orderTransitions
  | submitted compliance draws actor command now key draft compliant O T A hdraft hfresh hO hT =>
    exact h.added (o := draft.withStatus (submissionStatus compliant) now) hfresh hO hT submissionHistory_orderId
      (logged_submission draft.id compliant actor now)
  | decided draws actor command now key order P db₁ A horder hid hstatus hrole hsubmitter hfirst hP heffect =>
    cases heffect with
    | rejected O T hdecision hO hT =>
      refine h.moved horder hO hT (by simp) fun rows hrows => ?_
      exact hrows.extend (by rw [hstatus]; decide) ..
    | recorded => exact h.same rfl rfl
    | opened O T I M hdecision hfull hO hT =>
      refine h.moved horder hO hT (by simp) fun rows hrows => ?_
      have happroved := hrows.extend (b := .approved) (by rw [hstatus]; decide) order.id (some actor.principalId)
        "all approvals recorded" now
      have hawaiting := happroved.extend (b := .awaitingPayment) (by decide) order.id (some actor.principalId)
        "payment intent created" now
      rwa [List.append_assoc] at hawaiting
  | cancelled draws actor orderId reason now order O T A horder hid hmay hlegal hO hT =>
    exact h.moved horder hO hT (by simp) fun rows hrows => hrows.extend hlegal ..
  | ingested draws advice now db' heffect =>
    cases heffect with
    | replayed => exact h
    | unknown => exact h.same rfl rfl
    | mismatched => exact h.same rfl rfl
    | settled intent order payloadHash R O T I J E M A hintent hmatched horder hid hawaiting hR hO hT =>
      refine h.moved horder hO hT (by simp) fun rows hrows => ?_
      exact hrows.extend (by rw [hawaiting]; decide) ..
  | issued draws orderId chunkSize now db' heffect =>
    cases heffect with
    | chunk order batch base added complete f O T B C S M A horder hid hstatus hbatch hbase hadded hcount hcomplete
        hf hO hT =>
      have hmoved : O.rows = moveOrder order.id (issuedStatus order.status complete) now s.db.orders.rows ∨
          (O.rows = s.db.orders.rows ∧ T.rows = s.db.orderTransitions.rows) := by
        split at hO
        · rename_i hsame
          refine .inr ⟨hO, ?_⟩
          rw [hT]
          rcases hstatus with hs | hs | hs <;> cases complete <;> simp_all [issuedStatus, issuanceHistory, startHistory]
        · exact .inl hO
      rcases hmoved with hO | ⟨hO, hT⟩
      · exact h.moved horder hO hT issuanceHistory_orderId fun rows hrows => logged_issuance hrows complete now hstatus
      · refine ⟨?_, ?_⟩
        · change ∀ o ∈ O.rows, Logged (historyOf T.rows o.id) o.status
          rw [hO, hT]
          exact h.logged
        · change ∀ t ∈ T.rows, ∃ o ∈ O.rows, o.id = t.orderId
          rw [hO, hT]
          exact h.known
  | inspected _ _ _ _ _ heffect =>
    cases heffect
    exact h.same rfl rfl
  | activated _ _ _ _ _ _ _ _ heffect =>
    cases heffect
    exact h.same rfl rfl
  | retired _ _ heffect =>
    cases heffect
    exact h.same rfl rfl

/-- In every state the platform reaches, the history rows of every order form one simple path of legal
transitions from submission to its current status. -/
theorem order_history_legal (settings : Settings) (companies : Table companySchema) (tariffs : Table tariffSchema)
    (events : List Event) : HistoriesLegal (run (step settings) (.initial companies tariffs) events).db := by
  have hchronicled : Chronicled (run (step settings) (.initial companies tariffs) events).db := by
    refine run_invariant (fun s => Chronicled s.db) (fun s e h => h.step (step_change settings s e)) _ ?_ events
    exact ⟨fun o ho => (by cases ho), fun t ht => (by cases ht)⟩
  exact fun o ho => (hchronicled.logged o ho).legal

end TaxStamp
