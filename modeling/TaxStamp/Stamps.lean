import TaxStamp.Inspection
import TaxStamp.Serials

/-!
# Stamp lifecycle

Activation, voiding and expiry. Every requested serial gets its own outcome. Activation
locks the stamps but only reads the status of their batches, in a statement of its own;
the statuses it read are an input of the rest of the transaction, which commits later.
-/

namespace TaxStamp

open Lib

/-- The largest number of serials in one request. -/
def maxBulkSerials : ℕ := 1000

/-- The actor of the expiry job. -/
def expiryActor : AuditActor := ⟨none, "system:expiry", "operator", none⟩

/-- The outcome of one serial. -/
structure StampOutcome where
  serial : String
  status : String
  changed : Bool
  reason : Option String
  deriving DecidableEq, Repr

/-- The outcomes of a request in its order. -/
abbrev BulkResult := List StampOutcome

/-- How many stamps a request changed. -/
def BulkResult.changedCount (result : BulkResult) : ℕ := result.countP StampOutcome.changed

/-- The distinct elements of a list in the order of their first occurrence. -/
def distinct (serials : List String) : List String :=
  serials.foldl (fun seen serial => if serial ∈ seen then seen else seen ++ [serial]) []

/-- The distinct serials of a request, refused when there are none, too many, or malformed ones. -/
def validateSerials (serials : List String) : Session (List String) := do
  Tx.require (serials ≠ []) (.validationFailed "at least one serial is required")
  Tx.require (serials.length ≤ maxBulkSerials)
    (.validationFailed s!"at most {maxBulkSerials} serials may be submitted at once")
  let deduped := distinct serials
  let invalid := deduped.filter fun serial => !isValidSerial serial
  Tx.require (invalid = [])
    (.validationFailed "one or more serials are malformed" [("invalid_count", toString invalid.length)])
  return deduped

/-- The message of a stamp transition that the table does not list. -/
def stampTransitionError (current target : StampStatus) : String :=
  s!"stamp: illegal transition {current.value} -> {target.value}"

/-- The batch statuses an activation reads for the stamps it has locked. -/
abbrev BatchStatuses := List (Uuid × BatchStatus)

/-- Read the status of the batches of the requested stamps. -/
def readBatchStatuses (serials : List String) (db : Db) : BatchStatuses :=
  let batchIds := (db.stamps.rows.filter fun s => s.serial ∈ distinct serials).map Stamp.batchId
  (db.stampBatches.rows.filter fun b => b.id ∈ batchIds).map fun b => (b.id, b.status)

/-- Whether and why a stamp is not activated. -/
def activationRefusal (statuses : BatchStatuses) (now : Time) (stamp : Stamp) : Option String :=
  if statuses.lookup stamp.batchId = some .inspectionFailed then some "batch failed quality inspection"
  else if stamp.status = .active then some "already active"
  else if stamp.expiresAt ≤ now then some "stamp has expired"
  else if .active ∈ stampTransitions stamp.status then none
  else some (stampTransitionError stamp.status .active)

/-- A stamp that is not refused was issued and its batch is not known to have failed. -/
theorem activationRefusal_none {statuses : BatchStatuses} {now : Time} {stamp : Stamp}
    (h : activationRefusal statuses now stamp = none) :
    statuses.lookup stamp.batchId ≠ some .inspectionFailed ∧ stamp.status = .issued := by
  unfold activationRefusal at h
  split at h
  · contradiction
  · rename_i hfailed
    split at h
    · contradiction
    · split at h
      · contradiction
      · split at h
        · rename_i hlegal
          exact ⟨hfailed, active_mem_stampTransitions.mp hlegal⟩
        · contradiction

/-- A stamp marked as active. -/
def Stamp.activate (stamp : Stamp) (now : Time) : Stamp :=
  { stamp with status := .active, activatedAt := some now }

/-- The event of an activated stamp. -/
def activatedEvent (stamp : Stamp) (actor : Actor) (now : Time) : StampEvent where
  stampId := stamp.id
  eventType := .activated
  actorPrincipalId := some actor.principalId
  context := [("serial", .str stamp.serial)]
  createdAt := now

/-- The outcome of activating one serial. -/
def activationOutcome (found : List Stamp) (statuses : BatchStatuses) (now : Time) (serial : String) :
    StampOutcome :=
  match found.find? fun s => s.serial = serial with
  | none => ⟨serial, "unknown", false, some "serial not issued"⟩
  | some stamp =>
    match activationRefusal statuses now stamp with
    | some reason => ⟨serial, stamp.status.value, false, some reason⟩
    | none => ⟨serial, StampStatus.active.value, true, none⟩

/-- The loop of an activation over its serials, with the outcomes and the stamps it has changed in the session. A stamp
of another company ends it wherever it comes. -/
def activationLoop (actor : Actor) (found : List Stamp) (statuses : BatchStatuses) (now : Time) :
    List String → Except Fault (BulkResult × List Stamp)
  | [] => .ok ([], [])
  | serial :: rest =>
    match found.find? fun s => s.serial = serial with
    | none => do
      let (outcomes, changed) ← activationLoop actor found statuses now rest
      return (⟨serial, "unknown", false, some "serial not issued"⟩ :: outcomes, changed)
    | some stamp =>
      if actor.role ≠ .admin ∧ actor.role ≠ .operator ∧ actor.companyId ≠ some stamp.companyId then
        .error (.forbidden "one or more stamps belong to another company")
      else
        match activationRefusal statuses now stamp with
        | some reason => do
          let (outcomes, changed) ← activationLoop actor found statuses now rest
          return (⟨serial, stamp.status.value, false, some reason⟩ :: outcomes, changed)
        | none => do
          let (outcomes, changed) ← activationLoop actor found statuses now rest
          return (⟨serial, StampStatus.active.value, true, none⟩ :: outcomes, stamp :: changed)

section Loop

variable {actor : Actor} {found : List Stamp} {statuses : BatchStatuses} {now : Time}

/-- The stamps that a loop meets, in the order of its serials. -/
def stampsMet (found : List Stamp) (serials : List String) : List Stamp :=
  serials.filterMap fun serial => found.find? fun s => s.serial = serial

/-- The loop ends with the outcome of each serial when the actor may activate every stamp that it meets, and is refused
otherwise. -/
theorem activationLoop_eq (serials : List String) :
    activationLoop actor found statuses now serials =
      if actor.role = .admin ∨ actor.role = .operator ∨
          ∀ s ∈ stampsMet found serials, actor.companyId = some s.companyId then
        .ok (serials.map (activationOutcome found statuses now),
          (stampsMet found serials).filter fun s => (activationRefusal statuses now s).isNone)
      else .error (.forbidden "one or more stamps belong to another company") := by
  induction serials with
  | nil => simp [activationLoop, stampsMet]
  | cons serial rest ih =>
    rw [activationLoop, List.map_cons, activationOutcome, ih]
    cases hfind : found.find? fun s => s.serial = serial with
    | none =>
      have hmet : stampsMet found (serial :: rest) = stampsMet found rest := List.filterMap_cons_none hfind
      rw [hmet]
      by_cases hall : actor.role = .admin ∨ actor.role = .operator ∨
          ∀ s ∈ stampsMet found rest, actor.companyId = some s.companyId
      · rw [if_pos hall, if_pos hall]
        rfl
      · rw [if_neg hall, if_neg hall]
        rfl
    | some stamp =>
      have hmet : stampsMet found (serial :: rest) = stamp :: stampsMet found rest := List.filterMap_cons_some hfind
      simp only [hmet, List.forall_mem_cons, List.filter_cons]
      by_cases hmay : actor.role ≠ .admin ∧ actor.role ≠ .operator ∧ actor.companyId ≠ some stamp.companyId
      · have hnot : ¬(actor.role = .admin ∨ actor.role = .operator ∨ actor.companyId = some stamp.companyId ∧
            ∀ s ∈ stampsMet found rest, actor.companyId = some s.companyId) := by
          rintro (hadmin | hoperator | hall)
          · exact hmay.1 hadmin
          · exact hmay.2.1 hoperator
          · exact hmay.2.2 hall.1
        simp only [if_neg hnot]
        exact if_pos hmay
      · have hiff : (actor.role = .admin ∨ actor.role = .operator ∨ actor.companyId = some stamp.companyId ∧
            ∀ s ∈ stampsMet found rest, actor.companyId = some s.companyId) ↔ (actor.role = .admin ∨
              actor.role = .operator ∨ ∀ s ∈ stampsMet found rest, actor.companyId = some s.companyId) := by
          tauto
        simp only [if_neg hmay, hiff]
        by_cases hall : actor.role = .admin ∨ actor.role = .operator ∨
            ∀ s ∈ stampsMet found rest, actor.companyId = some s.companyId
        · simp only [if_pos hall]
          cases activationRefusal statuses now stamp <;> rfl
        · simp only [if_neg hall]
          cases activationRefusal statuses now stamp <;> rfl

/-- With the stamps of the serials locked, the loop meets all of them. -/
theorem mem_stampsMet {t : Table stampSchema} {serials : List String} {s : Stamp} :
    s ∈ stampsMet (t.rows.filter fun s => s.serial ∈ serials) serials ↔ s ∈ t.rows ∧ s.serial ∈ serials := by
  rw [stampsMet, List.mem_filterMap]
  constructor
  · rintro ⟨serial, -, hfind⟩
    obtain ⟨hs, hserial⟩ := List.mem_filter.mp (List.mem_of_find?_eq_some hfind)
    exact ⟨hs, of_decide_eq_true hserial⟩
  · rintro ⟨hs, hserial⟩
    have hfound : s ∈ t.rows.filter fun s => s.serial ∈ serials := List.mem_filter.mpr ⟨hs, decide_eq_true hserial⟩
    have hmet : ((t.rows.filter fun s => s.serial ∈ serials).find? fun s' => s'.serial = s.serial).isSome = true :=
      List.find?_isSome.mpr ⟨s, hfound, decide_eq_true rfl⟩
    obtain ⟨s', hfind⟩ := Option.isSome_iff_exists.mp hmet
    have hs' := (List.mem_filter.mp (List.mem_of_find?_eq_some hfind)).1
    have hserial' := List.find?_some hfind
    have hsame : s'.serial = s.serial := of_decide_eq_true hserial'
    obtain rfl : s' = s := t.eq_of_clash hs' hs (by simp [stampSchema, hsame])
    exact ⟨s'.serial, hserial, hfind⟩

end Loop

/-- Activate stamps, given the batch statuses read under their locks. -/
def activateStamps (settings : Settings) (draws : Draws) (actor : Actor) (serials : List String)
    (statuses : BatchStatuses) (now : Time) (idempotencyKey : Option String) : Session BulkResult := do
  actor.requireRole [.requester, .operator, .admin]
  let wanted ← validateSerials serials
  let found ← selectAll Tables.stamps fun s => s.serial ∈ wanted
  Tx.require (actor.role = .admin ∨ actor.role = .operator ∨ ∀ s ∈ found, actor.companyId = some s.companyId)
    (.forbidden "one or more stamps belong to another company")
  let outcomes := wanted.map (activationOutcome found statuses now)
  setRows Tables.stamps (fun s => s.serial ∈ wanted && (activationRefusal statuses now s).isNone) fun s =>
    s.activate now
  addRows Tables.stampEvents
    ((found.filter fun s => (activationRefusal statuses now s).isNone).map fun s => activatedEvent s actor now)
  let _ ← recordAuditEvent settings draws (draws.uuid 0) actor.auditActor
    { action := "stamp.activate"
      targetType := "stamp_set"
      targetId := toString wanted.length ++ " serials"
      outcome := .success
      afterState := some
        [("requested", .int wanted.length),
          ("activated", .int (BulkResult.changedCount outcomes)),
          ("serials", .arr ((wanted.take 50).map Json.str))]
      requestId := actor.requestId
      idempotencyKey := idempotencyKey }
    now
  return outcomes

/-- The outcome of voiding one serial. -/
def voidOutcome (found : List Stamp) (serial : String) : StampOutcome :=
  match found.find? fun s => s.serial = serial with
  | none => ⟨serial, "unknown", false, some "serial not issued"⟩
  | some stamp =>
    if .void ∈ stampTransitions stamp.status then ⟨serial, StampStatus.void.value, true, none⟩
    else ⟨serial, stamp.status.value, false, some (stampTransitionError stamp.status .void)⟩

/-- Void stamps for a stated reason. -/
def voidStamps (settings : Settings) (draws : Draws) (actor : Actor) (serials : List String)
    (reason : String) (now : Time) : Session BulkResult := do
  actor.requireRole [.admin, .operator]
  Tx.require (¬reason.toList.all isPySpace) (.validationFailed "a reason is required to void stamps")
  let wanted ← validateSerials serials
  let found ← selectAll Tables.stamps fun s => s.serial ∈ wanted
  let outcomes := wanted.map (voidOutcome found)
  setRows Tables.stamps (fun s => s.serial ∈ wanted && .void ∈ stampTransitions s.status) fun s => s.void now
  addRows Tables.stampEvents
    ((found.filter fun s => .void ∈ stampTransitions s.status).map fun s => voidedEvent s actor reason now)
  let _ ← recordAuditEvent settings draws (draws.uuid 0) actor.auditActor
    { action := "stamp.void"
      targetType := "stamp_set"
      targetId := toString wanted.length ++ " serials"
      outcome := .success
      afterState := some
        [("requested", .int wanted.length),
          ("voided", .int (BulkResult.changedCount outcomes)),
          ("reason", .str reason)]
      requestId := actor.requestId }
    now
  return outcomes

/-- The event of an expired stamp. -/
def expiredEvent (stampId : Uuid) (now : Time) : StampEvent where
  stampId := stampId
  eventType := .expired
  actorPrincipalId := none
  context := [("reason", .str "validity elapsed")]
  createdAt := now

/-- Mark stamps whose validity has elapsed, passing over the rows that are locked elsewhere. -/
def expireDueStamps (settings : Settings) (draws : Draws) (now : Time) (limit : ℕ) (locked : List Uuid) :
    Session ℕ := do
  let found ← selectOrdered Tables.stamps
    (fun s => s.expiresAt ≤ now && (s.status = .issued || s.status = .active) && s.id ∉ locked)
    (fun a b => a.expiresAt ≤ b.expiresAt) limit
  let due := found.map Stamp.id
  if due = [] then
    return 0
  else
    setRows Tables.stamps (fun s => s.id ∈ due) fun s => { s with status := .expired }
    addRows Tables.stampEvents (due.map fun id => expiredEvent id now)
    let _ ← recordAuditEvent settings draws (draws.uuid 0) expiryActor
      { action := "stamp.expire"
        targetType := "stamp_set"
        targetId := toString due.length ++ " stamps"
        outcome := .success
        afterState := some [("expired", .int due.length)] }
      now
    return due.length

/-- A stamp marked as expired. -/
def Stamp.expire (stamp : Stamp) : Stamp := { stamp with status := .expired }

/-- The marks of a stamp's life, and what a stamp must be to get one. -/
inductive Marking (now : Time) : (Stamp → Stamp) → StampEventType → (Stamp → Prop) → Prop
  | activated : Marking now (fun s => s.activate now) .activated (fun s => s.status = .issued)
  | voided : Marking now (fun s => s.void now) .voided (fun s => s.status ≠ .void)
  | expired : Marking now Stamp.expire .expired (fun s => s.status = .issued ∨ s.status = .active)

/-- What a committed change of stamps does: it rewrites stamps without moving them between batches
and extends their history. `may` says which stamps can become active. -/
inductive StampEffect (settings : Settings) (may : Stamp → Prop) (db : Db) : Db → Prop
  | changed (g : Stamp → Stamp) (S : Table stampSchema) (V : Table stampEventSchema)
      (A : Table auditEventSchema) (hg : KeepsStamp g)
      (hactive : ∀ s, (g s).status = .active → s.status = .active ∨ may s)
      (hS : S.rows = db.stamps.rows.map g)
      (hmarks : ∃ now p f kind eligible, Marking now f kind eligible ∧
        (∀ s ∈ db.stamps.rows, p s = true → eligible s) ∧ Marks db p f kind S V)
      (hA : AuditGrows settings db.auditEvents.rows A.rows) :
      StampEffect settings may db (Tables.auditEvents.set A (Tables.stampEvents.set V (Tables.stamps.set S db)))

/-- Validating a request only reads. -/
theorem validateSerials_ok {serials wanted : List String} {db db' : Db}
    (h : validateSerials serials db = .ok (wanted, db')) : wanted = distinct serials ∧ db = db' := by
  simp only [validateSerials, Tx.bind_ok, Tx.require_ok, Tx.pure_ok] at h
  obtain ⟨-, db₁, ⟨-, rfl⟩, -, db₂, ⟨-, rfl⟩, -, db₃, ⟨-, rfl⟩, rfl, rfl⟩ := h
  exact ⟨rfl, rfl⟩

/-- Activation keeps what identifies a stamp. -/
theorem keepsStamp_activate (now : Time) : KeepsStamp fun s => s.activate now :=
  ⟨fun _ => rfl, fun _ => rfl, fun _ => rfl, fun _ => rfl⟩

/-- A stamp is activated only if it was issued and the status read for its batch was not a failed inspection. -/
theorem activateStamps_ok {settings : Settings} {draws : Draws} {actor : Actor} {serials : List String}
    {statuses : BatchStatuses} {now : Time} {idempotencyKey : Option String} {result : BulkResult} {db db' : Db}
    (h : activateStamps settings draws actor serials statuses now idempotencyKey db = .ok (result, db')) :
    StampEffect settings (fun s => s.serial ∈ distinct serials ∧ s.status = .issued ∧
      statuses.lookup s.batchId ≠ some .inspectionFailed) db db' := by
  simp only [activateStamps, Tx.bind_ok, Actor.requireRole_ok, selectAll_ok, Tx.require_ok, updateRows_ok,
    insertRows_ok, Tx.pure_ok] at h
  obtain ⟨-, db₁, ⟨-, rfl⟩, wanted, db₂, hvalidate, found, db₃, ⟨rfl, rfl⟩, -, db₄, ⟨-, rfl⟩, -, db₅,
    ⟨S, hS, rfl⟩, -, db₆, ⟨V, hV, rfl⟩, event, db₇, haudit, -, rfl⟩ := h
  obtain ⟨rfl, rfl⟩ := validateSerials_ok hvalidate
  obtain ⟨A, hA, rfl⟩ := recordAuditEvent_ok haudit
  have hselected : ∀ s : Stamp, (decide (s.serial ∈ distinct serials) && (activationRefusal statuses now s).isNone) = true →
      s.serial ∈ distinct serials ∧ s.status = .issued ∧ statuses.lookup s.batchId ≠ some .inspectionFailed := by
    intro s hs
    simp only [Bool.and_eq_true, decide_eq_true_eq, Option.isNone_iff_eq_none] at hs
    obtain ⟨hfailed, hissued⟩ := activationRefusal_none hs.2
    exact ⟨hs.1, hissued, hfailed⟩
  have hmarks : Marks db (fun s => decide (s.serial ∈ distinct serials) && (activationRefusal statuses now s).isNone)
      (fun s => s.activate now) .activated S V := by
    refine ⟨hS, _, hV, ?_, ?_⟩
    · intro v hv
      obtain ⟨s, -, rfl⟩ := List.mem_map.mp hv
      rfl
    · rw [List.map_map, List.filter_filter]
      exact List.Perm.of_eq (congrArg _ (List.filter_congr fun s _ => Bool.and_comm ..))
  refine .changed _ S V A ((keepsStamp_activate now).ite _) ?_ hS
    ⟨now, _, _, _, _, .activated, fun s _ hs => (hselected s hs).2.1, hmarks⟩ (.inr hA)
  intro s
  split
  · rename_i hs
    exact fun _ => .inr (hselected s hs)
  · exact .inl

/-- Voiding activates no stamp. -/
theorem voidStamps_ok {settings : Settings} {draws : Draws} {actor : Actor} {serials : List String}
    {reason : String} {now : Time} {result : BulkResult} {db db' : Db}
    (h : voidStamps settings draws actor serials reason now db = .ok (result, db')) :
    StampEffect settings (fun _ => False) db db' := by
  simp only [voidStamps, Tx.bind_ok, Actor.requireRole_ok, selectAll_ok, Tx.require_ok, updateRows_ok,
    insertRows_ok, Tx.pure_ok] at h
  obtain ⟨-, db₁, ⟨-, rfl⟩, -, db₂, ⟨-, rfl⟩, wanted, db₃, hvalidate, found, db₄, ⟨rfl, rfl⟩, -, db₅,
    ⟨S, hS, rfl⟩, -, db₆, ⟨V, hV, rfl⟩, event, db₇, haudit, -, rfl⟩ := h
  obtain ⟨-, rfl⟩ := validateSerials_ok hvalidate
  obtain ⟨A, hA, rfl⟩ := recordAuditEvent_ok haudit
  have hmarks : Marks db (fun s => decide (s.serial ∈ wanted) && decide (.void ∈ stampTransitions s.status))
      (fun s => s.void now) .voided S V := by
    refine ⟨hS, _, hV, ?_, ?_⟩
    · intro v hv
      obtain ⟨s, -, rfl⟩ := List.mem_map.mp hv
      rfl
    · rw [List.map_map, List.filter_filter]
      exact List.Perm.of_eq (congrArg _ (List.filter_congr fun s _ => Bool.and_comm ..))
  have heligible : ∀ s : Stamp, (decide (s.serial ∈ wanted) && decide (.void ∈ stampTransitions s.status)) = true →
      s.status ≠ .void := by
    intro s hs hvoid
    rw [Bool.and_eq_true, hvoid] at hs
    exact absurd hs.2 (by decide)
  refine .changed _ S V A ((keepsStamp_void now).ite _) ?_ hS
    ⟨now, _, _, _, _, .voided, fun s _ => heligible s, hmarks⟩ (.inr hA)
  intro s
  split
  · intro hactive
    cases hactive
  · exact .inl

/-- Stamps with one identifier are one stamp. -/
theorem stamp_eq_of_id {db : Db} {s s' : Stamp} (hs : s ∈ db.stamps.rows) (hs' : s' ∈ db.stamps.rows)
    (hid : s.id = s'.id) : s = s' :=
  db.stamps.eq_of_clash hs hs' (by simp [stampSchema, hid])

/-- No two stamps share an identifier. -/
theorem stampIds_nodup (t : Table stampSchema) : (t.rows.map Stamp.id).Nodup := by
  rw [List.Nodup, List.pairwise_map]
  refine t.valid.distinct.imp fun hclash hid => ?_
  simp [stampSchema, hid] at hclash

/-- No two stamps share a serial. -/
theorem serials_nodup (t : Table stampSchema) : (t.rows.map Stamp.serial).Nodup := by
  rw [List.Nodup, List.pairwise_map]
  refine t.valid.distinct.imp fun hclash hserial => ?_
  simp [stampSchema, hserial] at hclash

/-- Expiry activates no stamp. -/
theorem expireDueStamps_ok {settings : Settings} {draws : Draws} {now : Time} {limit : ℕ} {locked : List Uuid}
    {result : ℕ} {db db' : Db} (h : expireDueStamps settings draws now limit locked db = .ok (result, db')) :
    StampEffect settings (fun _ => False) db db' := by
  simp only [expireDueStamps, Tx.bind_ok, selectOrdered_ok] at h
  obtain ⟨found, db₁, ⟨hfound, rfl⟩, hrest⟩ := h
  split at hrest
  · obtain ⟨-, rfl⟩ := Tx.pure_ok.mp hrest
    refine .changed (fun s => s) db.stamps db.stampEvents db.auditEvents
      ⟨fun _ => rfl, fun _ => rfl, fun _ => rfl, fun _ => rfl⟩ (fun _ => .inl) (List.map_id' _).symm ?_ (.inl rfl)
    exact ⟨now, fun _ => false, _, _, _, .expired, fun s _ hs => (by cases hs), by simp, [], by simp, by simp, by simp⟩
  · simp only [Tx.bind_ok, updateRows_ok, insertRows_ok, Tx.pure_ok] at hrest
    obtain ⟨-, db₂, ⟨S, hS, rfl⟩, -, db₃, ⟨V, hV, rfl⟩, event, db₄, haudit, -, rfl⟩ := hrest
    obtain ⟨A, hA, rfl⟩ := recordAuditEvent_ok haudit
    have hdue : ∀ s ∈ found, s ∈ db.stamps.rows ∧ (s.status = .issued ∨ s.status = .active) := by
      intro s hs
      rw [hfound] at hs
      obtain ⟨hmem, hp⟩ := mem_of_mem_selectOrdered hs
      simp only [Bool.and_eq_true, Bool.or_eq_true, decide_eq_true_eq] at hp
      exact ⟨hmem, hp.1.2⟩
    have hselected : ∀ s ∈ db.stamps.rows, s.id ∈ found.map Stamp.id → s ∈ found := by
      intro s hs hid
      obtain ⟨s', hs', heq⟩ := List.mem_map.mp hid
      rwa [← stamp_eq_of_id (hdue s' hs').1 hs heq]
    have hperm : (found.map Stamp.id).Perm
        ((db.stamps.rows.filter fun s => s.id ∈ found.map Stamp.id).map Stamp.id) := by
      refine (List.perm_ext_iff_of_nodup ?_ ?_).mpr fun id => ?_
      · rw [hfound, List.map_take]
        refine List.Nodup.sublist (List.take_sublist _ _) ?_
        rw [((List.perm_insertionSort _ _).map Stamp.id).nodup_iff]
        exact (stampIds_nodup db.stamps).sublist (List.filter_sublist.map _)
      · exact (stampIds_nodup db.stamps).sublist (List.filter_sublist.map _)
      · simp only [List.mem_map, List.mem_filter, decide_eq_true_eq]
        constructor
        · rintro ⟨s, hs, rfl⟩
          exact ⟨s, ⟨(hdue s hs).1, s, hs, rfl⟩, rfl⟩
        · rintro ⟨s, ⟨-, s', hs', heq⟩, rfl⟩
          exact ⟨s', hs', heq⟩
    have hmarks : Marks db (fun s => s.id ∈ found.map Stamp.id) Stamp.expire .expired S V := by
      refine ⟨hS, _, hV, ?_, ?_⟩
      · intro v hv
        obtain ⟨id, -, rfl⟩ := List.mem_map.mp hv
        rfl
      · rw [List.map_map]
        exact (List.Perm.of_eq (List.map_id _)).trans hperm
    have hkeeps : KeepsStamp Stamp.expire := ⟨fun _ => rfl, fun _ => rfl, fun _ => rfl, fun _ => rfl⟩
    refine .changed _ S V A (hkeeps.ite _) ?_ hS ⟨now, _, _, _, _, .expired, ?_, hmarks⟩ (.inr hA)
    case refine_2 => exact fun s hs hid => (hdue s (hselected s hs (of_decide_eq_true hid))).2
    intro s
    split
    · intro hactive
      cases hactive
    · exact .inl

end TaxStamp
