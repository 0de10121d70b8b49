import TaxStamp.Context

/-!
# Batch quality inspection

The sampling plan follows from the lot size. A lot whose defects exceed the acceptance
number fails its batch; the listed defectives are voided either way.
-/

namespace TaxStamp

open Lib

/-- A single-sampling plan. -/
structure SamplingPlan where
  lotSize : ℤ
  sampleSize : ℤ
  acceptNumber : ℤ
  rejectNumber : ℤ
  deriving DecidableEq, Repr

/-- The tabulated plans: inclusive lot-size bound, sample size, accept and reject number. -/
def planTable : List (ℤ × ℤ × ℤ × ℤ) :=
  [(8, 2, 0, 1),
    (15, 3, 0, 1),
    (25, 5, 0, 1),
    (50, 8, 0, 1),
    (90, 13, 0, 1),
    (150, 20, 0, 1),
    (280, 32, 0, 1),
    (500, 50, 1, 2),
    (1200, 80, 1, 2),
    (3200, 125, 2, 3),
    (10000, 200, 3, 4),
    (35000, 315, 5, 6),
    (150000, 500, 7, 8),
    (500000, 800, 10, 11),
    (10000000000, 1250, 14, 15)]

/-- The plan of a lot. -/
def samplingPlan (lotSize : ℤ) : Except Fault SamplingPlan :=
  if lotSize ≤ 0 then .error (.samplingError "lot size must be positive")
  else
    match planTable.find? fun row => lotSize ≤ row.1 with
    | some (_, sampleSize, accept, reject) => .ok ⟨lotSize, min sampleSize lotSize, accept, reject⟩
    | none => .error (.samplingError "lot size exceeds the tabulated plan")

/-- Whether a lot with the given defects in its sample is accepted. -/
def SamplingPlan.evaluate (plan : SamplingPlan) (defectsFound : ℤ) : Except Fault Bool :=
  if defectsFound < 0 then .error (.samplingError "defects found must not be negative")
  else if plan.sampleSize < defectsFound then .error (.samplingError "defects found exceeds the sample size")
  else .ok (defectsFound ≤ plan.acceptNumber)

/-- What an inspector reports. -/
structure InspectionCommand where
  batchId : Uuid
  defectsFound : ℤ
  defectiveSerials : List String
  deriving DecidableEq, Repr

/-- What an inspection returns. -/
structure InspectionResult where
  inspectionId : Uuid
  accepted : Bool
  sampleSize : ℤ
  acceptNumber : ℤ
  rejectNumber : ℤ
  voidedSerials : ℤ
  deriving DecidableEq, Repr

/-- A rewriting of stamps that keeps what identifies them. -/
structure KeepsStamp (g : Stamp → Stamp) : Prop where
  id : ∀ s, (g s).id = s.id
  serial : ∀ s, (g s).serial = s.serial
  batchId : ∀ s, (g s).batchId = s.batchId
  orderId : ∀ s, (g s).orderId = s.orderId

/-- Rewriting the stamps that meet a condition keeps them when the rewriting does. -/
theorem KeepsStamp.ite {g : Stamp → Stamp} (hg : KeepsStamp g) (p : Stamp → Bool) :
    KeepsStamp fun s => if p s then g s else s := by
  refine ⟨fun s => ?_, fun s => ?_, fun s => ?_, fun s => ?_⟩ <;> split
  exacts [hg.id s, rfl, hg.serial s, rfl, hg.batchId s, rfl, hg.orderId s, rfl]

/-- A stamp marked as void. -/
def Stamp.void (stamp : Stamp) (now : Time) : Stamp := { stamp with status := .void, voidedAt := some now }

/-- The event of a voided stamp. -/
def voidedEvent (stamp : Stamp) (actor : Actor) (reason : String) (now : Time) : StampEvent where
  stampId := stamp.id
  eventType := .voided
  actorPrincipalId := some actor.principalId
  context := [("serial", .str stamp.serial), ("reason", .str reason)]
  createdAt := now

/-- A statement has marked stamps: it has rewritten those that meet the condition and logged one event of the
kind for each of them. -/
structure Marks (db : Db) (p : Stamp → Bool) (f : Stamp → Stamp) (kind : StampEventType) (S : Table stampSchema)
    (V : Table stampEventSchema) : Prop where
  stamps : S.rows = db.stamps.rows.map fun s => if p s then f s else s
  events : ∃ new, V.rows = db.stampEvents.rows ++ new ∧ (∀ v ∈ new, v.eventType = kind) ∧
    (new.map StampEvent.stampId).Perm ((db.stamps.rows.filter p).map Stamp.id)

/-- Void the listed stamps of a batch that are not void yet; the result counts them. -/
def voidDefectives (actor : Actor) (batchId : Uuid) (serials : List String) (now : Time) : Session ℤ := do
  let found ← selectAll Tables.stamps fun s => s.serial ∈ serials && s.batchId = batchId
  let fresh := found.filter fun s => s.status ≠ .void
  setRows Tables.stamps (fun s => s.serial ∈ serials && s.batchId = batchId && s.status ≠ .void) fun s =>
    s.void now
  addRows Tables.stampEvents (fresh.map fun s => voidedEvent s actor "quality defect" now)
  return fresh.length

/-- Voiding keeps what identifies a stamp. -/
theorem keepsStamp_void (now : Time) : KeepsStamp fun s => s.void now :=
  ⟨fun _ => rfl, fun _ => rfl, fun _ => rfl, fun _ => rfl⟩

/-- The stamps of a batch that an inspection voids. -/
def defective (batchId : Uuid) (serials : List String) (s : Stamp) : Bool :=
  s.serial ∈ serials && s.batchId = batchId && s.status ≠ .void

/-- Voiding defectives marks them as void. -/
theorem voidDefectives_ok {actor : Actor} {batchId : Uuid} {serials : List String} {now : Time} {voided : ℤ}
    {db db' : Db} (h : voidDefectives actor batchId serials now db = .ok (voided, db')) :
    ∃ (S : Table stampSchema) (V : Table stampEventSchema),
      Marks db (defective batchId serials) (fun s => s.void now) .voided S V ∧
      db' = Tables.stampEvents.set V (Tables.stamps.set S db) := by
  simp only [voidDefectives, Tx.bind_ok, selectAll_ok, updateRows_ok, insertRows_ok, Tx.pure_ok] at h
  obtain ⟨found, db₁, ⟨rfl, rfl⟩, -, db₂, ⟨S, hS, rfl⟩, -, db₃, ⟨V, hV, rfl⟩, -, rfl⟩ := h
  refine ⟨S, V, ⟨hS, _, hV, ?_, ?_⟩, rfl⟩
  · intro v hv
    obtain ⟨s, -, rfl⟩ := List.mem_map.mp hv
    rfl
  · rw [List.map_map, List.filter_filter]
    refine List.Perm.of_eq (congrArg _ (List.filter_congr fun s _ => ?_))
    exact Bool.and_comm ..

/-- Mark a batch as failed unless its lot was accepted. -/
def failBatch (batchId : Uuid) (accepted : Bool) : Session Unit :=
  if accepted then
    return ()
  else
    setRows Tables.stampBatches (fun b => b.id = batchId) fun b => { b with status := .inspectionFailed }

/-- Only a lot that was not accepted fails its batch. -/
theorem failBatch_ok {batchId : Uuid} {accepted : Bool} {u : Unit} {db db' : Db}
    (h : failBatch batchId accepted db = .ok (u, db')) :
    ∃ B : Table stampBatchSchema,
      (B.rows = db.stampBatches.rows.map fun b =>
        if accepted = false ∧ b.id = batchId then { b with status := .inspectionFailed } else b) ∧
      db' = Tables.stampBatches.set B db := by
  cases accepted with
  | true =>
    obtain ⟨-, rfl⟩ := Tx.pure_ok.mp h
    exact ⟨db.stampBatches, by simp, rfl⟩
  | false =>
    obtain ⟨B, hB, rfl⟩ := updateRows_ok.mp h
    exact ⟨B, by simpa using hB, rfl⟩

/-- Check the request against the locked batch and evaluate its lot; nothing is written yet. -/
def assessBatch (actor : Actor) (command : InspectionCommand) :
    Session (StampBatch × SamplingPlan × Bool) := do
  actor.requireRole [.operator, .admin]
  let batch ← fetch Tables.stampBatches (fun b => b.id = command.batchId) (.notFound "batch not found")
  Tx.require (batch.status = .issued) (.illegalState s!"batch in status {batch.status.value} cannot be inspected")
  let existing ← selectAll Tables.inspections fun i => i.batchId = batch.id
  Tx.require (existing = []) (.conflict "this batch has already been inspected")
  let plan ← Tx.lift (samplingPlan batch.issuedCount)
  Tx.require (command.defectsFound ≤ plan.sampleSize)
    (.validationFailed s!"defects found cannot exceed the sample size of {plan.sampleSize}")
  Tx.require (command.defectiveSerials.length ≤ command.defectsFound)
    (.validationFailed "more defective serials were listed than defects reported")
  let accepted ← Tx.lift (plan.evaluate command.defectsFound)
  return (batch, plan, accepted)

/-- Record the inspection of a locked batch. -/
def recordInspection (settings : Settings) (draws : Draws) (actor : Actor) (command : InspectionCommand)
    (now : Time) : Session InspectionResult := do
  let (batch, plan, accepted) ← assessBatch actor command
  addRow Tables.inspections
    { id := draws.uuid 0
      batchId := batch.id
      lotSize := plan.lotSize
      sampleSize := plan.sampleSize
      acceptNumber := plan.acceptNumber
      rejectNumber := plan.rejectNumber
      defectsFound := command.defectsFound
      accepted := accepted
      inspectorPrincipalId := actor.principalId
      defectiveSerials := command.defectiveSerials
      createdAt := now }
  let voided ← voidDefectives actor batch.id command.defectiveSerials now
  failBatch batch.id accepted
  let _ ← recordAuditEvent settings draws (draws.uuid 1) actor.auditActor
    { action := "batch.inspect"
      targetType := "stamp_batch"
      targetId := batch.id.str
      outcome := if accepted then .success else .failure
      afterState := some
        [("accepted", .bool accepted),
          ("sample_size", .int plan.sampleSize),
          ("defects_found", .int command.defectsFound),
          ("voided", .int voided)]
      requestId := actor.requestId }
    now
  return ⟨draws.uuid 0, accepted, plan.sampleSize, plan.acceptNumber, plan.rejectNumber, voided⟩

/-- An assessed batch is issued and was not inspected before; assessing only reads. -/
theorem assessBatch_ok {actor : Actor} {command : InspectionCommand} {batch : StampBatch} {plan : SamplingPlan}
    {accepted : Bool} {db db' : Db}
    (h : assessBatch actor command db = .ok ((batch, plan, accepted), db')) :
    batch ∈ db.stampBatches.rows ∧ batch.status = .issued ∧
      (∀ i ∈ db.inspections.rows, i.batchId ≠ batch.id) ∧ db = db' := by
  simp only [assessBatch, Tx.bind_ok, Actor.requireRole_ok, fetch_ok, Tx.require_ok, selectAll_ok,
    Tx.lift_ok, Tx.pure_ok] at h
  obtain ⟨-, db₁, ⟨-, rfl⟩, found, db₂, ⟨hfetch, rfl⟩, -, db₃, ⟨hstatus, rfl⟩, existing, db₄, ⟨rfl, rfl⟩, -,
    db₅, ⟨hfirst, rfl⟩, plan', db₆, ⟨-, rfl⟩, -, db₇, ⟨-, rfl⟩, -, db₈, ⟨-, rfl⟩, accepted', db₉, ⟨-, rfl⟩,
    hresult, rfl⟩ := h
  injection hresult with hbatch
  subst hbatch
  refine ⟨(mem_of_filter_eq_singleton hfetch).1, hstatus, ?_, rfl⟩
  intro i hi hid
  have hmem : i ∈ db.inspections.rows.filter fun i => i.batchId = batch.id :=
    List.mem_filter.mpr ⟨hi, decide_eq_true hid⟩
  change db.inspections.rows.filter _ = [] at hfirst
  rw [hfirst] at hmem
  contradiction

/-- What a committed inspection does: it adds the first inspection of an issued batch, activates no
stamp, and fails the batch exactly when the lot was not accepted. -/
inductive InspectEffect (settings : Settings) (now : Time) (db : Db) : Db → Prop
  | inspected (batch : StampBatch) (inspection : Inspection) (g : Stamp → Stamp) (N : Table inspectionSchema)
      (S : Table stampSchema) (V : Table stampEventSchema) (B : Table stampBatchSchema)
      (A : Table auditEventSchema)
      (hbatch : batch ∈ db.stampBatches.rows) (hstatus : batch.status = .issued)
      (hinspection : inspection.batchId = batch.id)
      (hfirst : ∀ i ∈ db.inspections.rows, i.batchId ≠ batch.id)
      (hN : N.rows = db.inspections.rows ++ [inspection])
      (hg : KeepsStamp g) (hactive : ∀ s, (g s).status = .active → s.status = .active)
      (hS : S.rows = db.stamps.rows.map g)
      (hB : B.rows = db.stampBatches.rows.map fun b =>
        if inspection.accepted = false ∧ b.id = batch.id then { b with status := .inspectionFailed } else b)
      (hmarks : Marks db (defective batch.id inspection.defectiveSerials) (fun s => s.void now) .voided S V)
      (hA : Audited settings db.auditEvents.rows A.rows) :
      InspectEffect settings now db (Tables.auditEvents.set A (Tables.stampBatches.set B (Tables.stampEvents.set V
        (Tables.stamps.set S (Tables.inspections.set N db)))))

/-- A committed inspection has that effect. -/
theorem recordInspection_ok {settings : Settings} {draws : Draws} {actor : Actor} {command : InspectionCommand}
    {now : Time} {result : InspectionResult} {db db' : Db}
    (h : recordInspection settings draws actor command now db = .ok (result, db')) :
    InspectEffect settings now db db' := by
  simp only [recordInspection, Tx.bind_ok] at h
  obtain ⟨⟨batch, plan, accepted⟩, db₁, hassess, hrest⟩ := h
  obtain ⟨hbatch, hstatus, hfirst, rfl⟩ := assessBatch_ok hassess
  simp only [insertRow_ok, Tx.pure_ok] at hrest
  obtain ⟨-, db₂, ⟨N, hN, rfl⟩, voided, db₃, hvoid, v, db₄, hfail, event, db₅, haudit, -, rfl⟩ := hrest
  obtain ⟨S, V, hmarks, rfl⟩ := voidDefectives_ok hvoid
  obtain ⟨B, hB, rfl⟩ := failBatch_ok hfail
  obtain ⟨A, hA, rfl⟩ := recordAuditEvent_ok haudit
  have hactive : ∀ s, (if defective batch.id command.defectiveSerials s then s.void now else s).status = .active →
      s.status = .active := by
    intro s
    split
    · intro hactive
      cases hactive
    · exact id
  exact .inspected batch _ _ N S V B A hbatch hstatus rfl hfirst hN ((keepsStamp_void now).ite _) hactive
    hmarks.stamps hB ⟨hmarks.stamps, hmarks.events⟩ hA

end TaxStamp
