import TaxStamp.Quality

/-!
# What an inspection does to the stamps

The reported serials are matched against the stamps of the inspected batch. Those that are
not void yet are voided, each with one event in its history; a reported serial that no stamp
of the batch carries is recorded with the inspection and has no other effect.
-/

namespace TaxStamp

open Lib

/-- The inspection has voided the reported stamps of its batch and nothing else, and has failed the batch exactly
when the reported defects reach the plan's reject number. -/
structure InspectedExactly (command : InspectionCommand) (now : Time) (db db' : Db) (result : InspectionResult) :
    Prop where
  listed : ∀ s ∈ db'.stamps.rows, s.batchId = command.batchId → s.serial ∈ command.defectiveSerials →
    s.status = .void
  marks : Marks db (defective command.batchId command.defectiveSerials) (fun s => s.void now) .voided db'.stamps
    db'.stampEvents
  voided : result.voidedSerials = (db.stamps.rows.filter (defective command.batchId command.defectiveSerials)).length
  batch : ∃ b ∈ db.stampBatches.rows, ∃ plan, b.id = command.batchId ∧ b.status = .issued ∧
    samplingPlan b.issuedCount = .ok plan ∧
    db'.stampBatches.rows = db.stampBatches.rows.map fun b =>
      if plan.rejectNumber ≤ command.defectsFound ∧ b.id = command.batchId then { b with status := .inspectionFailed }
      else b

/-- A plan rejects from one defect more than it accepts. -/
theorem samplingPlan_rejectNumber {lotSize : ℤ} {plan : SamplingPlan} (h : samplingPlan lotSize = .ok plan) :
    plan.rejectNumber = plan.acceptNumber + 1 := by
  have htable : ∀ row ∈ planTable, row.2.2.2 = row.2.2.1 + 1 := by decide
  unfold samplingPlan at h
  split at h
  · cases h
  · split at h
    · rename_i bound sampleSize accept reject hfound
      injection h with h
      subst h
      exact htable _ (List.mem_of_find?_eq_some hfound)
    · cases h

/-- An evaluated lot is accepted exactly below the reject number. -/
theorem SamplingPlan.evaluate_ok {plan : SamplingPlan} {defectsFound : ℤ} {accepted : Bool}
    (h : plan.evaluate defectsFound = .ok accepted) : accepted = true ↔ defectsFound ≤ plan.acceptNumber := by
  unfold SamplingPlan.evaluate at h
  split_ifs at h
  injection h with h
  rw [← h, decide_eq_true_eq]

/-- An assessed batch is the one asked for, and its lot is evaluated with the plan for its size. -/
theorem assessBatch_assessed {actor : Actor} {command : InspectionCommand} {batch : StampBatch} {plan : SamplingPlan}
    {accepted : Bool} {db db' : Db} (h : assessBatch actor command db = .ok ((batch, plan, accepted), db')) :
    batch.id = command.batchId ∧ samplingPlan batch.issuedCount = .ok plan ∧
      (accepted = false ↔ plan.rejectNumber ≤ command.defectsFound) := by
  simp only [assessBatch, Tx.bind_ok, Actor.requireRole_ok, fetch_ok, Tx.require_ok, selectAll_ok,
    Tx.lift_ok, Tx.pure_ok] at h
  obtain ⟨-, db₁, ⟨-, rfl⟩, found, db₂, ⟨hfetch, rfl⟩, -, db₃, ⟨-, rfl⟩, existing, db₄, ⟨-, rfl⟩, -,
    db₅, ⟨-, rfl⟩, plan', db₆, ⟨hplan, rfl⟩, -, db₇, ⟨-, rfl⟩, -, db₈, ⟨-, rfl⟩, accepted', db₉, ⟨haccepted, rfl⟩,
    hresult, rfl⟩ := h
  injection hresult with hbatch hrest
  injection hrest with hplan' haccepted'
  subst hbatch hplan' haccepted'
  refine ⟨of_decide_eq_true (mem_of_filter_eq_singleton hfetch).2, hplan, ?_⟩
  have hreject := samplingPlan_rejectNumber hplan
  have hevaluated := SamplingPlan.evaluate_ok haccepted
  rw [← Bool.not_eq_true, hevaluated]
  omega

/-- Voiding defectives counts those that it voids. -/
theorem voidDefectives_voided {actor : Actor} {batchId : Uuid} {serials : List String} {now : Time} {voided : ℤ}
    {db db' : Db} (h : voidDefectives actor batchId serials now db = .ok (voided, db')) :
    voided = (db.stamps.rows.filter (defective batchId serials)).length := by
  simp only [voidDefectives, Tx.bind_ok, selectAll_ok, Tx.pure_ok] at h
  obtain ⟨found, db₁, ⟨rfl, rfl⟩, -, db₂, -, -, db₃, -, rfl, -⟩ := h
  rw [List.filter_filter]
  refine congrArg (fun stamps : List Stamp => (stamps.length : ℤ)) (List.filter_congr fun s _ => ?_)
  exact Bool.and_comm ..

/-- After the marks no stamp of the batch with a listed serial is anything but void. -/
theorem Marks.listed {batchId : Uuid} {serials : List String} {now : Time} {db : Db} {S : Table stampSchema}
    {V : Table stampEventSchema}
    (h : Marks db (defective batchId serials) (fun s => s.void now) .voided S V) {s : Stamp} (hs : s ∈ S.rows)
    (hbatch : s.batchId = batchId) (hserial : s.serial ∈ serials) : s.status = .void := by
  rw [h.stamps, List.mem_map] at hs
  obtain ⟨old, -, rfl⟩ := hs
  by_cases hdefective : defective batchId serials old = true
  · rw [if_pos hdefective]
    rfl
  · rw [if_neg hdefective] at hbatch hserial ⊢
    by_contra hstatus
    apply hdefective
    simp [defective, hbatch, hserial, hstatus]

/-- Inspection voids what it reports of its batch and nothing else: for every database and every command, an
inspection that is recorded has exactly this effect, and one that is not changes nothing. -/
theorem recordInspection_exact (settings : Settings) (draws : Draws) (actor : Actor) (command : InspectionCommand)
    (now : Time) (db : Db) :
    match recordInspection settings draws actor command now db with
    | .ok (result, db') => InspectedExactly command now db db' result
    | .error _ => (recordInspection settings draws actor command now).commit db = db := by
  split
  · rename_i result db' h
    simp only [recordInspection, Tx.bind_ok] at h
    obtain ⟨⟨batch, plan, accepted⟩, db₁, hassess, hrest⟩ := h
    obtain ⟨hbatch, hstatus, -, rfl⟩ := assessBatch_ok hassess
    obtain ⟨hid, hplan, hfailed⟩ := assessBatch_assessed hassess
    simp only [insertRow_ok, Tx.pure_ok] at hrest
    obtain ⟨-, db₂, ⟨N, hN, rfl⟩, voided, db₃, hvoid, v, db₄, hfail, event, db₅, haudit, rfl, rfl⟩ := hrest
    have hvoided := voidDefectives_voided hvoid
    obtain ⟨S, V, hmarks, rfl⟩ := voidDefectives_ok hvoid
    obtain ⟨B, hB, rfl⟩ := failBatch_ok hfail
    obtain ⟨A, hA, rfl⟩ := recordAuditEvent_ok haudit
    rw [hid] at hmarks hvoided hB
    simp only [hfailed] at hB
    refine ⟨fun s hs => hmarks.listed hs, ⟨hmarks.stamps, hmarks.events⟩, hvoided, batch, hbatch, plan, hid, hstatus,
      hplan, hB⟩
  · rename_i fault h
    unfold Tx.commit
    rw [h]

/-- An inspection of the sample batch that lists a serial no stamp carries is recorded and voids nothing. -/
theorem not_recordInspection_listed :
    ¬∀ (settings : Settings) (companies : Table companySchema) (tariffs : Table tariffSchema) (events : List Event)
      (draws : Draws) (actor : Actor) (command : InspectionCommand) (now : Time) (result : InspectionResult) (db' : Db),
      recordInspection settings draws actor command now
          (run (step settings) (Platform.initial companies tariffs) events).db = .ok (result, db') →
        ∀ serial ∈ command.defectiveSerials, ∃ s ∈ db'.stamps.rows, s.serial = serial ∧ s.batchId = command.batchId ∧
          s.status = .void := by
  intro hclaim
  have hrecorded : (match recordInspection sampleSettings (sampleDraws 5) sampleOperator ⟨⟨400⟩, 1, ["foreign"]⟩
      sampleNow (run (step sampleSettings) samplePlatform sampleIssued).db with
    | .ok (_, db') => db'.stamps.rows.all fun s => s.serial ≠ "foreign"
    | .error _ => false) = true := by
    decide +kernel
  split at hrecorded
  · rename_i result db' h
    obtain ⟨s, hs, hserial, -, -⟩ := hclaim _ _ _ _ _ _ _ _ _ _ h "foreign" List.mem_cons_self
    exact of_decide_eq_true (List.all_eq_true.mp hrecorded s hs) hserial
  · cases hrecorded

end TaxStamp
