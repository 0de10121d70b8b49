import TaxStamp.Endings
import TaxStamp.Lib.Accepts
import TaxStamp.Verification

/-!
# The lag of the expiry job

Expiry is decided twice: the job writes it into the status of the stamps, and verification
and activation read it off the end of validity. Whatever the job has already written up to an
earlier instant, both come to the same decisions, refusals included, and the job may as well
run after an activation.
-/

namespace TaxStamp

open Lib

/-- The validity has elapsed and the stamp is not yet marked. -/
def Stamp.due (now : Time) (stamp : Stamp) : Bool :=
  stamp.expiresAt ≤ now && (stamp.status = .issued || stamp.status = .active)

/-- The job has marked stamps that were due; the batches are as before. -/
structure Lapsed (now : Time) (p : Stamp → Bool) (db db' : Db) : Prop where
  due : ∀ s ∈ db.stamps.rows, p s = true → s.due now = true
  stamps : db'.stamps.rows = db.stamps.rows.map fun s => if p s then s.expire else s
  batches : db'.stampBatches = db.stampBatches

/-- A run of the job. -/
structure ExpiryRun where
  draws : Draws
  now : Time
  limit : ℕ
  locked : List Uuid

/-- The transaction of a run. -/
def ExpiryRun.run (settings : Settings) (job : ExpiryRun) : Session ℕ :=
  expireDueStamps settings job.draws job.now job.limit job.locked

/-- The state after a run has committed or was rolled back. -/
def ExpiryRun.commit (settings : Settings) (db : Db) (job : ExpiryRun) : Db := (job.run settings).commit db

/-- The stamps that a run selects. -/
def expiring (now : Time) (limit : ℕ) (locked : List Uuid) (db : Db) : List Uuid :=
  (((db.stamps.rows.filter fun s => s.due now && s.id ∉ locked).insertionSort fun a b =>
    decide (a.expiresAt ≤ b.expiresAt) = true).take limit).map Stamp.id

/-- What a run reports of the stamps that it marks. -/
def expiryRecord (count : ℕ) : AuditRecord where
  action := "stamp.expire"
  targetType := "stamp_set"
  targetId := toString count ++ " stamps"
  outcome := .success
  afterState := some [("expired", .int count)]

/-- What a run does with the stamps that it has selected. -/
def markExpired (settings : Settings) (draws : Draws) (now : Time) (due : List Uuid) : Session ℕ :=
  if due = [] then
    return 0
  else do
    setRows Tables.stamps (fun s => s.id ∈ due) Stamp.expire
    addRows Tables.stampEvents (due.map fun id => expiredEvent id now)
    let _ ← recordAuditEvent settings draws (draws.uuid 0) expiryActor (expiryRecord due.length) now
    return due.length

variable {settings : Settings} {draws : Draws} {now now' : Time} {limit : ℕ} {locked : List Uuid} {db db' db'' : Db}
  {p q : Stamp → Bool} {job : ExpiryRun}

/-! ### What the job writes -/

/-- Without a run nothing has lapsed. -/
theorem Lapsed.refl : Lapsed now (fun _ => false) db db :=
  ⟨fun s _ hs => absurd hs Bool.false_ne_true, by simp, rfl⟩

/-- Selected stamps are due. -/
theorem due_of_mem_expiring {s : Stamp} (hs : s ∈ db.stamps.rows) (h : s.id ∈ expiring now limit locked db) :
    s.due now = true := by
  obtain ⟨s', hs', hid⟩ := List.mem_map.mp h
  obtain ⟨hmem, hselected⟩ := mem_of_mem_selectOrdered hs'
  rw [← stamp_eq_of_id hmem hs hid]
  exact (Bool.and_eq_true _ _ ▸ hselected).1

/-- A run selects stamps and marks them. -/
theorem expireDueStamps_eq : expireDueStamps settings draws now limit locked db =
    markExpired settings draws now (expiring now limit locked db) db :=
  Tx.bind_of_ok _ (selectOrdered_ok.mpr ⟨rfl, rfl⟩)

/-- A finished run has marked the stamps that it selects. -/
theorem expireDueStamps_lapsed {n : ℕ} (h : expireDueStamps settings draws now limit locked db = .ok (n, db')) :
    Lapsed now (fun s => s.id ∈ expiring now limit locked db) db db' := by
  have hdue : ∀ s ∈ db.stamps.rows, decide (s.id ∈ expiring now limit locked db) = true → s.due now = true :=
    fun s hs hselected => due_of_mem_expiring hs (of_decide_eq_true hselected)
  rw [expireDueStamps_eq, markExpired] at h
  split at h
  · rename_i hnone
    obtain ⟨-, rfl⟩ := Tx.pure_ok.mp h
    exact ⟨hdue, by simp [hnone], rfl⟩
  · simp only [Tx.bind_ok, updateRows_ok, insertRows_ok, Tx.pure_ok] at h
    obtain ⟨-, db₁, ⟨S, hS, rfl⟩, -, db₂, ⟨V, hV, rfl⟩, event, db₃, haudit, -, rfl⟩ := h
    obtain ⟨A, hA, rfl⟩ := recordAuditEvent_ok haudit
    exact ⟨hdue, hS, rfl⟩

/-- Marking a stamp keeps what identifies it. -/
theorem keepsStamp_expire : KeepsStamp Stamp.expire := ⟨fun _ => rfl, fun _ => rfl, fun _ => rfl, fun _ => rfl⟩

/-- Stamps take a mark that keeps what identifies them and their columns and passes the CHECK. -/
theorem exists_marked (t : Table stampSchema) (p : Stamp → Bool) {f : Stamp → Stamp} (hkeeps : KeepsStamp f)
    (hfits : ∀ s, stampSchema.fits (f s) = stampSchema.fits s) (hcheck : ∀ s, stampSchema.check (f s) = true) :
    ∃ S : Table stampSchema, S.rows = t.rows.map fun s => if p s then f s else s := by
  apply Table.exists_map
  · intro s _
    split
    · exact hfits s
    · rfl
  · intro s hs
    split
    · rw [hcheck, t.valid.check s hs]
    · rfl
  · intro a b
    simp only [stampSchema, (hkeeps.ite p).id, (hkeeps.ite p).serial]

/-- Marking stamps ends with the audit event: no constraint of the stamps or of their history refuses the marks. -/
theorem markExpired_isOk {due : List Uuid} (h : due ≠ []) :
    (markExpired settings draws now due db).isOk = true ↔
      db.TakesEvent settings draws expiryActor now (expiryRecord due.length) := by
  obtain ⟨S, hS⟩ := exists_marked db.stamps (fun s => s.id ∈ due) keepsStamp_expire (fun _ => rfl) fun _ => rfl
  have hfits : ∀ e ∈ due.map fun id => expiredEvent id now, stampEventSchema.fits e = true := by
    intro e he
    obtain ⟨id, -, rfl⟩ := List.mem_map.mp he
    rfl
  obtain ⟨V, hV⟩ := Table.exists_append_all (t := db.stampEvents) hfits (fun _ _ => rfl) fun _ _ => rfl
  rw [markExpired, if_neg h, Tx.bind_of_ok (a := ()) _ (updateRows_ok.mpr ⟨S, hS, rfl⟩),
    Tx.bind_of_ok (a := ()) _ (insertRows_ok.mpr ⟨V, hV, rfl⟩)]
  exact isOk_recording rfl

/-- Two runs that select the same stamps end alike. -/
theorem expireDueStamps_endsAlike {draws' : Draws}
    (h : expiring now limit locked db' = expiring now limit locked db) :
    EndsAlike (db.TakesEvent settings draws expiryActor now) (db'.TakesEvent settings draws' expiryActor now)
      (expireDueStamps settings draws now limit locked db) (expireDueStamps settings draws' now limit locked db') := by
  rw [expireDueStamps_eq, expireDueStamps_eq, h]
  by_cases hnone : expiring now limit locked db = []
  · rw [hnone]
    exact .finished (0, db) (0, db')
  · exact .recording _ (markExpired_isOk hnone) (markExpired_isOk hnone)

/-- A run has marked the stamps that it selects, or none if it was rolled back. -/
theorem ExpiryRun.commit_lapsed : Lapsed job.now
    (fun s => (job.run settings db).isOk && s.id ∈ expiring job.now job.limit job.locked db) db (job.commit settings db) :=
  Tx.commit_cases (fun finished after => Lapsed job.now (fun s => finished && s.id ∈ expiring job.now job.limit job.locked db)
    db after) .refl fun _ _ h => expireDueStamps_lapsed h

/-- What is due stays due. -/
theorem Stamp.due_mono {s : Stamp} (hle : now' ≤ now) (h : s.due now' = true) : s.due now = true := by
  simp only [Stamp.due, Bool.and_eq_true, decide_eq_true_eq] at h ⊢
  exact ⟨le_trans h.1 hle, h.2⟩

/-- What has lapsed earlier has lapsed. -/
theorem Lapsed.mono (hle : now' ≤ now) (h : Lapsed now' p db db') : Lapsed now p db db' :=
  ⟨fun s hs hp => Stamp.due_mono hle (h.due s hs hp), h.stamps, h.batches⟩

/-- A marked stamp is not marked again. -/
theorem Stamp.due_expire (s : Stamp) : s.expire.due now = false := by simp [Stamp.due, Stamp.expire]

/-- Two runs in a row have marked the stamps of both. -/
theorem Lapsed.trans (h : Lapsed now p db db') (h' : Lapsed now q db' db'') :
    Lapsed now (fun s => p s || q s) db db'' := by
  have hq : ∀ s ∈ db.stamps.rows, q (if p s then s.expire else s) = true → p s = false := by
    intro s hs hmarked
    cases hp : p s with
    | false => rfl
    | true =>
      have hdue := h'.due _ (h.stamps ▸ List.mem_map_of_mem hs) hmarked
      rw [if_pos hp, Stamp.due_expire] at hdue
      cases hdue
  refine ⟨fun s hs hmarked => ?_, ?_, h'.batches.trans h.batches⟩
  · cases hp : p s with
    | true => exact h.due s hs hp
    | false =>
      have hmem : s ∈ db'.stamps.rows := by
        rw [h.stamps]
        exact List.mem_map.mpr ⟨s, hs, by rw [hp]; rfl⟩
      exact h'.due s hmem (by simpa [hp] using hmarked)
  · rw [h'.stamps, h.stamps, List.map_map]
    refine List.map_congr_left fun s hs => ?_
    have hq' := hq s hs
    cases hp : p s with
    | true =>
      rw [hp] at hq'
      have hnot : ¬q s.expire = true := fun hmarked => by cases hq' hmarked
      simp [hp, hnot]
    | false => simp [hp]

/-- Runs up to an instant have marked stamps that are due at it. -/
theorem runs_lapsed {runs : List ExpiryRun} (hruns : ∀ job ∈ runs, job.now ≤ now) :
    ∃ p, Lapsed now p db (runs.foldl (ExpiryRun.commit settings) db) := by
  induction runs generalizing db with
  | nil => exact ⟨_, .refl⟩
  | cons job runs ih =>
    have hp := (@ExpiryRun.commit_lapsed settings db job).mono (hruns job List.mem_cons_self)
    obtain ⟨q, hq⟩ := @ih (job.commit settings db) fun j hj => hruns j (List.mem_cons_of_mem _ hj)
    exact ⟨_, hp.trans hq⟩

/-! ### Verification -/

/-- A stamp that is due is judged alike before and after it is marked. -/
theorem judge_expire {verifications : List Verification} {stamp : Stamp} {request : VerificationRequest}
    (hdue : stamp.due now = true) :
    judge settings verifications stamp.expire request now = judge settings verifications stamp request now := by
  simp only [Stamp.due, Bool.and_eq_true, Bool.or_eq_true, decide_eq_true_eq] at hdue
  have hvoid : stamp.status ≠ .void := by
    rcases hdue.2 with hstatus | hstatus <;> rw [hstatus] <;> decide
  unfold judge
  refine congrArg _ (funext fun same => ?_)
  have hmarked : stamp.expire.status ≠ .void := fun h => by cases h
  have hafter : stamp.expire.expiresAt ≤ now ∨ stamp.expire.status = .expired := .inr rfl
  rw [if_neg hvoid, if_neg hmarked, if_pos (Or.inl hdue.1), if_pos hafter]

/-- The presented stamp is the marked one. -/
theorem Lapsed.presentedStamp (h : Lapsed now p db db') (serial : String) :
    presentedStamp db' serial = (TaxStamp.presentedStamp db serial).map fun s => if p s then s.expire else s := by
  unfold TaxStamp.presentedStamp
  split
  · rw [h.stamps, List.find?_map]
    refine congrArg _ (congrArg (List.find? · _) (funext fun s => ?_))
    have hserial : (if p s then s.expire else s).serial = s.serial := by split <;> rfl
    rw [Function.comp_apply, hserial]
  · rfl

/-- A verification comes to the same outcome, and its stamp has the same identity, category and end of validity. -/
theorem Lapsed.assess {r : Records} (h : Lapsed now p r.db db') (request : VerificationRequest) :
    (assess settings { r with db := db' } request now).map (fun assessed =>
        (assessed.1, assessed.2.map fun s => (s.id, s.productCategory, s.expiresAt))) =
      (TaxStamp.assess settings r request now).map fun assessed =>
        (assessed.1, assessed.2.map fun s => (s.id, s.productCategory, s.expiresAt)) := by
  unfold TaxStamp.assess
  dsimp only
  rw [h.presentedStamp]
  cases hfound : TaxStamp.presentedStamp r.db request.serial with
  | none => rfl
  | some s =>
    have hmem : s ∈ r.db.stamps.rows := by
      unfold TaxStamp.presentedStamp at hfound
      split at hfound
      · exact List.mem_of_find?_eq_some hfound
      · cases hfound
    rw [Option.map_some]
    dsimp only
    cases hp : p s with
    | false => rfl
    | true =>
      rw [if_pos rfl, judge_expire (h.due s hmem hp)]
      cases judge settings r.verifications.rows s request now <;> rfl

/-- A verification comes to the same outcome, or is refused for the same fault. -/
theorem Lapsed.outcome {r : Records} (h : Lapsed now p r.db db') (request : VerificationRequest) :
    (TaxStamp.assess settings { r with db := db' } request now).map Prod.fst =
      (TaxStamp.assess settings r request now).map Prod.fst := by
  have hassess := congrArg (Except.map Prod.fst) (@Lapsed.assess settings now db' p r h request)
  have hfst : ∀ assessed : Except Fault (VerificationOutcome × Option Stamp),
      (assessed.map fun a => (a.1, a.2.map fun s => (s.id, s.productCategory, s.expiresAt))).map Prod.fst =
        assessed.map Prod.fst := fun assessed => by cases assessed <;> rfl
  rwa [hfst, hfst] at hassess

/-- Two verifications that finish tell the same. -/
theorem Lapsed.verify {r r' lapsed' : Records} {draws' : Draws} {actor : Actor} {request : VerificationRequest}
    {result result' : VerificationResult} (h : Lapsed now p r.db db')
    (hplain : TaxStamp.verify settings draws actor request now r = .ok (result, r'))
    (hlapsed : TaxStamp.verify settings draws' actor request now { r with db := db' } = .ok (result', lapsed')) :
    result' = result := by
  obtain ⟨outcome, stamp, hassess, -, rfl⟩ := verify_ok.mp hplain
  obtain ⟨outcome', stamp', hassess', -, rfl⟩ := verify_ok.mp hlapsed
  have hsame := @Lapsed.assess settings now db' p r h request
  rw [hassess, hassess'] at hsame
  obtain ⟨houtcome, hstamp⟩ := Prod.mk.inj (Except.ok.inj hsame)
  have hcategory := congrArg (Option.map fun k : Uuid × String × Time => k.2.1) hstamp
  have hexpires := congrArg (Option.map fun k : Uuid × String × Time => k.2.2) hstamp
  rw [Option.map_map, Option.map_map] at hcategory hexpires
  change stamp'.map Stamp.productCategory = stamp.map Stamp.productCategory at hcategory
  change stamp'.map Stamp.expiresAt = stamp.map Stamp.expiresAt at hexpires
  dsimp only at houtcome
  simp only [VerificationAttempt.result, houtcome, hcategory, hexpires]

/-! ### Activation -/

/-- Activate stamps with the batch statuses as they are. -/
def activateNow (settings : Settings) (draws : Draws) (actor : Actor) (serials : List String) (now : Time)
    (idempotencyKey : Option String) : Session BulkResult := fun db =>
  activateStamps settings draws actor serials (readBatchStatuses serials db) now idempotencyKey db

/-- The stamp was not active before and is active after. -/
def BecomesActive (db db' : Db) (id : Uuid) : Prop :=
  ∃ s ∈ db.stamps.rows, s.id = id ∧ s.status ≠ .active ∧ ∃ s' ∈ db'.stamps.rows, s'.id = id ∧ s'.status = .active

/-- Whether a request activates a stamp. -/
def activates (serials : List String) (statuses : BatchStatuses) (now : Time) (s : Stamp) : Bool :=
  s.serial ∈ distinct serials && (activationRefusal statuses now s).isNone

variable {actor : Actor} {serials : List String} {statuses : BatchStatuses} {idempotencyKey : Option String}
  {result result' : BulkResult}

/-- A finished activation rewrites exactly the stamps that it activates. -/
theorem activateStamps_rows
    (h : activateStamps settings draws actor serials statuses now idempotencyKey db = .ok (result, db')) :
    db'.stamps.rows = db.stamps.rows.map fun s => if activates serials statuses now s then s.activate now else s := by
  simp only [activateStamps, Tx.bind_ok, Actor.requireRole_ok, selectAll_ok, Tx.require_ok, updateRows_ok,
    insertRows_ok, Tx.pure_ok] at h
  obtain ⟨-, db₁, ⟨-, rfl⟩, wanted, db₂, hvalidate, found, db₃, ⟨rfl, rfl⟩, -, db₄, ⟨-, rfl⟩, -, db₅,
    ⟨S, hS, rfl⟩, -, db₆, ⟨V, hV, rfl⟩, event, db₇, haudit, -, rfl⟩ := h
  obtain ⟨rfl, rfl⟩ := validateSerials_ok hvalidate
  obtain ⟨A, hA, rfl⟩ := recordAuditEvent_ok haudit
  exact hS

/-- A stamp that is due is refused, marked or not. -/
theorem refusal_due {s : Stamp} (h : s.due now = true) :
    (activationRefusal statuses now s).isNone = false ∧ (activationRefusal statuses now s.expire).isNone = false := by
  have hafter : s.expiresAt ≤ now := by
    simp only [Stamp.due, Bool.and_eq_true, decide_eq_true_eq] at h
    exact h.1
  have hrefused : ∀ t : Stamp, t.expiresAt ≤ now → (activationRefusal statuses now t).isNone = false := by
    intro t ht
    unfold activationRefusal
    split
    · rfl
    · split
      · rfl
      · rfl
  exact ⟨hrefused s hafter, hrefused s.expire hafter⟩

/-- Whether a stamp is refused is decided alike before and after stamps are marked. -/
theorem Lapsed.refusal (h : Lapsed now p db db') {s : Stamp} (hs : s ∈ db.stamps.rows) :
    (activationRefusal statuses now (if p s then s.expire else s)).isNone = (activationRefusal statuses now s).isNone := by
  split
  · rename_i hp
    obtain ⟨hbefore, hafter⟩ := @refusal_due now statuses s (h.due s hs hp)
    rw [hbefore, hafter]
  · rfl

/-- A request activates the same stamps. -/
theorem Lapsed.activates (h : Lapsed now p db db') {s : Stamp} (hs : s ∈ db.stamps.rows) :
    activates serials statuses now (if p s then s.expire else s) = TaxStamp.activates serials statuses now s := by
  rw [TaxStamp.activates, TaxStamp.activates, h.refusal hs, (keepsStamp_expire.ite p).serial]

/-- An activated stamp is valid beyond the instant. -/
theorem activates_valid {s : Stamp} (h : activates serials statuses now s = true) : now < s.expiresAt := by
  rw [activates, Bool.and_eq_true] at h
  obtain ⟨-, hnone⟩ := h
  unfold activationRefusal at hnone
  split at hnone
  · cases hnone
  · split at hnone
    · cases hnone
    · split at hnone
      · cases hnone
      · rename_i hlater
        exact not_le.mp hlater

/-- The stamps that become active are those that the request activates. -/
theorem becomesActive_iff {id : Uuid}
    (h : activateStamps settings draws actor serials statuses now idempotencyKey db = .ok (result, db')) :
    BecomesActive db db' id ↔ ∃ s ∈ db.stamps.rows, s.id = id ∧ activates serials statuses now s = true := by
  have hrows := activateStamps_rows h
  constructor
  · intro hbecomes
    obtain ⟨s, hs, hid, hinactive, s', hs', hid', hactive⟩ := hbecomes
    rw [hrows] at hs'
    obtain ⟨t, ht, rfl⟩ := List.mem_map.mp hs'
    have hkeeps := ((keepsStamp_activate now).ite (activates serials statuses now)).id t
    obtain rfl := stamp_eq_of_id ht hs ((hkeeps.symm.trans hid').trans hid.symm)
    refine ⟨t, ht, hid, ?_⟩
    by_contra hnot
    rw [if_neg hnot] at hactive
    exact hinactive hactive
  · intro hactivates
    obtain ⟨s, hs, hid, hactivated⟩ := hactivates
    have hissued : s.status = .issued := by
      rw [activates, Bool.and_eq_true, Option.isNone_iff_eq_none] at hactivated
      exact (activationRefusal_none hactivated.2).2
    refine ⟨s, hs, hid, by rw [hissued]; decide, s.activate now, ?_, hid, rfl⟩
    rw [hrows]
    exact List.mem_map.mpr ⟨s, hs, if_pos hactivated⟩

/-- The batch statuses are read alike. -/
theorem Lapsed.readBatchStatuses (h : Lapsed now p db db') :
    readBatchStatuses serials db' = TaxStamp.readBatchStatuses serials db := by
  have hkeeps : ∀ s : Stamp, (if p s then s.expire else s).serial = s.serial ∧
      (if p s then s.expire else s).batchId = s.batchId := by
    intro s
    split <;> exact ⟨rfl, rfl⟩
  have hbatches : ((db'.stamps.rows.filter fun s => s.serial ∈ distinct serials).map Stamp.batchId) =
      (db.stamps.rows.filter fun s => s.serial ∈ distinct serials).map Stamp.batchId := by
    rw [h.stamps, List.filter_map, List.map_map]
    refine (List.map_congr_left fun s _ => (hkeeps s).2).trans (congrArg _ (congrArg (List.filter · _) (funext fun s => ?_)))
    rw [Function.comp_apply, (hkeeps s).1]
  unfold TaxStamp.readBatchStatuses
  dsimp only
  rw [hbatches, h.batches]

/-- The same stamps become active whether or not stamps have been marked. -/
theorem Lapsed.becomesActive_iff {draws' : Draws} {after after' : Db} (h : Lapsed now p db db')
    (hplain : activateNow settings draws actor serials now idempotencyKey db = .ok (result, after))
    (hlapsed : activateNow settings draws' actor serials now idempotencyKey db' = .ok (result', after')) (id : Uuid) :
    BecomesActive db' after' id ↔ BecomesActive db after id := by
  rw [TaxStamp.becomesActive_iff hplain, TaxStamp.becomesActive_iff hlapsed, h.readBatchStatuses, h.stamps]
  have hid := (keepsStamp_expire.ite p).id
  constructor
  · intro hexists
    obtain ⟨s', hs', hid', hactivates⟩ := hexists
    obtain ⟨s, hs, rfl⟩ := List.mem_map.mp hs'
    rw [h.activates hs] at hactivates
    exact ⟨s, hs, (hid s).symm.trans hid', hactivates⟩
  · intro hexists
    obtain ⟨s, hs, hid', hactivates⟩ := hexists
    refine ⟨_, List.mem_map_of_mem hs, (hid s).trans hid', ?_⟩
    rw [h.activates hs]
    exact hactivates

/-! ### Refusals of an activation -/

/-- What an activation reports of the serials that it was asked for. -/
def activationRecord (actor : Actor) (idempotencyKey : Option String) (wanted : List String) (changed : ℕ) :
    AuditRecord where
  action := "stamp.activate"
  targetType := "stamp_set"
  targetId := toString wanted.length ++ " serials"
  outcome := .success
  afterState := some
    [("requested", .int wanted.length),
      ("activated", .int changed),
      ("serials", .arr ((wanted.take 50).map Json.str))]
  requestId := actor.requestId
  idempotencyKey := idempotencyKey

/-- What an activation does with the stamps that it has locked. -/
def markActive (settings : Settings) (draws : Draws) (actor : Actor) (wanted : List String) (found : List Stamp)
    (statuses : BatchStatuses) (now : Time) (idempotencyKey : Option String) : Session BulkResult := do
  let outcomes := wanted.map (activationOutcome found statuses now)
  setRows Tables.stamps (fun s => s.serial ∈ wanted && (activationRefusal statuses now s).isNone) fun s =>
    s.activate now
  addRows Tables.stampEvents
    ((found.filter fun s => (activationRefusal statuses now s).isNone).map fun s => activatedEvent s actor now)
  let _ ← recordAuditEvent settings draws (draws.uuid 0) actor.auditActor
    (activationRecord actor idempotencyKey wanted (BulkResult.changedCount outcomes)) now
  return outcomes

/-- The marks of an activation end with the audit event: no constraint of the stamps or of their history refuses
them. -/
theorem markActive_isOk {wanted : List String} {found : List Stamp} (hfound : ∀ s ∈ found, s ∈ db.stamps.rows) :
    (markActive settings draws actor wanted found statuses now idempotencyKey db).isOk = true ↔
      db.TakesEvent settings draws actor.auditActor now (activationRecord actor idempotencyKey wanted
        (BulkResult.changedCount (wanted.map (activationOutcome found statuses now)))) := by
  obtain ⟨S, hS⟩ := exists_marked db.stamps (fun s => s.serial ∈ wanted && (activationRefusal statuses now s).isNone)
    (keepsStamp_activate now) (fun _ => rfl) fun _ => rfl
  have hfits : ∀ e ∈ (found.filter fun s => (activationRefusal statuses now s).isNone).map fun s =>
      activatedEvent s actor now, stampEventSchema.fits e = true := by
    intro e he
    obtain ⟨s, hs, rfl⟩ := List.mem_map.mp he
    have hserial := db.stamps.valid.fits s (hfound s (List.mem_filter.mp hs).1)
    simp only [stampSchema, varchar, Bool.and_eq_true, decide_eq_true_eq] at hserial
    simp [stampEventSchema, activatedEvent, jsonb, Json.occurs, Json.occursField, Json.isNulText, hserial.1.1.2]
  obtain ⟨V, hV⟩ := Table.exists_append_all (t := db.stampEvents) hfits (fun _ _ => rfl) fun _ _ => rfl
  unfold markActive
  rw [Tx.bind_of_ok (a := ()) _ (updateRows_ok.mpr ⟨S, hS, rfl⟩),
    Tx.bind_of_ok (a := ()) _ (insertRows_ok.mpr ⟨V, hV, rfl⟩)]
  exact isOk_recording rfl

/-- As many serials are reported as activated when each stamp is refused or not as before. -/
theorem changedCount_map {f : Stamp → Stamp} {found : List Stamp} (wanted : List String) (hkeeps : KeepsStamp f)
    (hrefusal : ∀ s ∈ found, (activationRefusal statuses now (f s)).isNone = (activationRefusal statuses now s).isNone) :
    BulkResult.changedCount (wanted.map (activationOutcome (found.map f) statuses now)) =
      BulkResult.changedCount (wanted.map (activationOutcome found statuses now)) := by
  unfold BulkResult.changedCount
  rw [List.countP_map, List.countP_map]
  refine List.countP_congr fun serial _ => ?_
  have hfind : (found.map f).find? (fun s => s.serial = serial) = (found.find? fun s => s.serial = serial).map f := by
    rw [List.find?_map]
    refine congrArg _ (congrArg (List.find? · found) (funext fun s => ?_))
    rw [Function.comp_apply, hkeeps.serial]
  rw [Function.comp_apply, Function.comp_apply, activationOutcome, activationOutcome, hfind]
  cases hstamp : found.find? fun s => s.serial = serial with
  | none => rfl
  | some s =>
    have hsame := hrefusal s (List.mem_of_find?_eq_some hstamp)
    rw [Option.map_some]
    dsimp only
    cases hbefore : activationRefusal statuses now s with
    | none =>
      rw [hbefore] at hsame
      rw [Option.isNone_iff_eq_none.mp hsame]
    | some reason =>
      rw [hbefore] at hsame
      cases hafter : activationRefusal statuses now (f s) with
      | none =>
        rw [hafter] at hsame
        cases hsame
      | some reason' => rfl

/-- The stamps that a request locks are the same, marked or not. -/
theorem Lapsed.stampsOf (h : Lapsed now p db db') (wanted : List String) :
    db'.stamps.rows.filter (fun s => s.serial ∈ wanted) =
      (db.stamps.rows.filter fun s => s.serial ∈ wanted).map fun s => if p s then s.expire else s := by
  rw [h.stamps, List.filter_map]
  refine congrArg _ (congrArg (List.filter · _) (funext fun s => ?_))
  rw [Function.comp_apply, (keepsStamp_expire.ite p).serial]

/-- A list of serials is validated in the same way in any state. -/
theorem validateSerials_lockstep (serials : List String) (db db' : Db) :
    Tx.Lockstep (fun r r' => r = (distinct serials, db) ∧ r' = (distinct serials, db')) (validateSerials serials db)
      (validateSerials serials db') := by
  unfold validateSerials
  refine Tx.Lockstep.bind (Tx.Lockstep.require _ Iff.rfl) .refused fun _ _ _ _ h => ?_
  obtain ⟨⟨⟩, ⟨⟩⟩ := h
  refine Tx.Lockstep.bind (Tx.Lockstep.require _ Iff.rfl) .refused fun _ _ _ _ h => ?_
  obtain ⟨⟨⟩, ⟨⟩⟩ := h
  refine Tx.Lockstep.bind (Tx.Lockstep.require _ Iff.rfl) .refused fun _ _ _ _ h => ?_
  obtain ⟨⟨⟩, ⟨⟩⟩ := h
  exact .finished ⟨rfl, rfl⟩

/-- An activation is refused for the same fault, or reaches the same audit event, whether or not stamps have been
marked. -/
theorem Lapsed.endsAlike {draws' : Draws} (h : Lapsed now p db db') :
    EndsAlike (db.TakesEvent settings draws actor.auditActor now) (db'.TakesEvent settings draws' actor.auditActor now)
      (activateNow settings draws actor serials now idempotencyKey db)
      (activateNow settings draws' actor serials now idempotencyKey db') := by
  unfold activateNow
  rw [h.readBatchStatuses]
  generalize TaxStamp.readBatchStatuses serials db = statuses
  unfold activateStamps
  refine Tx.Lockstep.bind (Tx.Lockstep.require _ Iff.rfl) .refused fun _ _ _ _ hrole => ?_
  obtain ⟨⟨⟩, ⟨⟩⟩ := hrole
  refine Tx.Lockstep.bind (validateSerials_lockstep serials db db') .refused fun wanted _ _ _ hwanted => ?_
  obtain ⟨⟨⟩, ⟨⟩⟩ := hwanted
  rw [Tx.bind_of_ok _ (selectAll_ok.mpr ⟨rfl, rfl⟩), Tx.bind_of_ok _ (selectAll_ok.mpr ⟨rfl, rfl⟩), h.stampsOf]
  have hfound : ∀ s ∈ db.stamps.rows.filter (fun s => s.serial ∈ distinct serials), s ∈ db.stamps.rows :=
    fun s hs => (List.mem_filter.mp hs).1
  have hmarked : ∀ s ∈ (db.stamps.rows.filter fun s => s.serial ∈ distinct serials).map fun s => if p s then s.expire else s,
      s ∈ db'.stamps.rows := by
    intro s hs
    obtain ⟨old, hold, rfl⟩ := List.mem_map.mp hs
    rw [h.stamps]
    exact List.mem_map_of_mem (hfound old hold)
  have hcompany : ∀ s : Stamp, (if p s then s.expire else s).companyId = s.companyId := fun s => by split <;> rfl
  have howned : (actor.role = .admin ∨ actor.role = .operator ∨ ∀ s ∈ db.stamps.rows.filter fun s =>
        s.serial ∈ distinct serials, actor.companyId = some s.companyId) ↔
      (actor.role = .admin ∨ actor.role = .operator ∨ ∀ s ∈ (db.stamps.rows.filter fun s =>
        s.serial ∈ distinct serials).map fun s => if p s then s.expire else s, actor.companyId = some s.companyId) := by
    simp only [List.forall_mem_map, hcompany]
  refine Tx.Lockstep.bind (Tx.Lockstep.require _ howned) .refused fun _ _ _ _ hchecked => ?_
  obtain ⟨⟨⟩, ⟨⟩⟩ := hchecked
  refine .recording _ (markActive_isOk hfound) ?_
  rw [← changedCount_map (distinct serials) (keepsStamp_expire.ite p) fun s hs => h.refusal (hfound s hs)]
  exact markActive_isOk hmarked

/-! ### The order of the job and an activation -/

/-- An activation has rewritten the stamps that it activates, or none if it was rolled back. -/
theorem activateNow_commit_rows : ((activateNow settings draws actor serials now idempotencyKey).commit db).stamps.rows =
    db.stamps.rows.map fun s =>
      if (activateNow settings draws actor serials now idempotencyKey db).isOk &&
          activates serials (readBatchStatuses serials db) now s then s.activate now else s :=
  Tx.commit_cases (fun finished after => after.stamps.rows = db.stamps.rows.map fun s =>
    if finished && activates serials (readBatchStatuses serials db) now s then s.activate now else s)
    (by simp) fun _ _ h => activateStamps_rows h

/-- An activated stamp is not due at any earlier instant. -/
theorem not_due_of_activates {s : Stamp} (hle : now' ≤ now) (h : activates serials statuses now s = true) :
    s.due now' = false ∧ (s.activate now).due now' = false := by
  have hvalid : ¬s.expiresAt ≤ now' := not_le.mpr (lt_of_le_of_lt hle (activates_valid h))
  exact ⟨by simp [Stamp.due, hvalid], by simp [Stamp.due, Stamp.activate, hvalid]⟩

/-- A run selects the same stamps before and after an activation. -/
theorem expiring_activateNow (hle : now' ≤ now) :
    expiring now' limit locked ((activateNow settings draws actor serials now idempotencyKey).commit db) =
      expiring now' limit locked db := by
  unfold expiring
  rw [activateNow_commit_rows, filter_map_of_frame]
  · intro s _
    split
    · rename_i hactivates
      obtain ⟨hbefore, hafter⟩ := not_due_of_activates hle (Bool.and_eq_true _ _ ▸ hactivates).2
      rw [hbefore, hafter, Bool.false_and, Bool.false_and]
    · rfl
  · intro s _ hdue
    refine if_neg fun hactivates => ?_
    obtain ⟨hbefore, -⟩ := not_due_of_activates hle (Bool.and_eq_true _ _ ▸ hactivates).2
    rw [hbefore, Bool.false_and] at hdue
    cases hdue

/-- The job and an activation lead to the same stamps in both orders when each finishes in both orders or in neither. -/
theorem expire_activate_comm {draws' late : Draws} (hle : job.now ≤ now)
    (hjob : ({ job with draws := late }.run settings
        ((activateNow settings draws actor serials now idempotencyKey).commit db)).isOk = (job.run settings db).isOk)
    (hactivation : (activateNow settings draws' actor serials now idempotencyKey (job.commit settings db)).isOk =
      (activateNow settings draws actor serials now idempotencyKey db).isOk) :
    ({ job with draws := late }.commit settings
        ((activateNow settings draws actor serials now idempotencyKey).commit db)).stamps.rows =
      ((activateNow settings draws' actor serials now idempotencyKey).commit (job.commit settings db)).stamps.rows := by
  have hlapsed := (@ExpiryRun.commit_lapsed settings db job).mono hle
  rw [ExpiryRun.commit_lapsed.stamps, activateNow_commit_rows, activateNow_commit_rows, hactivation, hjob,
    hlapsed.readBatchStatuses, hlapsed.stamps, expiring_activateNow hle, List.map_map, List.map_map]
  refine List.map_congr_left fun s hs => ?_
  rw [Function.comp_apply, Function.comp_apply, hlapsed.activates hs]
  cases hactivated : (activateNow settings draws actor serials now idempotencyKey db).isOk &&
      activates serials (readBatchStatuses serials db) now s with
  | false => rfl
  | true =>
    have hunselected : s.id ∉ expiring job.now job.limit job.locked db := by
      intro hselected
      have hdue := due_of_mem_expiring hs hselected
      rw [(not_due_of_activates hle (Bool.and_eq_true _ _ ▸ hactivated).2).1] at hdue
      cases hdue
    have hid : (s.activate now).id = s.id := rfl
    simp [hid, hunselected]

/-- No decision at an instant shows how far the expiry job has come: verification comes to the same outcomes, an
activation ends alike and activates the same stamps, and the job may as well run after it. -/
theorem expiry_unobservable (settings : Settings) (r : Records) (now : Time) (runs : List ExpiryRun)
    (hruns : ∀ job ∈ runs, job.now ≤ now) :
    let lapsed := runs.foldl (ExpiryRun.commit settings) r.db
    (∀ request, (assess settings { r with db := lapsed } request now).map Prod.fst =
      (assess settings r request now).map Prod.fst) ∧
    (∀ draws draws' actor request result result' r' lapsed',
      verify settings draws actor request now r = .ok (result, r') →
      verify settings draws' actor request now { r with db := lapsed } = .ok (result', lapsed') → result' = result) ∧
    (∀ draws draws' (actor : Actor) serials idempotencyKey,
      EndsAlike (r.db.TakesEvent settings draws actor.auditActor now)
        (lapsed.TakesEvent settings draws' actor.auditActor now)
        (activateNow settings draws actor serials now idempotencyKey r.db)
        (activateNow settings draws' actor serials now idempotencyKey lapsed) ∧
      ∀ result result' after lapsed',
        activateNow settings draws actor serials now idempotencyKey r.db = .ok (result, after) →
        activateNow settings draws' actor serials now idempotencyKey lapsed = .ok (result', lapsed') →
          ∀ id, BecomesActive lapsed lapsed' id ↔ BecomesActive r.db after id) ∧
    (∀ (job : ExpiryRun) late draws draws' (actor : Actor) serials idempotencyKey, job.now ≤ now →
      let expired := job.commit settings r.db
      let activated := (activateNow settings draws actor serials now idempotencyKey).commit r.db
      EndsAlike (r.db.TakesEvent settings job.draws expiryActor job.now)
        (activated.TakesEvent settings late expiryActor job.now)
        (job.run settings r.db) ({ job with draws := late }.run settings activated) ∧
      EndsAlike (r.db.TakesEvent settings draws actor.auditActor now)
        (expired.TakesEvent settings draws' actor.auditActor now)
        (activateNow settings draws actor serials now idempotencyKey r.db)
        (activateNow settings draws' actor serials now idempotencyKey expired) ∧
      (({ job with draws := late }.run settings activated).isOk = (job.run settings r.db).isOk →
        (activateNow settings draws' actor serials now idempotencyKey expired).isOk =
          (activateNow settings draws actor serials now idempotencyKey r.db).isOk →
        ({ job with draws := late }.commit settings activated).stamps.rows =
          ((activateNow settings draws' actor serials now idempotencyKey).commit expired).stamps.rows)) := by
  intro lapsed
  obtain ⟨p, hp⟩ := @runs_lapsed settings now r.db runs hruns
  refine ⟨hp.outcome, ?_, ?_, ?_⟩
  · intro draws draws' actor request result result' r' lapsed' hplain hlapsed
    exact hp.verify hplain hlapsed
  · intro draws draws' actor serials idempotencyKey
    exact ⟨hp.endsAlike, fun result result' after lapsed' hplain hlapsed id => hp.becomesActive_iff hplain hlapsed id⟩
  · intro job late draws draws' actor serials idempotencyKey hle
    have hlapsed := (@ExpiryRun.commit_lapsed settings r.db job).mono hle
    exact ⟨expireDueStamps_endsAlike (expiring_activateNow hle), hlapsed.endsAlike, expire_activate_comm hle⟩

/-- The platform with one issued stamp. -/
def sampleLapsing : Records := ⟨(run (step sampleSettings) samplePlatform sampleIssued).db, .empty _⟩

/-- A run of the job long after the validity has elapsed. -/
def sampleExpiry : ExpiryRun := ⟨sampleDraws 7, sampleNow + days 4000, 2, []⟩

/-- The run marks the stamp, and a verification comes to the outcome it would have come to before. -/
theorem expiry_unobservable_issued :
    (sampleExpiry.commit sampleSettings sampleLapsing.db).stamps.rows.countP (fun s => s.status = .expired) = 1 ∧
      ∀ request, (assess sampleSettings { sampleLapsing with
          db := [sampleExpiry].foldl (ExpiryRun.commit sampleSettings) sampleLapsing.db } request
            sampleExpiry.now).map Prod.fst =
        (assess sampleSettings sampleLapsing request sampleExpiry.now).map Prod.fst := by
  have hunobservable := expiry_unobservable sampleSettings sampleLapsing sampleExpiry.now [sampleExpiry] fun job hjob => by
    rw [List.mem_singleton.mp hjob]
  exact ⟨by decide +kernel, hunobservable.1⟩

end TaxStamp
