import TaxStamp.System

/-!
# Field verification

A verification looks a presented serial up, compares the keyed hash of the presented code,
judges the stamp and counts the other devices that have verified it lately. Its reads take
no lock: the judgement is made from what is committed when it reads, and the attempt is
recorded, together with its audit event, when its transaction commits later. A
verification is therefore two events, with the attempt kept in flight in between.
-/

namespace TaxStamp

open Lib

/-- The outcome of a verification. -/
inductive VerificationOutcome
  | valid
  | unknownSerial
  | secureCodeMismatch
  | notActive
  | void
  | expired
  | velocitySuspect
  deriving DecidableEq, Repr

/-- The stored form of an outcome. -/
def VerificationOutcome.value : VerificationOutcome → String
  | .valid => "valid"
  | .unknownSerial => "unknown_serial"
  | .secureCodeMismatch => "secure_code_mismatch"
  | .notActive => "not_active"
  | .void => "void"
  | .expired => "expired"
  | .velocitySuspect => "velocity_suspect"

/-- The reason given for an outcome. -/
def VerificationOutcome.reason : VerificationOutcome → String
  | .valid => "serial and secure code match an active stamp"
  | .unknownSerial => "serial is not present in the issuance register"
  | .secureCodeMismatch => "secure code does not match the serial"
  | .notActive => "stamp has been issued but not activated"
  | .void => "stamp has been voided"
  | .expired => "stamp validity has elapsed"
  | .velocitySuspect => "stamp verified from an unusual number of distinct devices in the last 24 hours"

/-- A recorded verification attempt. -/
structure Verification where
  id : Uuid
  stampId : Option Uuid
  serialPresented : String
  outcome : VerificationOutcome
  principalId : Uuid
  deviceId : String
  nonce : String
  latitudeE7 : Option ℤ
  longitudeE7 : Option ℤ
  occurredAt : Time

/-- The constraints of `verifications`. -/
def verificationSchema : Schema Verification where
  fits v := varchar 64 v.serialPresented && varchar 64 v.deviceId && varchar 64 v.nonce &&
    v.latitudeE7.all bigint && v.longitudeE7.all bigint
  check _ := true
  clash a b := a.id = b.id
  clash_comm a b := by simp only [eq_comm]

/-- The database with the recorded verifications. -/
structure Records where
  db : Db
  verifications : Table verificationSchema

/-- Access to `verifications`. -/
@[simp, reducible] def Tables.verifications : Field Records (Table verificationSchema) :=
  ⟨Records.verifications, fun t r => { r with verifications := t }⟩

/-- Work on the rest of the database. -/
def onDb {α : Type} (work : Session α) : Tx Records Fault α := fun r =>
  match work r.db with
  | .ok (a, db) => .ok (a, { r with db := db })
  | .error e => .error e

/-- Finished work on the rest of the database leaves the verifications alone. -/
@[simp] theorem onDb_ok {α : Type} {work : Session α} {a : α} {r r' : Records} :
    onDb work r = .ok (a, r') ↔ ∃ db', work r.db = .ok (a, db') ∧ r' = { r with db := db' } := by
  unfold onDb
  cases h : work r.db with
  | error e => simp
  | ok result =>
    obtain ⟨b, db⟩ := result
    constructor
    · intro heq
      injection heq with heq
      injection heq with ha hr
      exact ⟨db, by rw [ha], hr.symm⟩
    · rintro ⟨db', heq, rfl⟩
      injection heq with heq
      injection heq with ha hdb
      rw [ha, hdb]

/-- The window of the velocity check. -/
def velocityWindow : ℤ := days 1

/-- The number of other devices from which a verification is suspect. -/
def velocityDistinctDeviceThreshold : ℕ := 3

/-- What a device presents. -/
structure VerificationRequest where
  serial : String
  secureCode : String
  deviceId : String
  nonce : String
  latitudeE7 : Option ℤ := none
  longitudeE7 : Option ℤ := none

/-- What a verification returns. -/
structure VerificationResult where
  outcome : VerificationOutcome
  authentic : Bool
  serial : String
  productCategory : Option String
  expiresAt : Option Time
  reason : String
  deriving DecidableEq, Repr

/-- The valid verifications of a stamp by other devices since a time. -/
def recentByOthers (verifications : List Verification) (stampId : Uuid) (since : Time) (deviceId : String) :
    List Verification :=
  verifications.filter fun v =>
    v.stampId = some stampId && v.outcome = .valid && since ≤ v.occurredAt && v.deviceId ≠ deviceId

/-- The number of other devices with a valid verification of a stamp since a time. -/
def distinctRecentDevices (verifications : List Verification) (stampId : Uuid) (since : Time) (deviceId : String) : ℕ :=
  ((recentByOthers verifications stampId since deviceId).map Verification.deviceId).dedup.length

/-- The stamp with a presented serial; a serial that is not well formed is not looked up. -/
def presentedStamp (db : Db) (serial : String) : Option Stamp :=
  if isValidSerial serial then db.stamps.rows.find? fun s => s.serial = serial else none

/-- The outcome for a stamp whose serial was presented. -/
def judge (settings : Settings) (verifications : List Verification) (stamp : Stamp) (request : VerificationRequest)
    (now : Time) : Except Fault VerificationOutcome := do
  let same ← compareDigest
    (hashSecureCode settings.crypto stamp.serial request.secureCode settings.deviceHmacSecret) stamp.secureCodeHash
  if ¬same then return .secureCodeMismatch
  else if stamp.status = .void then return .void
  else if stamp.expiresAt ≤ now ∨ stamp.status = .expired then return .expired
  else if stamp.status ≠ .active then return .notActive
  else do
    let since ← Time.add now (-velocityWindow)
    if velocityDistinctDeviceThreshold ≤ distinctRecentDevices verifications stamp.id since request.deviceId then
      return .velocitySuspect
    else return .valid

/-- The outcome for a request, with the stamp it is about. -/
def assess (settings : Settings) (r : Records) (request : VerificationRequest) (now : Time) :
    Except Fault (VerificationOutcome × Option Stamp) :=
  match presentedStamp r.db request.serial with
  | none => .ok (.unknownSerial, none)
  | some stamp => do
    let outcome ← judge settings r.verifications.rows stamp request now
    return (outcome, some stamp)

/-- A verification that has made its judgement. -/
structure VerificationAttempt where
  actor : Actor
  request : VerificationRequest
  now : Time
  outcome : VerificationOutcome
  stamp : Option Stamp

/-- The first characters of a text. -/
def firstChars (count : ℕ) (text : String) : String := String.ofList (text.toList.take count)

/-- The row of an attempt. -/
def VerificationAttempt.row (attempt : VerificationAttempt) (id : Uuid) : Verification where
  id := id
  stampId := attempt.stamp.map Stamp.id
  serialPresented := firstChars 64 attempt.request.serial
  outcome := attempt.outcome
  principalId := attempt.actor.principalId
  deviceId := attempt.request.deviceId
  nonce := attempt.request.nonce
  latitudeE7 := attempt.request.latitudeE7
  longitudeE7 := attempt.request.longitudeE7
  occurredAt := attempt.now

/-- What the audit trail reports of an attempt. -/
def VerificationAttempt.auditRecord (attempt : VerificationAttempt) : AuditRecord where
  action := "stamp.verify"
  targetType := "stamp"
  targetId := firstChars 64 attempt.request.serial
  outcome := if attempt.outcome = .valid then .success else .failure
  afterState := some [("outcome", .str attempt.outcome.value), ("device_id", .str attempt.request.deviceId)]
  requestId := attempt.actor.requestId

/-- Record an attempt. -/
def recordAttempt (settings : Settings) (draws : Draws) (attempt : VerificationAttempt) : Tx Records Fault Unit := do
  insertRow Tables.verifications Fault.ofRejection (attempt.row (draws.uuid 0))
  let _ ← onDb (recordAuditEvent settings draws (draws.uuid 1) attempt.actor.auditActor attempt.auditRecord attempt.now)
  return ()

/-- What an attempt returns. -/
def VerificationAttempt.result (attempt : VerificationAttempt) : VerificationResult where
  outcome := attempt.outcome
  authentic := attempt.outcome = .valid
  serial := attempt.request.serial
  productCategory := attempt.stamp.map Stamp.productCategory
  expiresAt := attempt.stamp.map Stamp.expiresAt
  reason := attempt.outcome.reason

/-- Verify a presented stamp. -/
def verify (settings : Settings) (draws : Draws) (actor : Actor) (request : VerificationRequest) (now : Time) :
    Tx Records Fault VerificationResult := do
  let (outcome, stamp) ← fun r => (assess settings r request now).map (·, r)
  let attempt : VerificationAttempt := ⟨actor, request, now, outcome, stamp⟩
  recordAttempt settings draws attempt
  return attempt.result

/-- A recorded attempt is appended, and the rest of the database is as after its audit event. -/
theorem recordAttempt_ok {settings : Settings} {draws : Draws} {attempt : VerificationAttempt} {u : Unit} {r r' : Records} :
    recordAttempt settings draws attempt r = .ok (u, r') ↔
      ∃ (V : Table verificationSchema) (event : AuditEvent) (db' : Db),
        V.rows = r.verifications.rows ++ [attempt.row (draws.uuid 0)] ∧
        recordAuditEvent settings draws (draws.uuid 1) attempt.actor.auditActor attempt.auditRecord attempt.now r.db =
          .ok (event, db') ∧ r' = ⟨db', V⟩ := by
  simp only [recordAttempt, Tx.bind_ok, insertRow_ok, onDb_ok, Tx.pure_ok]
  constructor
  · rintro ⟨-, r₁, ⟨V, hV, rfl⟩, event, r₂, ⟨db', hrecord, rfl⟩, -, rfl⟩
    exact ⟨V, event, db', hV, hrecord, rfl⟩
  · rintro ⟨V, event, db', hV, hrecord, rfl⟩
    exact ⟨(), _, ⟨V, hV, rfl⟩, event, _, ⟨db', hrecord, rfl⟩, trivial, rfl⟩

/-- A finished verification has recorded its judgement. -/
theorem verify_ok {settings : Settings} {draws : Draws} {actor : Actor} {request : VerificationRequest} {now : Time}
    {result : VerificationResult} {r r' : Records} :
    verify settings draws actor request now r = .ok (result, r') ↔
      ∃ outcome stamp, assess settings r request now = .ok (outcome, stamp) ∧
        recordAttempt settings draws ⟨actor, request, now, outcome, stamp⟩ r = .ok ((), r') ∧
        result = VerificationAttempt.result ⟨actor, request, now, outcome, stamp⟩ := by
  refine Tx.bind_ok.trans ?_
  simp only [Tx.bind_ok, Tx.pure_ok]
  constructor
  · rintro ⟨⟨outcome, stamp⟩, r₁, hassess, u, r₂, hrecord, rfl, rfl⟩
    cases hresult : assess settings r request now with
    | error fault =>
      rw [hresult] at hassess
      cases hassess
    | ok judged =>
      rw [hresult] at hassess
      obtain ⟨rfl, rfl⟩ := Prod.mk.inj (Except.ok.inj hassess)
      exact ⟨outcome, stamp, rfl, hrecord, rfl⟩
  · rintro ⟨outcome, stamp, hassess, hrecord, rfl⟩
    refine ⟨(outcome, stamp), r, ?_, (), r', hrecord, rfl, rfl⟩
    rw [hassess]
    rfl

/-! ### The platform with its verifications -/

/-- The platform, the recorded verifications and the attempts in flight. -/
structure Register where
  platform : Platform
  verifications : Table verificationSchema
  pending : List VerificationAttempt

/-- A platform with reference data only, and no verifications. -/
def Register.initial (companies : Table companySchema) (tariffs : Table tariffSchema) : Register :=
  ⟨.initial companies tariffs, .empty _, []⟩

/-- What a verification reads and writes. -/
def Register.records (g : Register) : Records := ⟨g.platform.db, g.verifications⟩

/-- A transaction of another service, or one of the two parts of a verification. -/
inductive RegisterEvent
  | service (e : Event)
  | assess (actor : Actor) (request : VerificationRequest) (now : Time)
  | record (index : ℕ) (draws : Draws)

/-- The register after an event. -/
def registerStep (settings : Settings) (g : Register) : RegisterEvent → Register
  | .service e => { g with platform := step settings g.platform e }
  | .assess actor request now =>
    match assess settings g.records request now with
    | .ok (outcome, stamp) => { g with pending := g.pending ++ [⟨actor, request, now, outcome, stamp⟩] }
    | .error _ => g
  | .record index draws =>
    match g.pending[index]? with
    | none => g
    | some attempt =>
      let r := (recordAttempt settings draws attempt).commit g.records
      ⟨{ g.platform with db := r.db }, r.verifications, g.pending.eraseIdx index⟩

/-- An event of the register is at most one event of the platform: its own, or the audit event of an attempt. -/
theorem registerStep_platform (settings : Settings) (g : Register) (e : RegisterEvent) :
    (registerStep settings g e).platform = g.platform ∨
      ∃ e', (registerStep settings g e).platform = step settings g.platform e' ∧
        (e = .service e' ∨ ∃ draws eventId actor record now, e' = .recordAudit draws eventId actor record now) := by
  cases e with
  | service e => exact .inr ⟨e, rfl, .inl rfl⟩
  | assess actor request now =>
    unfold registerStep
    dsimp only
    split <;> exact .inl rfl
  | record index draws =>
    unfold registerStep
    dsimp only
    split
    · exact .inl rfl
    · rename_i attempt hattempt
      refine Tx.commit_induction (fun r : Records => ({ g.platform with db := r.db } : Platform) = g.platform ∨
        ∃ e', ({ g.platform with db := r.db } : Platform) = step settings g.platform e' ∧
          (.record index draws = RegisterEvent.service e' ∨
            ∃ draws eventId actor record now, e' = .recordAudit draws eventId actor record now))
        (.inl rfl) fun u r h => ?_
      obtain ⟨V, event, db', hV, hrecord, rfl⟩ := recordAttempt_ok.mp h
      refine .inr ⟨.recordAudit draws (draws.uuid 1) attempt.actor.auditActor attempt.auditRecord attempt.now, ?_,
        .inr ⟨_, _, _, _, _, rfl⟩⟩
      change recordAuditEvent settings draws (draws.uuid 1) attempt.actor.auditActor attempt.auditRecord attempt.now
        g.platform.db = .ok (event, db') at hrecord
      simp only [step, Tx.commit, hrecord]

/-- The platform under the register runs like the platform. -/
theorem register_platform (settings : Settings) (companies : Table companySchema) (tariffs : Table tariffSchema)
    (events : List RegisterEvent) :
    ∃ events', (run (registerStep settings) (.initial companies tariffs) events).platform =
      run (step settings) (.initial companies tariffs) events' := by
  refine run_simulates Register.platform (fun g e => ?_) (Register.initial companies tariffs) events
  rcases registerStep_platform settings g e with hsame | ⟨e', hstep, -⟩
  · exact ⟨[], hsame⟩
  · exact ⟨[e'], hstep⟩

end TaxStamp
