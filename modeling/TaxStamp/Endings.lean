import TaxStamp.Audit
import TaxStamp.Lib.Lockstep

/-!
# How two transactions end

A service writes its audit event last. Two transactions that come to the same decisions in
different states are refused for the same fault, or both reach this event. Whether it is
then taken is a matter of the audit trails alone, which may differ: the identifier drawn for
the event and its hash have to be new in each of them.
-/

namespace TaxStamp

open Lib

/-- The audit trail takes the event of a record. -/
def Db.TakesEvent (settings : Settings) (draws : Draws) (actor : AuditActor) (now : Time) (db : Db)
    (record : AuditRecord) : Prop :=
  ∃ event db', recordAuditEvent settings draws (draws.uuid 0) actor record now db = .ok (event, db')

/-- Two transactions are refused for one fault, or both finish, or both reach the audit event of one record, and each
of them finishes exactly when its trail takes the event. -/
inductive EndsAlike {α β : Type} (takes takes' : AuditRecord → Prop) :
    Except Fault (α × Db) → Except Fault (β × Db) → Prop
  | refused (fault : Fault) : EndsAlike takes takes' (.error fault) (.error fault)
  | finished (r : α × Db) (r' : β × Db) : EndsAlike takes takes' (.ok r) (.ok r')
  | recording {result : Except Fault (α × Db)} {result' : Except Fault (β × Db)} (record : AuditRecord)
      (h : result.isOk = true ↔ takes record) (h' : result'.isOk = true ↔ takes' record) :
      EndsAlike takes takes' result result'

variable {settings : Settings} {draws : Draws} {actor : AuditActor} {now : Time} {db db' : Db} {record : AuditRecord}

/-- Only the trail decides about an event. -/
theorem Db.takesEvent_congr (h : db'.auditEvents = db.auditEvents) :
    db'.TakesEvent settings draws actor now record ↔ db.TakesEvent settings draws actor now record := by
  have hmono : ∀ db db' : Db, db'.auditEvents = db.auditEvents → db'.TakesEvent settings draws actor now record →
      db.TakesEvent settings draws actor now record := by
    intro db db' h htakes
    obtain ⟨event, after, hrecord⟩ := htakes
    simp only [recordAuditEvent, lastAuditEvent, Tx.bind_ok, selectFirst_ok, Tx.lift_ok, insertRow_ok, Tx.pure_ok] at hrecord
    obtain ⟨last, db₁, ⟨hlast, rfl⟩, hash, db₂, ⟨hhash, rfl⟩, -, db₃, ⟨A, hA, rfl⟩, rfl, rfl⟩ := hrecord
    unfold TakesEvent
    simp only [recordAuditEvent, lastAuditEvent, Tx.bind_ok, selectFirst_ok, Tx.lift_ok, insertRow_ok, Tx.pure_ok]
    exact ⟨_, _, last, db, ⟨h ▸ hlast, rfl⟩, hash, db, ⟨hhash, rfl⟩, (), _, ⟨A, h ▸ hA, rfl⟩, rfl, rfl⟩
  exact ⟨hmono db db' h, hmono db' db h.symm⟩

/-- A transaction that only records an event before it returns finishes exactly when the trail takes the event. -/
theorem isOk_recording {α : Type} {result : α} (h : db'.auditEvents = db.auditEvents) :
    (((do
      let _ ← recordAuditEvent settings draws (draws.uuid 0) actor record now
      return result) : Session α) db').isOk = true ↔ db.TakesEvent settings draws actor now record := by
  rw [← Db.takesEvent_congr h, Db.TakesEvent]
  cases hrecord : recordAuditEvent settings draws (draws.uuid 0) actor record now db' with
  | error fault =>
    rw [Tx.bind_of_error _ hrecord]
    exact ⟨fun h => absurd h Bool.false_ne_true, fun ⟨_, _, h⟩ => by cases h⟩
  | ok r =>
    rw [Tx.bind_of_ok _ hrecord]
    exact ⟨fun _ => ⟨r.1, r.2, rfl⟩, fun _ => rfl⟩

end TaxStamp
