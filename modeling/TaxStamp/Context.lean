import TaxStamp.Audit

/-!
# The acting principal

The authenticated principal a service call is made for, with the checks the services make
on its role and company.
-/

namespace TaxStamp

open Lib

/-- The principal behind a service call. -/
structure Actor where
  principalId : Uuid
  subject : String
  role : Role
  companyId : Option Uuid
  requestId : Option String := none
  deriving DecidableEq, Repr

namespace Actor

/-- How the actor appears in the audit trail. -/
def auditActor (actor : Actor) : AuditActor where
  principalId := some actor.principalId
  subject := actor.subject
  role := actor.role.value
  companyId := actor.companyId

/-- Refuse an actor whose role is not listed. -/
def requireRole (actor : Actor) (roles : List Role) : Session Unit :=
  Tx.require (actor.role ∈ roles)
    (.forbidden s!"role {actor.role.value} may not perform this action"
      [("required", ",".intercalate (roles.map Role.value))])

/-- Refuse an actor of another company; only administrators act across companies. -/
def requireCompany (actor : Actor) (companyId : Uuid) : Session Unit :=
  Tx.require (actor.role = .admin ∨ actor.companyId = some companyId)
    (.forbidden "resource belongs to another company")

/-- A role check passes exactly for the listed roles, without touching the state. -/
@[simp] theorem requireRole_ok {actor : Actor} {roles : List Role} {u : Unit} {db db' : Db} :
    actor.requireRole roles db = .ok (u, db') ↔ actor.role ∈ roles ∧ db = db' := by
  simp only [requireRole, Tx.require_ok]

/-- A company check passes exactly for administrators and the company's own principals. -/
@[simp] theorem requireCompany_ok {actor : Actor} {companyId : Uuid} {u : Unit} {db db' : Db} :
    actor.requireCompany companyId db = .ok (u, db') ↔
      (actor.role = .admin ∨ actor.companyId = some companyId) ∧ db = db' := by
  simp only [requireCompany, Tx.require_ok]

end Actor

end TaxStamp
