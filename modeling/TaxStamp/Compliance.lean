import TaxStamp.Json

/-!
# Compliance checks against external registries

Every registry that a product category requires is asked over HTTP and must give an
explicit, well-formed decision. What the network returns is an input of the check.
-/

namespace TaxStamp

/-- What an HTTP exchange with a provider yields; a body that is not JSON has no content. -/
inductive Reply
  | transportError
  | answer (status : ℕ) (content : Option Json)

/-- A client of an external system of record, with the replies of its transport. -/
structure ProviderClient where
  name : String
  configured : Bool
  exchange : String → JsonObject → Reply

namespace ProviderClient

/-- Refuse to answer for a provider that is not configured. -/
def requireConfigured (client : ProviderClient) : Except Fault Unit :=
  if client.configured then .ok ()
  else .error (.domain .capabilityNotConfigured
    (client.name ++ " is not configured; the request is refused instead of returning an unverified result")
    [("provider", client.name)])

/-- Post a document and return the decoded object of a successful answer. -/
def postJson (client : ProviderClient) (path : String) (body : JsonObject) : Except Fault JsonObject := do
  client.requireConfigured
  match client.exchange path body with
  | .transportError => .error (.dependencyUnavailable s!"{client.name} is unreachable")
  | .answer status content =>
    let detail := [("provider", client.name), ("status", toString status)]
    if 500 ≤ status then .error (.dependencyUnavailable s!"{client.name} returned {status}" detail)
    else if 400 ≤ status then
      .error (.dependencyUnavailable s!"{client.name} rejected the request with {status}" detail)
    else
      match content with
      | none => .error (.dependencyUnavailable s!"{client.name} returned malformed JSON")
      | some (.obj fields) => .ok fields
      | some _ => .error (.dependencyUnavailable s!"{client.name} returned a non-object response")

end ProviderClient

/-- The external registries. -/
inductive Registry
  | firs
  | nafdac
  | son
  | customs
  deriving DecidableEq, Repr

/-- The stored text of a registry. -/
def Registry.value : Registry → String
  | firs => "firs"
  | nafdac => "nafdac"
  | son => "son"
  | customs => "customs"

/-- The decision of one registry. -/
structure RegistryDecision where
  registry : Registry
  compliant : Bool
  reference : String
  reason : Option String
  checkedAt : String
  deriving DecidableEq, Repr

/-- The decisions of all required registries. -/
structure ComplianceOutcome where
  compliant : Bool
  decisions : List RegistryDecision
  deriving DecidableEq, Repr

/-- How a decision is kept with the order. -/
def RegistryDecision.asEvidence (decision : RegistryDecision) : Json :=
  .obj [("registry", .str decision.registry.value),
    ("compliant", .bool decision.compliant),
    ("reference", .str decision.reference),
    ("reason", .ofOption decision.reason),
    ("checked_at", .str decision.checkedAt)]

/-- How an outcome is kept with the order. -/
def ComplianceOutcome.asEvidence (outcome : ComplianceOutcome) : Json :=
  .obj [("compliant", .bool outcome.compliant),
    ("decisions", .arr (outcome.decisions.map RegistryDecision.asEvidence))]

/-- The registries that a product category requires. -/
def requiredRegistries : List (String × List Registry) :=
  [("tobacco", [.firs, .son, .customs]),
    ("alcohol", [.firs, .nafdac, .son]),
    ("pharmaceuticals", [.firs, .nafdac]),
    ("beverages", [.firs, .nafdac])]

/-- The registry clients of the platform. -/
structure ComplianceService where
  clients : Registry → ProviderClient

namespace ComplianceService

/-- The registries to ask for a category; every other category needs the tax authority alone. -/
def registriesFor (productCategory : String) : List Registry :=
  (requiredRegistries.lookup productCategory).getD [.firs]

/-- Ask one registry. -/
def askRegistry (service : ComplianceService) (tin productCategory : String) (quantity : ℤ)
    (registry : Registry) : Except Fault RegistryDecision := do
  let client := service.clients registry
  client.requireConfigured
  let response ← client.postJson "/v1/compliance-checks"
    [("tin", .str tin), ("product_category", .str productCategory), ("quantity", .int quantity)]
  let compliant ← requireBool response "compliant"
  let reference ← requireStr response "reference"
  let reason ← optionalStr response "reason"
  let checkedAt ← requireStr response "checked_at"
  return ⟨registry, compliant, reference, reason, checkedAt⟩

/-- Ask every required registry in turn. -/
def askRegistries (service : ComplianceService) (tin productCategory : String) (quantity : ℤ) :
    List Registry → Except Fault (List RegistryDecision)
  | [] => .ok []
  | registry :: rest => do
    let decision ← service.askRegistry tin productCategory quantity registry
    let decisions ← askRegistries service tin productCategory quantity rest
    return decision :: decisions

/-- The outcome is compliant when every required registry decided so. -/
def check (service : ComplianceService) (tin productCategory : String) (quantity : ℤ) :
    Except Fault ComplianceOutcome := do
  let decisions ← service.askRegistries tin productCategory quantity (registriesFor productCategory)
  return ⟨decisions.all RegistryDecision.compliant, decisions⟩

/-- A registry's decision names the registry that was asked. -/
theorem askRegistry_ok {service : ComplianceService} {tin productCategory : String} {quantity : ℤ}
    {registry : Registry} {decision : RegistryDecision}
    (h : service.askRegistry tin productCategory quantity registry = .ok decision) :
    decision.registry = registry := by
  simp only [askRegistry, Except.bind_ok] at h
  obtain ⟨-, -, response, -, compliant, -, reference, -, reason, -, checkedAt, -, hdecision⟩ := h
  injection hdecision with hdecision
  rw [← hdecision]

/-- Asking registries yields one decision per registry, in their order. -/
theorem askRegistries_ok {service : ComplianceService} {tin productCategory : String} {quantity : ℤ}
    {registries : List Registry} {decisions : List RegistryDecision}
    (h : service.askRegistries tin productCategory quantity registries = .ok decisions) :
    decisions.map RegistryDecision.registry = registries := by
  induction registries generalizing decisions with
  | nil =>
    injection h with h
    rw [← h]
    rfl
  | cons registry rest ih =>
    simp only [askRegistries, Except.bind_ok] at h
    obtain ⟨decision, hdecision, decisions', hrest, heq⟩ := h
    injection heq with heq
    rw [← heq, List.map_cons, askRegistry_ok hdecision, ih hrest]

/-- A check asks exactly the required registries and is compliant when all of them are. -/
theorem check_ok {service : ComplianceService} {tin productCategory : String} {quantity : ℤ}
    {outcome : ComplianceOutcome} (h : service.check tin productCategory quantity = .ok outcome) :
    outcome.decisions.map RegistryDecision.registry = registriesFor productCategory ∧
      outcome.compliant = outcome.decisions.all RegistryDecision.compliant := by
  simp only [check, Except.bind_ok] at h
  obtain ⟨decisions, hdecisions, houtcome⟩ := h
  injection houtcome with houtcome
  rw [← houtcome]
  exact ⟨askRegistries_ok hdecisions, rfl⟩

end ComplianceService

end TaxStamp
