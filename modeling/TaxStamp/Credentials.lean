import TaxStamp.Authenticity
import TaxStamp.Lib.Accepts
import TaxStamp.Tariffs

/-!
# Who a credential speaks for

The operator issues bearer tokens from the command line. The first token for a subject
registers it as a principal with its role and company; later ones are for the principal
that is there, whatever else they ask for. Only a keyed hash of a token is stored, and a
request is authenticated by looking up the hash of the token in its header.

So the tables amount to a roll of the calls that succeeded: a request is let in exactly
when its header carries a token on the roll, and it speaks for whoever was registered
first under the subject of that token.
-/

namespace TaxStamp

open Lib

/-! ### The tables -/

/-- An authenticated actor: a staff user, a company user, or a field device. -/
structure Principal where
  id : Uuid
  subject : String
  role : Role
  companyId : Option Uuid
  displayName : String
  active : Bool
  deriving DecidableEq, Repr

/-- The constraints of `principals`. -/
def principalSchema : Schema Principal where
  fits p := varchar 128 p.subject && varchar 255 p.displayName
  check p := p.role ≠ .requester || p.companyId.isSome
  clash a b := a.id = b.id ∨ a.subject = b.subject
  clash_comm a b := by simp only [eq_comm]

/-- A bearer credential; only a keyed hash of the token is stored. -/
structure Credential where
  id : Uuid
  principalId : Uuid
  tokenHash : String
  label : String
  expiresAt : Option Time
  revokedAt : Option Time
  lastUsedAt : Option Time
  deriving DecidableEq, Repr

/-- The constraints of `credentials`. -/
def credentialSchema : Schema Credential where
  fits c := varchar 64 c.tokenHash && varchar 128 c.label
  check _ := true
  clash a b := a.id = b.id ∨ a.tokenHash = b.tokenHash
  clash_comm a b := by simp only [eq_comm]

/-- The platform with its principals and their credentials. -/
structure Access where
  platform : Platform
  principals : Table principalSchema
  credentials : Table credentialSchema

/-- Nobody has access yet. -/
def Access.initial (platform : Platform) : Access := ⟨platform, .empty _, .empty _⟩

/-- Access to `principals`. -/
@[simp, reducible] def Tables.principals : Field Access (Table principalSchema) :=
  ⟨Access.principals, fun t a => { a with principals := t }⟩

/-- Access to `credentials`. -/
@[simp, reducible] def Tables.credentials : Field Access (Table credentialSchema) :=
  ⟨Access.credentials, fun t a => { a with credentials := t }⟩

/-! ### Issuing and presenting tokens -/

/-- The keyed hash of a token. -/
def hashToken (crypto : Crypto) (token secret : String) : String :=
  hexText (crypto.hmacSha256 (utf8 secret) (utf8 token))

/-- The arguments of `create-principal`, with the identifiers and the token that it draws. -/
structure CreatePrincipalCommand where
  subject : String
  role : Role
  companyId : Option Uuid
  displayName : String
  label : String
  principalId : Uuid
  credentialId : Uuid
  token : String
  deriving DecidableEq

/-- The principal that a call registers. -/
def CreatePrincipalCommand.principal (command : CreatePrincipalCommand) : Principal :=
  ⟨command.principalId, command.subject, command.role, command.companyId, command.displayName, true⟩

/-- The credential that a call issues. -/
def CreatePrincipalCommand.credential (command : CreatePrincipalCommand) (crypto : Crypto) (apiTokenSecret : String)
    (principal : Principal) : Credential :=
  ⟨command.credentialId, principal.id, hashToken crypto command.token apiTokenSecret, command.label, none, none, none⟩

/-- Register a new principal; its company must be on record. -/
def registerPrincipal (command : CreatePrincipalCommand) : Tx Access Fault Principal := do
  insertRow Tables.principals Fault.ofRejection command.principal
  let companies ← Tx.read fun a => a.platform.db.companies.rows
  Tx.require (∀ id ∈ command.companyId, ∃ c ∈ companies, c.id = id) .integrityError
  return command.principal

/-- Issue a credential for a subject, registering it when it is new. -/
def createPrincipal (crypto : Crypto) (apiTokenSecret : String) (command : CreatePrincipalCommand) :
    Tx Access Fault Principal := do
  let existing ← selectOne Tables.principals .multipleResultsFound fun p => p.subject = command.subject
  let principal ← match existing with
    | some principal => pure principal
    | none => registerPrincipal command
  insertRow Tables.credentials Fault.ofRejection (command.credential crypto apiTokenSecret principal)
  return principal

/-- The token of an `Authorization` header; the scheme is case-insensitive, and its first space ends it. -/
def parseBearer (authorization : Option String) : Except Fault String :=
  match authorization with
  | none => .error (.unauthenticated "a bearer credential is required")
  | some text =>
    let token := strip (text.toList.drop 7)
    if (text.toList.take 7).map Char.toLower = "bearer ".toList ∧ token ≠ [] then .ok (String.ofList token)
    else .error (.unauthenticated "a bearer credential is required")

/-- Who a request speaks for; the use of the credential is recorded. -/
def Access.authenticate (crypto : Crypto) (apiTokenSecret : String) (authorization : Option String) (requestId : String)
    (now : Time) : Tx Access Fault Actor := do
  let token ← Tx.lift (parseBearer authorization)
  let tokenHash := hashToken crypto token apiTokenSecret
  let found ← selectOne Tables.credentials .multipleResultsFound fun c => c.tokenHash = tokenHash
  let credential ← Tx.orRefuse found (.unauthenticated "credential is not recognised")
  Tx.require (credential.revokedAt = none) (.unauthenticated "credential has been revoked")
  Tx.require (∀ expiry ∈ credential.expiresAt, now < expiry) (.unauthenticated "credential has expired")
  let owner ← selectOne Tables.principals .multipleResultsFound fun p => p.id = credential.principalId
  let principal ← Tx.orRefuse owner .noResultFound
  Tx.require (principal.active = true) (.unauthenticated "principal is disabled")
  updateRows Tables.credentials Fault.ofRejection (fun c => c.id = credential.id) fun c => { c with lastUsedAt := some now }
  return ⟨principal.id, principal.subject, principal.role, principal.companyId, some requestId⟩

/-- What happens to the tables of access: work on the rest of the platform, a token issued, a request presented. -/
inductive AccessEvent
  | admin (e : AdminEvent)
  | createPrincipal (command : CreatePrincipalCommand)
  | authenticate (authorization : Option String) (requestId : String) (now : Time)

/-- The tables after an event. -/
def accessStep (settings : Settings) (apiTokenSecret : String) (a : Access) : AccessEvent → Access
  | .admin e => { a with platform := adminStep settings a.platform e }
  | .createPrincipal command => (createPrincipal settings.crypto apiTokenSecret command).commit a
  | .authenticate authorization requestId now =>
    (Access.authenticate settings.crypto apiTokenSecret authorization requestId now).commit a

/-! ### The roll -/

/-- The calls of an event that succeed. -/
def issuedBy (crypto : Crypto) (apiTokenSecret : String) (a : Access) : AccessEvent → List CreatePrincipalCommand
  | .createPrincipal command =>
    match createPrincipal crypto apiTokenSecret command a with
    | .ok _ => [command]
    | .error _ => []
  | _ => []

/-- The calls of a run that succeeded, in order. -/
def roll (settings : Settings) (apiTokenSecret : String) (a : Access) : List AccessEvent → List CreatePrincipalCommand
  | [] => []
  | e :: rest =>
    issuedBy settings.crypto apiTokenSecret a e ++ roll settings apiTokenSecret (accessStep settings apiTokenSecret a e) rest

/-- The call that registered a subject. -/
def registrar (issued : List CreatePrincipalCommand) (subject : String) : Option CreatePrincipalCommand :=
  issued.find? fun command => command.subject = subject

variable {settings : Settings} {apiTokenSecret : String}

/-- The last event of a run adds the calls that succeed in it. -/
theorem roll_concat (a : Access) (events : List AccessEvent) (e : AccessEvent) :
    roll settings apiTokenSecret a (events ++ [e]) = roll settings apiTokenSecret a events ++
      issuedBy settings.crypto apiTokenSecret (run (accessStep settings apiTokenSecret) a events) e := by
  induction events generalizing a with
  | nil => simp only [List.nil_append, roll, List.append_nil, run, List.foldl_nil]
  | cons first rest ih =>
    rw [List.cons_append, roll, ih, roll, List.append_assoc]
    rfl

/-- A subject that has been registered keeps its registrar. -/
theorem registrar_append {issued : List CreatePrincipalCommand} {subject : String} {first : CreatePrincipalCommand}
    (h : registrar issued subject = some first) (more : List CreatePrincipalCommand) :
    registrar (issued ++ more) subject = some first := by
  unfold registrar at h ⊢
  rw [List.find?_append, h, Option.some_or]

/-- A new subject is registered by the call that comes next. -/
theorem registrar_concat {issued : List CreatePrincipalCommand} {command : CreatePrincipalCommand}
    (h : registrar issued command.subject = none) : registrar (issued ++ [command]) command.subject = some command := by
  unfold registrar at h ⊢
  rw [List.find?_append, h, Option.none_or, List.find?_cons_of_pos (by simp)]

/-- Every other registrar was there before. -/
theorem registrar_cases {issued : List CreatePrincipalCommand} {command first : CreatePrincipalCommand} {subject : String}
    (h : registrar (issued ++ [command]) subject = some first) :
    registrar issued subject = some first ∨ registrar issued subject = none ∧ first = command := by
  unfold registrar at h ⊢
  cases hold : issued.find? fun command => decide (command.subject = subject) with
  | some other =>
    rw [List.find?_append, hold, Option.some_or] at h
    exact .inl h
  | none =>
    rw [List.find?_append, hold, Option.none_or] at h
    exact .inr ⟨rfl, List.mem_singleton.mp (List.mem_of_find?_eq_some h)⟩

/-- A registrar registers its own subject. -/
theorem subject_of_registrar {issued : List CreatePrincipalCommand} {subject : String} {first : CreatePrincipalCommand}
    (h : registrar issued subject = some first) : first.subject = subject := by
  simpa using List.find?_some h

/-! ### What the calls do -/

/-- A call that succeeds appends the credential of the principal of its subject, which it registers when it is new. -/
theorem createPrincipal_ok {crypto : Crypto} {command : CreatePrincipalCommand} {principal : Principal} {a a' : Access}
    (h : createPrincipal crypto apiTokenSecret command a = .ok (principal, a')) :
    ∃ (P : Table principalSchema) (C : Table credentialSchema),
      C.rows = a.credentials.rows ++ [command.credential crypto apiTokenSecret principal] ∧
      a' = { a with principals := P, credentials := C } ∧
      ((principal ∈ a.principals.rows ∧ principal.subject = command.subject ∧ P = a.principals) ∨
        ((∀ p ∈ a.principals.rows, p.subject ≠ command.subject) ∧ principal = command.principal ∧
          P.rows = a.principals.rows ++ [command.principal])) := by
  simp only [createPrincipal, Tx.bind_ok] at h
  obtain ⟨existing, a₁, hexisting, h⟩ := h
  cases existing with
  | some p =>
    obtain ⟨hfilter, rfl⟩ := selectOne_some.mp hexisting
    obtain ⟨hmem, hsubject⟩ := mem_of_filter_eq_singleton hfilter
    simp only [Tx.bind_ok, insertRow_ok, Tx.pure_ok] at h
    obtain ⟨found, a₂, ⟨rfl, rfl⟩, -, a₃, ⟨C, hC, rfl⟩, rfl, rfl⟩ := h
    exact ⟨a.principals, C, hC, rfl, .inl ⟨hmem, of_decide_eq_true hsubject, rfl⟩⟩
  | none =>
    obtain ⟨hfilter, rfl⟩ := selectOne_none.mp hexisting
    simp only [registerPrincipal, Tx.bind_ok, insertRow_ok, Tx.read_ok, Tx.require_ok, Tx.pure_ok] at h
    obtain ⟨found, a₂, ⟨-, a₃, ⟨P, hP, rfl⟩, companies, a₄, ⟨-, rfl⟩, -, a₅, ⟨-, rfl⟩, rfl, rfl⟩, -, a₆, ⟨C, hC, rfl⟩,
      rfl, rfl⟩ := h
    refine ⟨P, C, hC, rfl, .inr ⟨fun p hp => ?_, rfl, hP⟩⟩
    simpa using List.filter_eq_nil_iff.mp hfilter p hp

/-- A request that is let in carries a token with a credential and speaks for the principal of that credential. -/
theorem authenticate_ok {crypto : Crypto} {authorization : Option String} {requestId : String} {now : Time}
    {actor : Actor} {a a' : Access} (h : Access.authenticate crypto apiTokenSecret authorization requestId now a = .ok (actor, a')) :
    ∃ token, ∃ c ∈ a.credentials.rows, ∃ p ∈ a.principals.rows, ∃ C : Table credentialSchema,
      parseBearer authorization = .ok token ∧ c.tokenHash = hashToken crypto token apiTokenSecret ∧
      p.id = c.principalId ∧ actor = ⟨p.id, p.subject, p.role, p.companyId, some requestId⟩ ∧
      (C.rows = a.credentials.rows.map fun r => if r.id = c.id then { r with lastUsedAt := some now } else r) ∧
      a' = { a with credentials := C } := by
  simp only [Access.authenticate, Tx.bind_ok, Tx.lift_ok, Tx.orRefuse_ok, Tx.require_ok, updateRows_ok, Tx.pure_ok] at h
  obtain ⟨token, a₁, ⟨htoken, rfl⟩, found, a₂, hfound, c, a₃, ⟨rfl, rfl⟩, -, a₄, ⟨-, rfl⟩, -, a₅, ⟨-, rfl⟩, owner, a₆,
    howner, p, a₇, ⟨rfl, rfl⟩, -, a₈, ⟨-, rfl⟩, -, a₉, ⟨C, hC, rfl⟩, rfl, rfl⟩ := h
  obtain ⟨hfilter, rfl⟩ := selectOne_some.mp hfound
  obtain ⟨hfilter', rfl⟩ := selectOne_some.mp howner
  obtain ⟨hc, hhash⟩ := mem_of_filter_eq_singleton hfilter
  obtain ⟨hp, hid⟩ := mem_of_filter_eq_singleton hfilter'
  simp only [decide_eq_true_eq] at hC
  exact ⟨token, c, hc, p, hp, C, htoken, of_decide_eq_true hhash, of_decide_eq_true hid, rfl, hC, rfl⟩

/-- A token with a credential that is neither revoked nor due to expire lets its active principal in. -/
theorem authenticate_of_credential {crypto : Crypto} {authorization : Option String} {requestId : String} {now : Time}
    {token : String} {a : Access} {c : Credential} {p : Principal} (htoken : parseBearer authorization = .ok token)
    (hc : c ∈ a.credentials.rows) (hhash : c.tokenHash = hashToken crypto token apiTokenSecret)
    (hrevoked : c.revokedAt = none) (hexpires : c.expiresAt = none) (hp : p ∈ a.principals.rows)
    (hid : p.id = c.principalId) (hactive : p.active = true) :
    ∃ a', Access.authenticate crypto apiTokenSecret authorization requestId now a =
      .ok (⟨p.id, p.subject, p.role, p.companyId, some requestId⟩, a') := by
  have hfilter : a.credentials.rows.filter (fun r => decide (r.tokenHash = hashToken crypto token apiTokenSecret)) = [c] := by
    apply Table.filter_eq_singleton a.credentials hc (by simpa using hhash)
    intro r hr hsame
    simp only [credentialSchema, decide_eq_true_eq] at hsame ⊢
    exact .inr (hsame.trans hhash.symm)
  have hfilter' : a.principals.rows.filter (fun r => decide (r.id = c.principalId)) = [p] := by
    apply Table.filter_eq_singleton a.principals hp (by simpa using hid)
    intro r hr hsame
    simp only [principalSchema, decide_eq_true_eq] at hsame ⊢
    exact .inl (hsame.trans hid.symm)
  obtain ⟨C, hC⟩ : ∃ C : Table credentialSchema,
      C.rows = a.credentials.rows.map fun r => if r.id = c.id then { r with lastUsedAt := some now } else r := by
    apply Table.exists_map
    · intro r hr
      split <;> rfl
    · intro r hr
      rfl
    · intro r r'
      split <;> split <;> rfl
  refine ⟨{ a with credentials := C }, ?_⟩
  simp only [Access.authenticate, Tx.bind_ok, Tx.lift_ok, Tx.orRefuse_ok, Tx.require_ok, updateRows_ok, Tx.pure_ok]
  refine ⟨token, a, ⟨htoken, rfl⟩, some c, a, selectOne_some.mpr ⟨hfilter, rfl⟩, c, a, ⟨rfl, rfl⟩, (), a, ⟨hrevoked, rfl⟩, (), a,
    ⟨by simp [hexpires], rfl⟩, some p, a, selectOne_some.mpr ⟨hfilter', rfl⟩, p, a, ⟨rfl, rfl⟩, (), a, ⟨hactive, rfl⟩, (),
    { a with credentials := C }, ⟨C, ?_, rfl⟩, rfl, rfl⟩
  simp only [decide_eq_true_eq]
  exact hC

/-! ### The tables follow the roll -/

/-- The tables hold what the roll says: a principal for each registrar, and a valid credential for each call, of the principal
registered under its subject. -/
structure Access.Follows (crypto : Crypto) (apiTokenSecret : String) (issued : List CreatePrincipalCommand) (a : Access) :
    Prop where
  principals : ∀ p, p ∈ a.principals.rows ↔ ∃ subject first, registrar issued subject = some first ∧ p = first.principal
  credentials : ∀ c ∈ a.credentials.rows, c.revokedAt = none ∧ c.expiresAt = none ∧ ∃ command ∈ issued, ∃ first,
    registrar issued command.subject = some first ∧ c.tokenHash = hashToken crypto command.token apiTokenSecret ∧
    c.principalId = first.principalId
  issued : ∀ command ∈ issued, ∃ c ∈ a.credentials.rows, ∃ first, registrar issued command.subject = some first ∧
    c.tokenHash = hashToken crypto command.token apiTokenSecret ∧ c.principalId = first.principalId

variable {crypto : Crypto} {issued : List CreatePrincipalCommand} {a a' : Access}

/-- A call that succeeds goes on the roll. -/
theorem Access.Follows.issue {command : CreatePrincipalCommand} {principal : Principal}
    (h : a.Follows crypto apiTokenSecret issued)
    (hok : createPrincipal crypto apiTokenSecret command a = .ok (principal, a')) :
    a'.Follows crypto apiTokenSecret (issued ++ [command]) := by
  obtain ⟨P, C, hC, rfl, hcase⟩ := createPrincipal_ok hok
  have hregistrar : ∃ first, registrar (issued ++ [command]) command.subject = some first ∧ principal = first.principal := by
    obtain ⟨hmem, hsubject, -⟩ | ⟨hnone, rfl, -⟩ := hcase
    · obtain ⟨subject, first, hfirst, rfl⟩ := (h.principals principal).mp hmem
      have hsame : subject = command.subject := (subject_of_registrar hfirst).symm.trans hsubject
      exact ⟨first, registrar_append (hsame ▸ hfirst) _, rfl⟩
    · refine ⟨command, registrar_concat ?_, rfl⟩
      cases hfirst : registrar issued command.subject with
      | none => rfl
      | some first =>
        exact absurd (subject_of_registrar hfirst) (hnone _ ((h.principals _).mpr ⟨_, first, hfirst, rfl⟩))
  have hprincipals : ∀ p, p ∈ P.rows ↔ ∃ subject first,
      registrar (issued ++ [command]) subject = some first ∧ p = first.principal := by
    intro p
    constructor
    · intro hp
      have hold : p ∈ a.principals.rows ∨ p = principal := by
        obtain ⟨-, -, rfl⟩ | ⟨-, rfl, hP⟩ := hcase
        · exact .inl hp
        · rwa [hP, List.mem_append, List.mem_singleton] at hp
      obtain hold | rfl := hold
      · obtain ⟨subject, first, hfirst, hp⟩ := (h.principals p).mp hold
        exact ⟨subject, first, registrar_append hfirst _, hp⟩
      · obtain ⟨first, hfirst, hp⟩ := hregistrar
        exact ⟨command.subject, first, hfirst, hp⟩
    · intro ⟨subject, first, hfirst, hp⟩
      obtain ⟨hmem, -, rfl⟩ | ⟨-, -, hP⟩ := hcase
      · obtain hold | ⟨hnone, rfl⟩ := registrar_cases hfirst
        · exact (h.principals p).mpr ⟨subject, first, hold, hp⟩
        · obtain ⟨first', hfirst', hprincipal⟩ := hregistrar
          rw [← subject_of_registrar hfirst, hfirst'] at hfirst
          cases hfirst
          rw [hp, ← hprincipal]
          exact hmem
      · rw [hP, List.mem_append, List.mem_singleton]
        obtain hold | ⟨hnone, rfl⟩ := registrar_cases hfirst
        · exact .inl ((h.principals p).mpr ⟨subject, first, hold, hp⟩)
        · exact .inr hp
  obtain ⟨first, hfirst, hprincipal⟩ := hregistrar
  refine ⟨hprincipals, fun c hc => ?_, fun other hother => ?_⟩
  · change c ∈ C.rows at hc
    rw [hC, List.mem_append, List.mem_singleton] at hc
    obtain hold | rfl := hc
    · obtain ⟨hrevoked, hexpires, other, hother, first', hfirst', hfields⟩ := h.credentials c hold
      exact ⟨hrevoked, hexpires, other, List.mem_append_left _ hother, first', registrar_append hfirst' _, hfields⟩
    · exact ⟨rfl, rfl, command, List.mem_append_right _ (List.mem_singleton.mpr rfl), first, hfirst, rfl,
        congrArg Principal.id hprincipal⟩
  · change ∃ c ∈ C.rows, _
    rw [hC]
    obtain hold | hnew := List.mem_append.mp hother
    · obtain ⟨c, hc, first', hfirst', hfields⟩ := h.issued other hold
      exact ⟨c, List.mem_append_left _ hc, first', registrar_append hfirst' _, hfields⟩
    · obtain rfl := List.mem_singleton.mp hnew
      exact ⟨_, List.mem_append_right _ (List.mem_singleton.mpr rfl), first, hfirst, rfl, congrArg Principal.id hprincipal⟩

/-- Recording the use of a credential changes nothing that the roll says. -/
theorem Access.Follows.use (h : a.Follows crypto apiTokenSecret issued) {id : Uuid} {now : Time} {C : Table credentialSchema}
    (hC : C.rows = a.credentials.rows.map fun r => if r.id = id then { r with lastUsedAt := some now } else r) :
    Access.Follows crypto apiTokenSecret issued { a with credentials := C } := by
  refine ⟨h.principals, fun c hc => ?_, fun command hcommand => ?_⟩
  · change c ∈ C.rows at hc
    rw [hC] at hc
    obtain ⟨old, hold, rfl⟩ := List.mem_map.mp hc
    have hfields := h.credentials old hold
    split <;> exact hfields
  · obtain ⟨c, hc, first, hfirst, hfields⟩ := h.issued command hcommand
    change ∃ c ∈ C.rows, _
    rw [hC]
    refine ⟨_, List.mem_map_of_mem hc, first, hfirst, ?_⟩
    split <;> exact hfields

/-- Every event keeps the tables in step with the roll. -/
theorem Access.Follows.step (h : a.Follows settings.crypto apiTokenSecret issued) (e : AccessEvent) :
    (accessStep settings apiTokenSecret a e).Follows settings.crypto apiTokenSecret
      (issued ++ issuedBy settings.crypto apiTokenSecret a e) := by
  cases e with
  | admin e =>
    change Access.Follows _ _ (issued ++ []) _
    rw [List.append_nil]
    exact ⟨h.principals, h.credentials, h.issued⟩
  | createPrincipal command =>
    cases hok : createPrincipal settings.crypto apiTokenSecret command a with
    | error fault =>
      simp only [issuedBy, accessStep, Tx.commit, hok, List.append_nil]
      exact h
    | ok result =>
      simp only [issuedBy, accessStep, Tx.commit, hok]
      exact h.issue hok
  | authenticate authorization requestId now =>
    change Access.Follows _ _ (issued ++ []) _
    rw [List.append_nil]
    apply Tx.commit_induction (Access.Follows settings.crypto apiTokenSecret issued) h
    intro actor a' hok
    obtain ⟨token, c, -, p, -, C, -, -, -, -, hC, rfl⟩ := authenticate_ok hok
    exact h.use hC

/-- The tables follow the roll of every run. -/
theorem Access.Follows.run (settings : Settings) (apiTokenSecret : String) (platform : Platform) (events : List AccessEvent) :
    (Lib.run (accessStep settings apiTokenSecret) (.initial platform) events).Follows settings.crypto apiTokenSecret
      (roll settings apiTokenSecret (.initial platform) events) := by
  apply run_history (fun past (a : Access) =>
    a.Follows settings.crypto apiTokenSecret (roll settings apiTokenSecret (.initial platform) past))
  · refine ⟨fun p => ⟨fun hp => absurd hp List.not_mem_nil, ?_⟩, fun c hc => absurd hc List.not_mem_nil,
      fun command hcommand => absurd hcommand List.not_mem_nil⟩
    intro ⟨subject, first, hfirst, _⟩
    cases hfirst
  · intro past e h
    rw [roll_concat]
    exact h.step e

/-- A request speaks for whoever was registered for its token. Assume that the keyed hash is injective under the token
secret. In every run of the platform, the operator's commands and requests, a request is let in exactly when its header
carries the token of a call that succeeded, and it then speaks for the principal of the call that first succeeded for
that subject: later calls for the subject change neither its role nor its company, and nobody else is let in. -/
theorem authenticate_iff_issued (settings : Settings) (apiTokenSecret : String)
    (hinjective : Function.Injective (settings.crypto.hmacSha256 (utf8 apiTokenSecret))) (platform : Platform)
    (events : List AccessEvent) (authorization : Option String) (requestId : String) (now : Time) (actor : Actor) :
    (∃ a, Access.authenticate settings.crypto apiTokenSecret authorization requestId now
        (run (accessStep settings apiTokenSecret) (.initial platform) events) = .ok (actor, a)) ↔
      ∃ command ∈ roll settings apiTokenSecret (.initial platform) events, ∃ first,
        registrar (roll settings apiTokenSecret (.initial platform) events) command.subject = some first ∧
        parseBearer authorization = .ok command.token ∧
        actor = ⟨first.principalId, first.subject, first.role, first.companyId, some requestId⟩ := by
  have hfollows := Access.Follows.run settings apiTokenSecret platform events
  generalize roll settings apiTokenSecret (.initial platform) events = issued at hfollows ⊢
  generalize run (accessStep settings apiTokenSecret) (.initial platform) events = a at hfollows ⊢
  have howner : ∀ {p first}, p ∈ a.principals.rows → registrar issued first.subject = some first →
      p.id = first.principalId → p = first.principal := fun hp hfirst hid =>
    a.principals.eq_of_clash hp ((hfollows.principals _).mpr ⟨_, _, hfirst, rfl⟩) (decide_eq_true (.inl hid))
  constructor
  · intro ⟨a', hok⟩
    obtain ⟨token, c, hc, p, hp, C, htoken, hhash, hid, rfl, -⟩ := authenticate_ok hok
    obtain ⟨-, -, command, hcommand, first, hfirst, hcommandHash, hfirstId⟩ := hfollows.credentials c hc
    have hsame : command.token = token :=
      utf8_injective (hinjective (hexText_injective (hcommandHash.symm.trans hhash)))
    have hself := hfirst
    rw [← subject_of_registrar hfirst] at hself
    obtain rfl := howner hp hself (hid.trans hfirstId)
    exact ⟨command, hcommand, first, hfirst, hsame ▸ htoken, rfl⟩
  · intro ⟨command, hcommand, first, hfirst, htoken, hactor⟩
    obtain ⟨c, hc, first', hfirst', hhash, hid⟩ := hfollows.issued command hcommand
    obtain ⟨hrevoked, hexpires, -⟩ := hfollows.credentials c hc
    rw [hfirst] at hfirst'
    cases hfirst'
    rw [hactor]
    exact authenticate_of_credential htoken hc hhash hrevoked hexpires
      ((hfollows.principals first.principal).mpr ⟨_, first, hfirst, rfl⟩) hid.symm rfl

/-- An analyst is registered, and a second token for the subject asks for another role. -/
def sampleTokens : List CreatePrincipalCommand :=
  [⟨"ana", .analyst, none, "Ana", "cli", ⟨1⟩, ⟨2⟩, "T1"⟩, ⟨"ana", .admin, none, "Ana", "cli", ⟨3⟩, ⟨4⟩, "T2"⟩]

/-- Both calls succeed, and the second token still speaks for an analyst. -/
theorem authenticate_iff_issued_sample :
    ∃ a, Access.authenticate authenticSettings.crypto "device" (some "bearer T2") "r" sampleNow
      (run (accessStep authenticSettings "device") (.initial samplePlatform) (sampleTokens.map .createPrincipal)) =
        .ok (⟨⟨1⟩, "ana", .analyst, none, some "r"⟩, a) := by
  have hroll : roll authenticSettings "device" (.initial samplePlatform) (sampleTokens.map .createPrincipal) = sampleTokens := by
    decide +kernel
  apply (authenticate_iff_issued authenticSettings "device" authenticSettings_injective samplePlatform _ _ _ _ _).mpr
  rw [hroll]
  exact ⟨_, List.mem_cons_of_mem _ List.mem_cons_self, _, rfl, by decide, rfl⟩

end TaxStamp
