import TaxStamp.Attestation
import TaxStamp.Serials

/-!
# Checking storage-encryption evidence

The checker compares an environment with an attestation in two passes, of which the strict one asks for more fields.
It attests what the converter accepts except where a timestamp holds a placeholder word: only the checker looks for one
there.
-/

namespace TaxStamp.StorageEncryption

/-! ### The checker -/

/-- The variables of an environment file. -/
abbrev Env := List (String × String)

/-- The value of a variable, if it is set. -/
def Env.get (env : Env) (name : String) : Option String := (env.find? fun entry => entry.1 = name).map Prod.snd

/-- The value of a variable; an absent one is empty. -/
def Env.getText (env : Env) (name : String) : String := (env.get name).getD ""

/-- The text `true` in any case. -/
def isTrueText (text : String) : Bool := text.toList.map Char.toLower = "true".toList

/-- A nonempty text of decimal digits. -/
def isDecimalText (text : String) : Bool := !text.toList.isEmpty && text.toList.all fun c => (digitValue? c).isSome

/-- The integer of a text of decimal digits; long ones are not read. -/
def intOfText (text : String) : Except Fault ℕ :=
  if text.length ≤ 4300 then .ok (digitsValue text.toList)
  else .error (.valueError "Exceeds the limit (4300 digits) for integer string conversion")

/-- A strict finding: the field and what it must be. -/
structure Finding where
  field : String
  reason : String
  deriving DecidableEq

/-- A strict finding when a check fails. -/
def require (place : String) (check : String × Bool × String) : List Finding :=
  if check.2.1 then [] else [⟨place ++ check.1, check.2.2⟩]

/-- The findings of a list of checks. -/
def strictFindings (place : String) (checks : List (String × Bool × String)) : List Finding :=
  checks.flatMap (require place)

/-- What the checker reports about an asset. -/
structure AssetResult where
  asset : String
  status : String
  findings : List String
  strictProductionFindings : List Finding

/-- What the checker reports. -/
structure Assessment where
  schema : String
  overallStatus : String
  verificationScope : String
  mode : String
  globalFindings : List String
  strictProductionFindings : List Finding
  assets : List AssetResult
  requiredAssets : List String
  liveProviderVerified : Bool

section Checker

variable (urlparse : String → Except Fault ParseResult)

/-- The result for one required asset. -/
def assessAsset (asset configuredKey : String) (attestation : Record) (strictProduction : Bool) :
    Except Fault AssetResult :=
  let record := (attestation.field "assets").asMapping.bind fun assets => (assets.field asset).asMapping
  match record with
  | none =>
    .ok ⟨asset, "not_verified", ["Missing asset encryption attestation."],
      if strictProduction then [⟨"assets." ++ asset, "required attestation object is absent"⟩] else []⟩
  | some record => do
    let encrypted := (record.field "encryption_at_rest").isTrue
    let backedUp := (record.field "backup_encryption").isTrue
    let supportedScope ← (record.field "storage_scope").isOneOf storageScopes
    let sameKey := (record.field "key_reference").same (.text configuredKey)
    let evidence ← isEvidenceUri urlparse (record.field "evidence_uri")
    let findings :=
      expect encrypted "encryption_at_rest is not affirmed." ++
      expect backedUp "backup_encryption is not affirmed." ++
      expect supportedScope "storage_scope must identify a managed encrypted service or host-encrypted volume." ++
      expect sameKey "Asset key reference does not match configured KMS/HSM key reference." ++
      expect evidence "Asset evidence_uri is missing, unsafe, or placeholder text." ++
      expect (isNonPlaceholder (record.field "verified_at")) "verified_at is missing or placeholder text."
    let strict ←
      if strictProduction then do
        let restored ← isEvidenceUri urlparse (record.field "backup_restore_evidence_uri")
        let deleted ← isEvidenceUri urlparse (record.field "retention_deletion_evidence_uri")
        pure (strictFindings ("assets." ++ asset ++ ".")
          [("encryption_at_rest", encrypted, "must be true"),
            ("backup_encryption", backedUp, "must be true"),
            ("storage_scope", supportedScope, "must be managed-encrypted-service or host-encrypted-volume"),
            ("key_reference", sameKey, "must match the configured KMS/HSM key"),
            ("evidence_uri", evidence, "must be a non-placeholder evidence URI"),
            ("verified_at", isUtcTimestamp (record.field "verified_at"), "must be an ISO-8601 UTC timestamp"),
            ("backup_restore_evidence_uri", restored,
              "must reference a successful encrypted backup restore exercise"),
            ("retention_deletion_evidence_uri", deleted,
              "must reference retention/deletion or crypto-erasure evidence")])
      else pure []
    let status := if findings.isEmpty && strict.isEmpty then "evidence_attested" else "not_verified"
    return ⟨asset, status, findings, strict⟩

/-- The findings about the environment in every mode. -/
def standardEnvironmentFindings (env : Env) (provider keyReference evidenceUri : String) :
    Except Fault (List String) := do
  let evidence ← isEvidenceUri urlparse (.text evidenceUri)
  return expect (isTrueText (env.getText "TAXSTAMP_STORAGE_ENCRYPTION_REQUIRED"))
      "TAXSTAMP_STORAGE_ENCRYPTION_REQUIRED must be true." ++
    expect (provider ∈ supportedProviders) "TAXSTAMP_KMS_PROVIDER is missing or unsupported." ++
    expect (isNonPlaceholder (.text keyReference)) "TAXSTAMP_KMS_KEY_REFERENCE is missing or placeholder text." ++
    expect (isTrueText (env.getText "TAXSTAMP_KMS_HSM_BACKED"))
      "TAXSTAMP_KMS_HSM_BACKED must be true with an HSM/KMS attestation." ++
    expect evidence "TAXSTAMP_STORAGE_ENCRYPTION_EVIDENCE_URI is missing, unsafe, or placeholder text."

/-- The number that the rotation period's text must meet; a text that is no number meets nothing. -/
def meetsDays (text : String) (test : ℕ → Bool) : Except Fault Bool :=
  if isDecimalText text then do
    let days ← intOfText text
    return test days
  else .ok false

/-- The findings about the environment for production. -/
def strictEnvironmentFindings (env : Env) (provider keyReference evidenceUri : String) :
    Except Fault (List Finding) := do
  let rotation ← meetsDays (env.getText "TAXSTAMP_KMS_KEY_ROTATION_DAYS") fun days => 1 ≤ days && days ≤ 730
  let evidence ← isEvidenceUri urlparse (.text evidenceUri)
  return strictFindings ""
    [("TAXSTAMP_ENV", env.get "TAXSTAMP_ENV" = some "production", "must be exactly production"),
      ("TAXSTAMP_STORAGE_ENCRYPTION_REQUIRED", isTrueText (env.getText "TAXSTAMP_STORAGE_ENCRYPTION_REQUIRED"),
        "must be true"),
      ("TAXSTAMP_KMS_PROVIDER", provider ∈ supportedProviders, "must be a supported provider"),
      ("TAXSTAMP_KMS_KEY_REFERENCE", isNonPlaceholder (.text keyReference), "must be non-placeholder"),
      ("TAXSTAMP_KMS_HSM_BACKED", isTrueText (env.getText "TAXSTAMP_KMS_HSM_BACKED"), "must be true"),
      ("TAXSTAMP_KMS_KEY_ROTATION_DAYS", rotation, "must be a whole number between 1 and 730"),
      ("TAXSTAMP_STORAGE_ENCRYPTION_EVIDENCE_URI", evidence, "must be a non-placeholder evidence URI")]

/-- The findings about the key-management record in every mode. -/
def standardKeyManagementFindings (keyManagement : Value) (provider keyReference : String) :
    Except Fault (List String) :=
  match keyManagement.asMapping with
  | none => .ok ["Missing key_management attestation object."]
  | some record => do
    let rotated ← isEvidenceUri urlparse (record.field "rotation_evidence_uri")
    return expect ((record.field "provider").same (.text provider))
        "Attested KMS/HSM provider does not match configuration." ++
      expect ((record.field "key_reference").same (.text keyReference))
        "Attested KMS/HSM key reference does not match configuration." ++
      expect (record.field "hsm_backed").isTrue "Attestation does not affirm HSM-backed KMS/key protection." ++
      expect rotated "Missing valid key-rotation evidence URI."

/-- The findings about the key-management record for production. -/
def strictKeyManagementFindings (keyManagement : Value) (env : Env) (provider keyReference : String) :
    Except Fault (List Finding) :=
  match keyManagement.asMapping with
  | none => .ok [⟨"key_management", "required attestation object is absent"⟩]
  | some record => do
    let rotation ← meetsDays (env.getText "TAXSTAMP_KMS_KEY_ROTATION_DAYS") fun days =>
      (record.field "rotation_days").same (.number days)
    let rotated ← isEvidenceUri urlparse (record.field "rotation_evidence_uri")
    let reviewed ← isEvidenceUri urlparse (record.field "access_review_evidence_uri")
    let recovered ← isEvidenceUri urlparse (record.field "recovery_exercise_evidence_uri")
    return strictFindings "key_management."
      [("provider", (record.field "provider").same (.text provider), "must match TAXSTAMP_KMS_PROVIDER"),
        ("key_reference", (record.field "key_reference").same (.text keyReference),
          "must match TAXSTAMP_KMS_KEY_REFERENCE"),
        ("hsm_backed", (record.field "hsm_backed").isTrue, "must be true"),
        ("rotation_days", rotation, "must match TAXSTAMP_KMS_KEY_ROTATION_DAYS"),
        ("rotation_evidence_uri", rotated, "must reference a completed key-rotation exercise"),
        ("access_review_evidence_uri", reviewed, "must reference a completed KMS/HSM access review"),
        ("recovery_exercise_evidence_uri", recovered, "must reference a completed KMS/HSM recovery exercise")]

/-- The assessment of an environment and an attestation. -/
def assess (env : Env) (attestation : Record) (requiredAssets : List String) (strictProduction : Bool) :
    Except Fault Assessment := do
  let provider := env.getText "TAXSTAMP_KMS_PROVIDER"
  let keyReference := env.getText "TAXSTAMP_KMS_KEY_REFERENCE"
  let evidenceUri := env.getText "TAXSTAMP_STORAGE_ENCRYPTION_EVIDENCE_URI"
  let keyManagement := attestation.field "key_management"
  let environmentFindings ← standardEnvironmentFindings urlparse env provider keyReference evidenceUri
  let keyManagementFindings ← standardKeyManagementFindings urlparse keyManagement provider keyReference
  let globalFindings := environmentFindings ++ keyManagementFindings
  let strict ←
    if strictProduction then do
      let environment ← strictEnvironmentFindings urlparse env provider keyReference evidenceUri
      let management ← strictKeyManagementFindings urlparse keyManagement env provider keyReference
      pure (environment ++ management ++ strictFindings ""
        [("schema", (attestation.field "schema").same (.text attestationSchema), "must equal " ++ attestationSchema)])
    else pure []
  let results ← requiredAssets.mapM fun asset => assessAsset urlparse asset keyReference attestation strictProduction
  let allAttested := globalFindings.isEmpty && strict.isEmpty &&
    results.all fun result => result.status = "evidence_attested"
  return {
    schema := "taxstamp.storage-encryption-check.v1"
    overallStatus := if allAttested then "evidence_attested_not_live_verified" else "not_verified"
    verificationScope := "configuration-and-attestation-only"
    mode := if strictProduction then "strict_production" else "standard"
    globalFindings := globalFindings
    strictProductionFindings := strict
    assets := results
    requiredAssets := requiredAssets
    liveProviderVerified := false }

/-! ### Agreement -/

/-- A field of the key-management record. -/
def keyManagementField (root : Record) (name : String) : Value :=
  ((root.field "key_management").asMapping.map fun record => record.field name).getD .null

/-- The record of an asset. -/
def assetRecord (root : Record) (asset : String) : Option Record :=
  (root.field "assets").asMapping.bind fun assets => (assets.field asset).asMapping

/-- The document has an asset of the name. -/
def HasAsset (root : Record) (asset : String) : Prop :=
  ∃ assets, root.field "assets" = .mapping assets ∧ (Record.lookup assets (.text asset)).isSome = true

/-- An environment of production that declares encryption and what the document says about the key. -/
structure Declares (env : Env) (root : Record) : Prop where
  production : env.get "TAXSTAMP_ENV" = some "production"
  encryptionRequired : isTrueText (env.getText "TAXSTAMP_STORAGE_ENCRYPTION_REQUIRED") = true
  hsmBacked : isTrueText (env.getText "TAXSTAMP_KMS_HSM_BACKED") = true
  provider : keyManagementField root "provider" = .text (env.getText "TAXSTAMP_KMS_PROVIDER")
  keyReference : keyManagementField root "key_reference" = .text (env.getText "TAXSTAMP_KMS_KEY_REFERENCE")
  rotationDays : isDecimalText (env.getText "TAXSTAMP_KMS_KEY_ROTATION_DAYS") = true ∧
    ∃ days : ℕ, intOfText (env.getText "TAXSTAMP_KMS_KEY_ROTATION_DAYS") = .ok days ∧
      keyManagementField root "rotation_days" = .number days
  evidenceUri :
    isEvidenceUri urlparse (.text (env.getText "TAXSTAMP_STORAGE_ENCRYPTION_EVIDENCE_URI")) = .ok true

/-- Everything is attested and nothing found. -/
structure Assessment.Clean (assessment : Assessment) : Prop where
  overallStatus : assessment.overallStatus = "evidence_attested_not_live_verified"
  globalFindings : assessment.globalFindings = []
  strictProductionFindings : assessment.strictProductionFindings = []
  assets : ∀ result ∈ assessment.assets, result.findings = [] ∧ result.strictProductionFindings = []

/-- No timestamp of the assets holds a placeholder word. -/
def PlaceholderFree (root : Record) (requiredAssets : List String) : Prop :=
  ∀ asset ∈ requiredAssets, ∀ record ∈ assetRecord root asset, ∀ text,
    record.field "verified_at" = .text text → hasPlaceholder text = false

variable {urlparse}

/-- A declared rotation period meets what its number meets. -/
theorem meetsDays_of {text : String} {days : ℕ} (hdecimal : isDecimalText text = true)
    (hdays : intOfText text = .ok days) (test : ℕ → Bool) : meetsDays text test = .ok (test days) := by
  rw [meetsDays, if_pos hdecimal, hdays]
  rfl

/-- The result for an asset without errors: only the timestamp can be found to be a placeholder. -/
theorem assessAsset_of_attested {root record : Record} {asset configuredKey : String}
    (hrecord : assetRecord root asset = some record) (h : AssetAttested urlparse (.text configuredKey) record) :
    assessAsset urlparse asset configuredKey root true =
      .ok ⟨asset, if isNonPlaceholder (record.field "verified_at") then "evidence_attested" else "not_verified",
        expect (isNonPlaceholder (record.field "verified_at")) "verified_at is missing or placeholder text.", []⟩ := by
  have hevidence := h.evidence "evidence_uri" (by decide)
  have hrestored := h.evidence "backup_restore_evidence_uri" (by decide)
  have hdeleted := h.evidence "retention_deletion_evidence_uri" (by decide)
  have hencrypted := Value.isTrue_iff.mpr h.encryptionAtRest
  have hbacked := Value.isTrue_iff.mpr h.backupEncryption
  rw [assessAsset, ← assetRecord, hrecord]
  simp only [h.storageScope, hevidence, hrestored, hdeleted, hencrypted, hbacked, h.keyReference, h.verifiedAt, bind,
    Except.bind, pure, Except.pure, if_true]
  cases isNonPlaceholder (record.field "verified_at") <;> rfl

/-- A declared environment has no findings. -/
theorem environmentFindings_of_declares {env : Env} {root : Record} (hroot : Attested urlparse root)
    (h : Declares urlparse env root) :
    standardEnvironmentFindings urlparse env (env.getText "TAXSTAMP_KMS_PROVIDER")
        (env.getText "TAXSTAMP_KMS_KEY_REFERENCE")
        (env.getText "TAXSTAMP_STORAGE_ENCRYPTION_EVIDENCE_URI") = .ok [] ∧
      strictEnvironmentFindings urlparse env (env.getText "TAXSTAMP_KMS_PROVIDER")
        (env.getText "TAXSTAMP_KMS_KEY_REFERENCE")
        (env.getText "TAXSTAMP_STORAGE_ENCRYPTION_EVIDENCE_URI") = .ok [] := by
  obtain ⟨record, hrecord, hkey⟩ := hroot.keyManagement
  have hfield : ∀ name, keyManagementField root name = record.field name := by
    intro name
    rw [keyManagementField, Value.asMapping_eq_some.mpr hrecord]
    rfl
  obtain ⟨provider, hprovider, hsupported⟩ := hkey.provider
  have hprovided : env.getText "TAXSTAMP_KMS_PROVIDER" ∈ supportedProviders := by
    have htext := h.provider
    rw [hfield, hprovider] at htext
    rwa [← Value.text.inj htext]
  have hreference : isNonPlaceholder (.text (env.getText "TAXSTAMP_KMS_KEY_REFERENCE")) = true := by
    rw [← h.keyReference, hfield]
    exact hkey.keyReference
  obtain ⟨hdecimal, days, hdays, hrotation⟩ := h.rotationDays
  have hperiod : (1 ≤ days && days ≤ 730) = true := by
    have hvalid := hkey.rotationDays
    rw [← hfield, hrotation] at hvalid
    simp only [isRotationPeriod, Bool.and_eq_true, decide_eq_true_eq] at hvalid ⊢
    omega
  constructor
  · rw [standardEnvironmentFindings, h.evidenceUri]
    simp only [h.encryptionRequired, h.hsmBacked, hprovided, hreference, decide_true]
    rfl
  · rw [strictEnvironmentFindings, h.evidenceUri, meetsDays_of hdecimal hdays, hperiod]
    simp only [h.production, h.encryptionRequired, h.hsmBacked, hprovided, hreference, decide_true]
    rfl

/-- A key-management record without errors has no findings in a declared environment. -/
theorem keyManagementFindings_of_declares {env : Env} {root : Record} (hroot : Attested urlparse root)
    (h : Declares urlparse env root) :
    standardKeyManagementFindings urlparse (root.field "key_management") (env.getText "TAXSTAMP_KMS_PROVIDER")
        (env.getText "TAXSTAMP_KMS_KEY_REFERENCE") = .ok [] ∧
      strictKeyManagementFindings urlparse (root.field "key_management") env (env.getText "TAXSTAMP_KMS_PROVIDER")
        (env.getText "TAXSTAMP_KMS_KEY_REFERENCE") = .ok [] := by
  obtain ⟨record, hrecord, hkey⟩ := hroot.keyManagement
  have hmapping := Value.asMapping_eq_some.mpr hrecord
  have hfield : ∀ name, record.field name = keyManagementField root name := by
    intro name
    rw [keyManagementField, hmapping]
    rfl
  have hprovider := Value.same_text.mpr ((hfield "provider").trans h.provider)
  have hreference := Value.same_text.mpr ((hfield "key_reference").trans h.keyReference)
  have hhsm := Value.isTrue_iff.mpr hkey.hsmBacked
  have hrotated := hkey.evidence "rotation_evidence_uri" (by decide)
  have hreviewed := hkey.evidence "access_review_evidence_uri" (by decide)
  have hrecovered := hkey.evidence "recovery_exercise_evidence_uri" (by decide)
  obtain ⟨hdecimal, days, hdays, hrotation⟩ := h.rotationDays
  have hsame : (record.field "rotation_days").same (.number days) = true := by
    rw [hfield, hrotation, Value.same_number, decide_eq_true rfl]
  constructor
  · rw [standardKeyManagementFindings, hmapping]
    simp only [hrotated, hprovider, hreference, hhsm]
    rfl
  · rw [strictKeyManagementFindings, hmapping]
    simp only [meetsDays_of hdecimal hdays, hsame, hrotated, hreviewed, hrecovered, hprovider, hreference, hhsm]
    rfl

/-- An asset of a document without errors has a record without errors. -/
theorem assetRecord_of_hasAsset {root : Record} (hroot : Attested urlparse root) {asset : String}
    (h : HasAsset root asset) :
    ∃ record, assetRecord root asset = some record ∧ AssetAttested urlparse (attestedKeyReference root) record := by
  obtain ⟨assets, hassets, hvalid⟩ := hroot.assets
  obtain ⟨others, hothers, hfound⟩ := h
  obtain rfl : assets = others := Value.mapping.inj (hassets.symm.trans hothers)
  obtain ⟨value, hvalue⟩ := Option.isSome_iff_exists.mp hfound
  obtain ⟨entry, hentry, rfl⟩ := Option.map_eq_some_iff.mp hvalue
  obtain ⟨record, hrecord, hattested⟩ := hvalid entry (List.mem_of_find?_eq_some hentry)
  refine ⟨record, ?_, hattested⟩
  rw [assetRecord, Value.asMapping_eq_some.mpr hassets, Option.bind_some, Record.field, hvalue, Option.getD_some]
  exact Value.asMapping_eq_some.mpr hrecord

/-- The results for assets whose records have no errors. -/
theorem mapM_assessAsset {root : Record} {configuredKey : String} {requiredAssets : List String}
    (h : ∀ asset ∈ requiredAssets, ∃ record, assetRecord root asset = some record ∧
      AssetAttested urlparse (.text configuredKey) record) :
    ∃ results, requiredAssets.mapM (fun asset => assessAsset urlparse asset configuredKey root true) = .ok results ∧
      (∀ result ∈ results, result.strictProductionFindings = [] ∧
        (result.status = "evidence_attested" ↔ result.findings = [])) ∧
      ((∀ result ∈ results, result.findings = []) ↔ PlaceholderFree root requiredAssets) := by
  induction requiredAssets with
  | nil => exact ⟨[], rfl, by simp, by simp [PlaceholderFree]⟩
  | cons asset rest ih =>
    obtain ⟨record, hrecord, hattested⟩ := h asset (List.mem_cons_self ..)
    obtain ⟨results, hresults, hstatus, hfree⟩ := ih fun other hother => h other (List.mem_cons_of_mem _ hother)
    obtain ⟨text, htext, hplaceholder⟩ := isUtcTimestamp_text hattested.verifiedAt
    rw [htext] at hplaceholder
    have hfirst := assessAsset_of_attested hrecord hattested
    refine ⟨_ :: results, by rw [List.mapM_cons, hfirst, hresults]; rfl, ?_, ?_⟩
    · refine List.forall_mem_cons.mpr ⟨⟨rfl, ?_⟩, hstatus⟩
      cases isNonPlaceholder (record.field "verified_at") <;> simp [expect]
    · rw [List.forall_mem_cons, hfree, PlaceholderFree, PlaceholderFree, List.forall_mem_cons]
      simp [hrecord, htext, hplaceholder]

/-- The checker attests an accepted document in an environment that declares it exactly when no timestamp of a required
asset holds a placeholder word. -/
theorem assess_clean_iff {document : Value} {converted : Record} {env : Env} {requiredAssets : List String}
    (haccepted : validateAttestation urlparse document = .ok (some converted, []))
    (hrequired : ∀ asset ∈ requiredAssets, HasAsset converted asset) (hdeclares : Declares urlparse env converted) :
    (∃ assessment, assess urlparse env converted requiredAssets true = .ok assessment ∧ assessment.Clean) ↔
      PlaceholderFree converted requiredAssets := by
  obtain ⟨root, _, hconverted, hroot⟩ := validateAttestation_nil haccepted
  obtain rfl : converted = root := Option.some.inj hconverted
  have hkey : attestedKeyReference converted = .text (env.getText "TAXSTAMP_KMS_KEY_REFERENCE") := by
    rw [← hdeclares.keyReference, attestedKeyReference, keyManagementField]
    cases (converted.field "key_management").asMapping <;> rfl
  have hrecords : ∀ asset ∈ requiredAssets, ∃ record, assetRecord converted asset = some record ∧
      AssetAttested urlparse (.text (env.getText "TAXSTAMP_KMS_KEY_REFERENCE")) record := by
    intro asset hasset
    rw [← hkey]
    exact assetRecord_of_hasAsset hroot (hrequired asset hasset)
  obtain ⟨results, hresults, hstatus, hfree⟩ := mapM_assessAsset hrecords
  obtain ⟨hstandard, hstrict⟩ := environmentFindings_of_declares hroot hdeclares
  obtain ⟨hmanaged, hmanagedStrict⟩ := keyManagementFindings_of_declares hroot hdeclares
  have hschema := Value.same_text.mpr hroot.schema
  have hassess : assess urlparse env converted requiredAssets true = .ok
      { schema := "taxstamp.storage-encryption-check.v1"
        overallStatus := if results.all fun result => result.status = "evidence_attested" then
          "evidence_attested_not_live_verified" else "not_verified"
        verificationScope := "configuration-and-attestation-only"
        mode := "strict_production"
        globalFindings := []
        strictProductionFindings := []
        assets := results
        requiredAssets := requiredAssets
        liveProviderVerified := false } := by
    rw [assess, hstandard, hmanaged, if_pos rfl, hstrict, hmanagedStrict, hresults, hschema]
    rfl
  constructor
  · rintro ⟨assessment, hok, hclean⟩
    obtain rfl := Except.ok.inj (hassess.symm.trans hok)
    exact hfree.mp fun result hresult => (hclean.assets result hresult).1
  · intro hplaceholders
    have hfindings := hfree.mpr hplaceholders
    refine ⟨_, hassess, if_pos ?_, rfl, rfl, fun result hresult => ?_⟩
    swap
    · exact ⟨hfindings result hresult, (hstatus result hresult).1⟩
    rw [List.all_eq_true]
    intro result hresult
    exact decide_eq_true ((hstatus result hresult).2.mpr (hfindings result hresult))

end Checker

/-! ### Sample attestations -/

/-- Splits a URI of the form `scheme://host/path`. -/
def splitLocation (uri : String) : Except Fault ParseResult :=
  let scheme := uri.toList.takeWhile (· ≠ ':')
  let location := uri.toList.drop (scheme.length + 3)
  let host := location.takeWhile (· ≠ '/')
  .ok {
    scheme := String.ofList scheme
    netloc := String.ofList host
    path := String.ofList (location.drop host.length)
    query := ""
    fragment := ""
    username := none
    password := none
    port := .ok none }

/-- The key-management record of the sample. -/
def sampleKeyManagement : Record :=
  [(.text "provider", .text "aws_kms"), (.text "key_reference", .text "k1"), (.text "hsm_backed", .flag true),
    (.text "rotation_days", .number 365), (.text "rotation_evidence_uri", .text "s3://b/k"),
    (.text "access_review_evidence_uri", .text "s3://b/k"), (.text "recovery_exercise_evidence_uri", .text "s3://b/k")]

/-- The asset record of the sample, verified at a given time. -/
def sampleAsset (verifiedAt : String) : Record :=
  [(.text "encryption_at_rest", .flag true), (.text "backup_encryption", .flag true),
    (.text "storage_scope", .text "host-encrypted-volume"), (.text "key_reference", .text "k1"),
    (.text "evidence_uri", .text "s3://b/k"), (.text "backup_restore_evidence_uri", .text "s3://b/k"),
    (.text "retention_deletion_evidence_uri", .text "s3://b/k"), (.text "verified_at", .text verifiedAt)]

/-- An attestation of one asset. -/
def sampleAttestation (verifiedAt : String) : Record :=
  [(.text "schema", .text attestationSchema), (.text "environment", .text "production"),
    (.text "key_management", .mapping sampleKeyManagement),
    (.text "assets", .mapping [(.text "redis", .mapping (sampleAsset verifiedAt))])]

/-- The environment of the sample. -/
def sampleEnvironment : Env :=
  [("TAXSTAMP_ENV", "production"), ("TAXSTAMP_STORAGE_ENCRYPTION_REQUIRED", "true"),
    ("TAXSTAMP_KMS_PROVIDER", "aws_kms"), ("TAXSTAMP_KMS_KEY_REFERENCE", "k1"), ("TAXSTAMP_KMS_HSM_BACKED", "true"),
    ("TAXSTAMP_KMS_KEY_ROTATION_DAYS", "365"),
    ("TAXSTAMP_STORAGE_ENCRYPTION_EVIDENCE_URI", "s3://b/k")]

/-- The environment declares what the sample says. -/
theorem declares_sample (verifiedAt : String) :
    Declares splitLocation sampleEnvironment (sampleAttestation verifiedAt) where
  production := by decide
  encryptionRequired := by decide
  hsmBacked := by decide
  provider := rfl
  keyReference := rfl
  rotationDays := ⟨by decide, 365, by decide, rfl⟩
  evidenceUri := by decide

/-- The sample has its asset. -/
theorem hasAsset_sample (verifiedAt : String) : HasAsset (sampleAttestation verifiedAt) "redis" := ⟨_, rfl, rfl⟩

/-- A document without errors is converted to its fields. -/
theorem validateAttestation_of_errors {urlparse : String → Except Fault ParseResult} {root : Record}
    (h : (validateAttestation urlparse (.mapping root)).map Prod.snd = .ok []) :
    validateAttestation urlparse (.mapping root) = .ok (some root, []) := by
  cases hresult : validateAttestation urlparse (.mapping root) with
  | error e => simp [hresult, Except.map] at h
  | ok result =>
    obtain ⟨converted, errors⟩ := result
    obtain rfl : errors = [] := by simpa [hresult, Except.map] using h
    obtain ⟨document, hdocument, rfl, _⟩ := validateAttestation_nil hresult
    rw [Value.mapping.inj hdocument]

/-- A sample that was verified on a day is attested. -/
theorem assess_sample : ∃ assessment,
    assess splitLocation sampleEnvironment (sampleAttestation "20260825Z") ["redis"] true = .ok assessment ∧
      assessment.Clean := by
  have haccepted : validateAttestation splitLocation (.mapping (sampleAttestation "20260825Z")) =
      .ok (some (sampleAttestation "20260825Z"), []) :=
    validateAttestation_of_errors (by decide +kernel)
  refine (assess_clean_iff haccepted ?_ (declares_sample _)).mpr ?_
  · intro asset hasset
    obtain rfl := List.mem_singleton.mp hasset
    exact hasAsset_sample _
  · intro asset hasset record hrecord text htext
    obtain rfl := List.mem_singleton.mp hasset
    obtain rfl : sampleAsset "20260825Z" = record := Option.some.inj hrecord
    obtain rfl : "20260825Z" = text := Value.text.inj htext
    decide +kernel

/-- A placeholder word between the microseconds and the offset is no error for the converter, but a finding for the
checker. -/
theorem not_assess_clean :
    validateAttestation splitLocation (.mapping (sampleAttestation "20260825T00:00:00.000000exampleZ")) =
        .ok (some (sampleAttestation "20260825T00:00:00.000000exampleZ"), []) ∧
      HasAsset (sampleAttestation "20260825T00:00:00.000000exampleZ") "redis" ∧
      Declares splitLocation sampleEnvironment (sampleAttestation "20260825T00:00:00.000000exampleZ") ∧
      ¬∃ assessment, assess splitLocation sampleEnvironment (sampleAttestation "20260825T00:00:00.000000exampleZ")
        ["redis"] true = .ok assessment ∧ assessment.Clean := by
  refine ⟨validateAttestation_of_errors (by decide +kernel), hasAsset_sample _, declares_sample _, ?_⟩
  rintro ⟨assessment, hassess, hclean⟩
  have hstatus : (assess splitLocation sampleEnvironment (sampleAttestation "20260825T00:00:00.000000exampleZ")
      ["redis"] true).map Assessment.overallStatus = .ok "not_verified" := by
    decide +kernel
  rw [hassess, Except.map, hclean.overallStatus] at hstatus
  simp at hstatus

end TaxStamp.StorageEncryption
