import TaxStamp.Evidence

/-!
# Converting attestations

The converter checks a YAML document field by field and collects the errors. What a document without
errors contains is stated as a structure with one field for each rule, read off the checks.
-/

namespace TaxStamp.StorageEncryption

/-! ### The converter -/

/-- An error when a check fails. -/
def expect (valid : Bool) (message : String) : List String := if valid then [] else [message]

/-- No error means that the check holds. -/
@[simp] theorem expect_eq_nil {valid : Bool} {message : String} : expect valid message = [] ↔ valid = true := by
  cases valid <;> simp [expect]

/-- The order of Python's `sorted` on texts. -/
def sortedTexts (texts : List String) : List String :=
  texts.insertionSort fun a b => codePointsLe a.toList b.toList = true

/-- The names of the fields that are not known, which must be texts. -/
def unknownFields (record : Record) (known : List String) : Except Fault (List String) := do
  let keys := (record.map Prod.fst).filter fun key => known.all fun name => !key.same (.text name)
  let names ← keys.mapM fun key =>
    match key with
    | .text name => .ok name
    | .other .. => .error .typeError
  return sortedTexts names

/-- The names of the known fields that are absent. -/
def missingFields (record : Record) (known : List String) : List String :=
  sortedTexts (known.filter fun name => (record.lookup (.text name)).isNone)

/-- The sources of a key's rotation, access reviews and recovery exercises. -/
def keyManagementEvidence : List String :=
  ["rotation_evidence_uri", "access_review_evidence_uri", "recovery_exercise_evidence_uri"]

/-- The fields of the key-management record. -/
def keyManagementFields : List String :=
  ["provider", "key_reference", "hsm_backed", "rotation_days"] ++ keyManagementEvidence

/-- The sources of an asset's encryption, restores and deletions. -/
def assetEvidence : List String :=
  ["evidence_uri", "backup_restore_evidence_uri", "retention_deletion_evidence_uri"]

/-- The fields of an asset record. -/
def assetFields : List String :=
  ["encryption_at_rest", "backup_encryption", "storage_scope", "key_reference"] ++ assetEvidence ++ ["verified_at"]

/-- The supported storage assets. -/
def assetNames : List String := ["postgres", "redis", "opensearch"]

/-- An integer from 1 to 730; booleans are none. -/
def isRotationPeriod : Value → Bool
  | .number n => 1 ≤ n && n ≤ 730
  | _ => false

section Converter

variable (urlparse : String → Except Fault ParseResult)

/-- The errors of evidence fields. -/
def evidenceErrors (record : Record) (place : String) (fields : List String) : Except Fault (List String) := do
  let errors ← fields.mapM fun field => do
    let valid ← isEvidenceUri urlparse (record.field field)
    return expect valid (place ++ "." ++ field ++ " must be a valid non-secret evidence URI.")
  return errors.flatten

/-- The errors of a record with a fixed set of fields. The fields themselves are checked when none is missing. -/
def recordErrors (place : String) (value : Value) (fields : List String)
    (check : Record → Except Fault (List String)) : Except Fault (List String) :=
  match value.asMapping with
  | some record => do
    let unknown ← unknownFields record fields
    let unknownErrors := expect unknown.isEmpty (place ++ " has unknown fields: " ++ ", ".intercalate unknown ++ ".")
    let missing := missingFields record fields
    if !missing.isEmpty then
      return unknownErrors ++ [place ++ " is missing fields: " ++ ", ".intercalate missing ++ "."]
    else return unknownErrors ++ (← check record)
  | none => .ok [place ++ " must be a mapping."]

/-- The errors of the key-management record. -/
def validateKeyManagement (value : Value) : Except Fault (List String) :=
  recordErrors "key_management" value keyManagementFields fun record => do
    let supported ← (record.field "provider").isOneOf supportedProviders
    let evidence ← evidenceErrors urlparse record "key_management" keyManagementEvidence
    return expect supported "key_management.provider must be a supported provider." ++
      expect (isNonPlaceholder (record.field "key_reference"))
        "key_management.key_reference must be non-placeholder text." ++
      expect (record.field "hsm_backed").isTrue "key_management.hsm_backed must be true." ++
      expect (isRotationPeriod (record.field "rotation_days"))
        "key_management.rotation_days must be an integer from 1 to 730." ++
      evidence

/-- The errors of the record of an asset. -/
def validateAssetRecord (asset : String) (value keyReference : Value) : Except Fault (List String) :=
  let place := "assets." ++ asset
  recordErrors place value assetFields fun record => do
    let supportedScope ← (record.field "storage_scope").isOneOf storageScopes
    let evidence ← evidenceErrors urlparse record place assetEvidence
    return expect (record.field "encryption_at_rest").isTrue (place ++ ".encryption_at_rest must be true.") ++
      expect (record.field "backup_encryption").isTrue (place ++ ".backup_encryption must be true.") ++
      expect supportedScope (place ++ ".storage_scope is invalid.") ++
      expect ((record.field "key_reference").same keyReference)
        (place ++ ".key_reference must match key_management.key_reference.") ++
      evidence ++
      expect (isUtcTimestamp (record.field "verified_at"))
        (place ++ ".verified_at must be an ISO-8601 UTC string; quote it in YAML.")

/-- The errors of the assets. -/
def validateAssets (value keyReference : Value) : Except Fault (List String) :=
  match value.asMapping with
  | some assets => do
    let errors ← assets.mapM fun entry =>
      match entry.1 with
      | .text asset =>
        if asset ∈ assetNames then validateAssetRecord urlparse asset entry.2 keyReference
        else .ok ["assets." ++ asset ++ " is not a supported storage asset."]
      | .other printed _ => .ok ["assets." ++ printed ++ " is not a supported storage asset."]
    return expect (!assets.isEmpty) "assets must contain at least one storage asset." ++ errors.flatten
  | none => .ok ["assets must be a mapping."]

/-- The key reference of the key-management record. -/
def attestedKeyReference (root : Record) : Value :=
  match (root.field "key_management").asMapping with
  | some record => record.field "key_reference"
  | none => .null

/-- The converted document and the errors. -/
def validateAttestation (document : Value) : Except Fault (Option Record × List String) :=
  match document.asMapping with
  | some root => do
    let unknown ← unknownFields root ["schema", "synthetic_example", "environment", "key_management", "assets"]
    let environment ← (root.field "environment").isOneOf ["staging", "production"]
    let keyManagement ← validateKeyManagement urlparse (root.field "key_management")
    let assets ← validateAssets urlparse (root.field "assets") (attestedKeyReference root)
    return (some root,
      expect unknown.isEmpty ("root has unknown fields: " ++ ", ".intercalate unknown ++ ".") ++
        expect ((root.field "schema").same (.text attestationSchema))
          ("schema must equal " ++ attestationSchema ++ ".") ++
        expect environment "environment must be staging or production." ++
        keyManagement ++ assets)
  | none => .ok (none, ["root must be a mapping."])

/-! ### Documents without errors -/

/-- A key-management record without errors. -/
structure KeyManagementAttested (record : Record) : Prop where
  provider : ∃ provider, record.field "provider" = .text provider ∧ provider ∈ supportedProviders
  keyReference : isNonPlaceholder (record.field "key_reference") = true
  hsmBacked : record.field "hsm_backed" = .flag true
  rotationDays : isRotationPeriod (record.field "rotation_days") = true
  evidence : ∀ field ∈ keyManagementEvidence, isEvidenceUri urlparse (record.field field) = .ok true

/-- An asset record without errors. -/
structure AssetAttested (keyReference : Value) (record : Record) : Prop where
  encryptionAtRest : record.field "encryption_at_rest" = .flag true
  backupEncryption : record.field "backup_encryption" = .flag true
  storageScope : (record.field "storage_scope").isOneOf storageScopes = .ok true
  keyReference : (record.field "key_reference").same keyReference = true
  evidence : ∀ field ∈ assetEvidence, isEvidenceUri urlparse (record.field field) = .ok true
  verifiedAt : isUtcTimestamp (record.field "verified_at") = true

/-- A document without errors. -/
structure Attested (root : Record) : Prop where
  schema : root.field "schema" = .text attestationSchema
  keyManagement : ∃ record : Record,
    root.field "key_management" = .mapping record ∧ KeyManagementAttested urlparse record
  assets : ∃ assets : Record, root.field "assets" = .mapping assets ∧
    ∀ entry ∈ assets, ∃ record : Record,
      entry.2 = .mapping record ∧ AssetAttested urlparse (attestedKeyReference root) record

variable {urlparse}

/-- A list of results that flattens to nothing comes from results that are empty. -/
theorem mapM_flatten_nil {α β : Type} {f : α → Except Fault (List β)} {xs : List α} {results : List (List β)}
    (h : xs.mapM f = .ok results) (hnil : results.flatten = []) {x : α} (hx : x ∈ xs) : f x = .ok [] := by
  induction xs generalizing results with
  | nil => cases hx
  | cons y rest ih =>
    rw [List.mapM_cons] at h
    obtain ⟨first, hfirst, h⟩ := Except.bind_ok.mp h
    obtain ⟨others, hothers, h⟩ := Except.bind_ok.mp h
    obtain rfl : first :: others = results := Except.ok.inj h
    rw [List.flatten_cons, List.append_eq_nil_iff] at hnil
    obtain rfl | hx := List.mem_cons.mp hx
    · rw [hfirst, hnil.1]
    · exact ih hothers hnil.2 hx

/-- Without errors every evidence field is a valid URI. -/
theorem evidenceErrors_nil {record : Record} {place : String} {fields : List String}
    (h : evidenceErrors urlparse record place fields = .ok []) {field : String} (hfield : field ∈ fields) :
    isEvidenceUri urlparse (record.field field) = .ok true := by
  obtain ⟨errors, hmap, hnil⟩ := Except.bind_ok.mp h
  obtain ⟨valid, hvalid, hexpect⟩ := Except.bind_ok.mp (mapM_flatten_nil hmap (Except.ok.inj hnil) hfield)
  rw [hvalid, expect_eq_nil.mp (Except.ok.inj hexpect)]

/-- A record without errors is a mapping that passes its check. -/
theorem recordErrors_nil {place : String} {value : Value} {fields : List String}
    {check : Record → Except Fault (List String)} (h : recordErrors place value fields check = .ok []) :
    ∃ record : Record, value = .mapping record ∧ check record = .ok [] := by
  unfold recordErrors at h
  split at h
  · rename_i record hrecord
    obtain ⟨unknown, _, h⟩ := Except.bind_ok.mp h
    refine ⟨record, Value.asMapping_eq_some.mp hrecord, ?_⟩
    dsimp only at h
    split at h
    · simp [pure, Except.pure] at h
    · obtain ⟨errors, hcheck, hnil⟩ := Except.bind_ok.mp h
      obtain ⟨_, rfl⟩ := List.append_eq_nil_iff.mp (Except.ok.inj hnil)
      exact hcheck
  · simp at h

/-- What a key-management record without errors contains. -/
theorem validateKeyManagement_nil {value : Value} (h : validateKeyManagement urlparse value = .ok []) :
    ∃ record : Record, value = .mapping record ∧ KeyManagementAttested urlparse record := by
  obtain ⟨record, hvalue, hcheck⟩ := recordErrors_nil h
  obtain ⟨supported, hsupported, hcheck⟩ := Except.bind_ok.mp hcheck
  obtain ⟨evidence, hevidence, hnil⟩ := Except.bind_ok.mp hcheck
  have hnil := Except.ok.inj hnil
  simp only [List.append_eq_nil_iff, expect_eq_nil, Value.isTrue_iff] at hnil
  obtain ⟨⟨⟨⟨rfl, hkey⟩, hhsm⟩, hrotation⟩, rfl⟩ := hnil
  exact ⟨record, hvalue, Value.isOneOf_true.mp hsupported, hkey, hhsm, hrotation,
    fun field hfield => evidenceErrors_nil hevidence hfield⟩

/-- What an asset record without errors contains. -/
theorem validateAssetRecord_nil {asset : String} {value keyReference : Value}
    (h : validateAssetRecord urlparse asset value keyReference = .ok []) :
    ∃ record : Record, value = .mapping record ∧ AssetAttested urlparse keyReference record := by
  obtain ⟨record, hvalue, hcheck⟩ := recordErrors_nil h
  obtain ⟨supportedScope, hscope, hcheck⟩ := Except.bind_ok.mp hcheck
  obtain ⟨evidence, hevidence, hnil⟩ := Except.bind_ok.mp hcheck
  have hnil := Except.ok.inj hnil
  simp only [List.append_eq_nil_iff, expect_eq_nil, Value.isTrue_iff] at hnil
  obtain ⟨⟨⟨⟨⟨hrest, hbackup⟩, rfl⟩, hkey⟩, rfl⟩, hverified⟩ := hnil
  exact ⟨record, hvalue, hrest, hbackup, hscope, hkey, fun field hfield => evidenceErrors_nil hevidence hfield,
    hverified⟩

/-- What assets without errors contain. -/
theorem validateAssets_nil {value keyReference : Value} (h : validateAssets urlparse value keyReference = .ok []) :
    ∃ assets : Record, value = .mapping assets ∧
      ∀ entry ∈ assets, ∃ record : Record, entry.2 = .mapping record ∧ AssetAttested urlparse keyReference record := by
  unfold validateAssets at h
  split at h
  · rename_i assets hassets
    obtain ⟨errors, hmap, hnil⟩ := Except.bind_ok.mp h
    refine ⟨assets, Value.asMapping_eq_some.mp hassets, fun entry hentry => ?_⟩
    have herrors := mapM_flatten_nil hmap (List.append_eq_nil_iff.mp (Except.ok.inj hnil)).2 hentry
    split at herrors
    · split at herrors
      · exact validateAssetRecord_nil herrors
      · simp at herrors
    · simp at herrors
  · simp at h

/-- What a document without errors contains. The converted document is the document. -/
theorem validateAttestation_nil {document : Value} {converted : Option Record}
    (h : validateAttestation urlparse document = .ok (converted, [])) :
    ∃ root : Record, document = .mapping root ∧ converted = some root ∧ Attested urlparse root := by
  unfold validateAttestation at h
  split at h
  · rename_i root hroot
    obtain ⟨unknown, _, h⟩ := Except.bind_ok.mp h
    obtain ⟨environment, _, h⟩ := Except.bind_ok.mp h
    obtain ⟨keyManagement, hkeyManagement, h⟩ := Except.bind_ok.mp h
    obtain ⟨assets, hassets, h⟩ := Except.bind_ok.mp h
    obtain ⟨hconverted, hnil⟩ := Prod.mk.inj (Except.ok.inj h)
    simp only [List.append_eq_nil_iff, expect_eq_nil, Value.same_text] at hnil
    obtain ⟨⟨⟨⟨_, hschema⟩, _⟩, rfl⟩, rfl⟩ := hnil
    exact ⟨root, Value.asMapping_eq_some.mp hroot, hconverted.symm, hschema, validateKeyManagement_nil hkeyManagement,
      validateAssets_nil hassets⟩
  · simp at h

end Converter

end TaxStamp.StorageEncryption
