import Mathlib.Data.Rat.Defs
import TaxStamp.IsoFormat

/-!
# Evidence fields

The values of a storage-encryption attestation and the rules that the converter and the checker share: texts that are
no placeholders, evidence URIs and UTC timestamps. How a URI is split is left to a parameter.
-/

namespace TaxStamp.StorageEncryption

/-! ### Attestation values -/

/-- A mapping key: a text, or another key by its printed form and by a text that equal keys share. -/
inductive Key
  | text (key : String)
  | other (printed value : String)

namespace Key

/-- The key as `str` prints it. -/
def printed : Key → String
  | text key => key
  | other printed _ => printed

/-- Equality of keys. -/
def same : Key → Key → Bool
  | text a, text b => a = b
  | other _ a, other _ b => a = b
  | _, _ => false

end Key

/-- A value that a YAML or JSON document holds. Dates, bytes and sets are known by whether they can be hashed and by a
text that equal values share. -/
inductive Value
  | null
  | flag (value : Bool)
  | number (value : ℤ)
  | float (value : ℚ)
  | infinity (negative : Bool)
  | nan
  | text (value : String)
  | other (hashable : Bool) (value : String)
  | list (items : List Value)
  | mapping (entries : List (Key × Value))

/-- The fields of a mapping. -/
abbrev Record := List (Key × Value)

/-- The value of a key, if the mapping has it. -/
def Record.lookup (record : Record) (key : Key) : Option Value :=
  (record.find? fun entry => entry.1.same key).map Prod.snd

/-- The value of a field; an absent one is null. -/
def Record.field (record : Record) (name : String) : Value := (record.lookup (.text name)).getD .null

namespace Value

/-- The number of a value that compares as one. -/
def numeric : Value → Option ℚ
  | flag b => some (if b then 1 else 0)
  | number n => some n
  | float q => some q
  | _ => none

/-- Equality of values that are neither lists nor mappings. -/
def sameScalar : Value → Value → Bool
  | null, null => true
  | text a, text b => a = b
  | infinity a, infinity b => a = b
  | other _ a, other _ b => a = b
  | a, b => a.numeric.isSome && a.numeric = b.numeric

mutual

/-- Equality of values: lists item by item, mappings by their keys. -/
def same : Value → Value → Bool
  | list as, list bs => sameItems as bs
  | mapping as, mapping bs => as.length = bs.length && sameEntries as bs
  | a, b => a.sameScalar b

/-- Equal items in the same order. -/
def sameItems : List Value → List Value → Bool
  | [], [] => true
  | a :: as, b :: bs => a.same b && sameItems as bs
  | _, _ => false

/-- Every entry has an equal one in the other mapping. -/
def sameEntries : List (Key × Value) → List (Key × Value) → Bool
  | [], _ => true
  | (key, a) :: as, bs => (Record.lookup bs key).any (fun b => a.same b) && sameEntries as bs

end

/-- A text equals the same text only. -/
@[simp] theorem same_text {v : Value} {s : String} : v.same (.text s) = true ↔ v = .text s := by
  cases v <;> simp [same, sameScalar, numeric]

/-- Integers are equal as numbers. -/
@[simp] theorem same_number {m n : ℤ} : (number m).same (.number n) = decide (m = n) := by
  simp [same, sameScalar, numeric]

/-- The fields of a mapping; other values have none. -/
def asMapping : Value → Option Record
  | mapping record => some record
  | _ => none

/-- Only mappings have fields. -/
@[simp] theorem asMapping_eq_some {v : Value} {record : Record} : v.asMapping = some record ↔ v = .mapping record := by
  cases v <;> simp [asMapping]

/-- The value is true itself. -/
def isTrue : Value → Bool
  | flag b => b
  | _ => false

/-- Only true is true. -/
@[simp] theorem isTrue_iff {v : Value} : v.isTrue = true ↔ v = .flag true := by
  cases v <;> simp [isTrue]

/-- Values that `hash` accepts. -/
def hashable : Value → Bool
  | list _ | mapping _ => false
  | other hashable _ => hashable
  | _ => true

/-- Membership in a set of texts, which needs a hash. -/
def isOneOf (v : Value) (texts : List String) : Except Fault Bool :=
  if !v.hashable then .error .typeError
  else match v with
    | text s => .ok (s ∈ texts)
    | _ => .ok false

/-- A member of a set of texts is one of the texts. -/
theorem isOneOf_true {v : Value} {texts : List String} :
    v.isOneOf texts = .ok true ↔ ∃ s, v = .text s ∧ s ∈ texts := by
  cases v with
  | other hashable value => cases hashable <;> simp [isOneOf, Value.hashable]
  | _ => simp [isOneOf, Value.hashable]

end Value

/-! ### Shared rules -/

/-- The key-management providers that both scripts support. -/
def supportedProviders : List String := ["aws_kms", "azure_key_vault", "gcp_kms", "pkcs11_hsm"]

/-- The schema of an attestation. -/
def attestationSchema : String := "taxstamp.storage-encryption-attestation.v1"

/-- The storage scopes of an asset. -/
def storageScopes : List String := ["managed-encrypted-service", "host-encrypted-volume"]

/-- The texts that the regular expression `change[_-]?me|placeholder|example|replace|secrets?|password` finds. -/
def placeholderWords : List String :=
  ["changeme", "change_me", "change-me", "placeholder", "example", "replace", "secret", "password"]

/-- The letter that a character matches when case is ignored. -/
def ignoreCase (c : Char) : Char := if c = 'ſ' then 's' else c.toLower

/-- A placeholder word stands somewhere in the text. -/
def hasPlaceholder (value : String) : Bool :=
  (value.toList.map ignoreCase).tails.any fun rest => placeholderWords.any fun word => word.toList.isPrefixOf rest

/-- A text that is neither blank nor a placeholder. -/
def isNonPlaceholder : Value → Bool
  | .text value => !(strip value.toList).isEmpty && !hasPlaceholder value
  | _ => false

/-- What `urlparse` returns. Reading the port can fail. -/
structure ParseResult where
  scheme : String
  netloc : String
  path : String
  query : String
  fragment : String
  username : Option String
  password : Option String
  port : Except Fault (Option ℕ)

/-- The schemes of evidence URIs. -/
def evidenceSchemes : List String := ["https", "s3", "gs", "az", "file"]

/-- An evidence URI without query, fragment and credentials. Splitting the URI can fail. -/
def isEvidenceUri (urlparse : String → Except Fault ParseResult) (value : Value) : Except Fault Bool := do
  let uri := match value with
    | .text uri => uri
    | _ => ""
  let parsed ← urlparse uri
  let plain := isNonPlaceholder value && uri.toList = strip uri.toList && parsed.scheme ∈ evidenceSchemes &&
    parsed.query = "" && parsed.fragment = "" && parsed.username = none && parsed.password = none
  let port := match parsed.port with
    | .ok port => port
    | .error _ => none
  let portReadable := parsed.port.isOk
  let located :=
    if parsed.scheme = "file" then parsed.netloc = "" && parsed.path.startsWith "/"
    else (parsed.scheme = "https" || port = none) && port.all (fun port => 1 ≤ port && port ≤ 65535) &&
      parsed.netloc ≠ "" && parsed.path ≠ "" && parsed.path ≠ "/"
  return plain && portReadable && located

/-- A text that ends in `Z` and is a timestamp with the offset zero in its place. -/
def isUtcTimestamp : Value → Bool
  | .text value =>
    value.toList.getLast? = some 'Z' && (fromIsoformat (value.toList.dropLast ++ "+00:00".toList)).isSome
  | _ => false

/-- A text that strips to nothing is white space. -/
theorem isPySpace_of_strip {text : List Char} (h : strip text = []) {c : Char} (hc : c ∈ text) :
    isPySpace c = true := by
  rw [strip, List.rdropWhile_eq_nil_iff] at h
  rw [← List.takeWhile_append_dropWhile (p := isPySpace) (l := text), List.mem_append] at hc
  obtain hc | hc := hc
  · exact List.mem_takeWhile_imp hc
  · exact h c hc

/-- A timestamp is a text that is not blank. -/
theorem isUtcTimestamp_text {v : Value} (h : isUtcTimestamp v = true) :
    ∃ value, v = .text value ∧ isNonPlaceholder v = !hasPlaceholder value := by
  cases v with
  | text value =>
    refine ⟨value, rfl, ?_⟩
    obtain ⟨hlast, _⟩ := (Bool.and_eq_true _ _).mp h
    have hmem : 'Z' ∈ value.toList := List.mem_of_getLast? (by simpa using hlast)
    have hnonblank : strip value.toList ≠ [] := by
      intro hblank
      cases isPySpace_of_strip hblank hmem
    simp [isNonPlaceholder, hnonblank]
  | _ => cases h

end TaxStamp.StorageEncryption
