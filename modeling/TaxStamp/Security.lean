import TaxStamp.Values

/-!
# Keyed hashes

SHA-256 and HMAC-SHA256 enter the model as functions on byte strings. The services only
compare digests, so nothing here fixes how they are computed; a statement that needs a
property of them says so.
-/

namespace TaxStamp

/-- The hash functions the platform is configured with. -/
structure Crypto where
  sha256 : Bytes → Bytes
  hmacSha256 : Bytes → Bytes → Bytes

/-- The UTF-8 bytes of a text. -/
def utf8 (text : String) : Bytes := text.toList.flatMap String.utf8EncodeChar

/-- Different texts have different bytes. -/
theorem utf8_injective : Function.Injective utf8 := by
  intro a b h
  rw [← String.ofList_toList (s := a), ← String.ofList_toList (s := b), ← String.toByteArray_inj,
    String.toByteArray_ofList, String.toByteArray_ofList]
  exact congrArg List.toByteArray h

/-- The characters of a secure code. -/
def secureCodeAlphabet : List Char := "ABCDEFGHJKLMNPQRSTUVWXYZ23456789".toList

/-- Derive the secure code printed on a stamp. -/
def deriveSecureCode (crypto : Crypto) (serial secret : String) : String :=
  let digest := crypto.hmacSha256 (utf8 secret) (utf8 ("code:" ++ serial))
  String.ofList ((digest.take 12).map fun byte =>
    secureCodeAlphabet.getD (byte.toNat % secureCodeAlphabet.length) 'A')

/-- The keyed hash of a serial and its code, as stored with the stamp. -/
def hashSecureCode (crypto : Crypto) (serial code secret : String) : String :=
  hexText (crypto.hmacSha256 (utf8 secret) (utf8 (serial ++ ":" ++ code)))

/-- The hexadecimal SHA-256 digest of a byte string. -/
def sha256Hex (crypto : Crypto) (payload : Bytes) : String := hexText (crypto.sha256 payload)

/-- The digest of a document's canonical bytes. -/
def canonicalHash (crypto : Crypto) (document : JsonObject) : Except Fault String := do
  let bytes ← canonicalBytes document
  return sha256Hex crypto bytes

/-- A document with its signature and the time it was signed at. -/
structure SignedRequest where
  body : JsonObject
  signature : String
  timestamp : Time

/-- `int(timestamp())`: the seconds are divided to 53 binary digits, half to even, and then truncated. From 2 ^ 34 seconds
on the last digit is coarser than two microseconds, and the end of a second is rounded up to the next. -/
def Time.intTimestamp (t : Time) : ℤ :=
  let whole := t.natAbs / 1000000
  let rest := t.natAbs % 1000000
  let truncated := if 2 * (1000000 - rest) * 2 ^ (52 - whole.log2) ≤ 1000000 then whole + 1 else whole
  if t < 0 then -(truncated : ℤ) else truncated

example : Time.intTimestamp 1772323200999999 = 1772323200 ∧ Time.intTimestamp (-1) = 0 ∧
    Time.intTimestamp 17179869184999998 = 17179869184 ∧ Time.intTimestamp 17179869184999999 = 17179869185 := by decide

/-- The bytes that a signature covers. -/
def signingPayload (body : JsonObject) (timestamp : Time) : Except Fault Bytes := do
  let bytes ← canonicalBytes body
  return asciiBytes ("v1|" ++ toString timestamp.intTimestamp ++ "|").toList ++ bytes

/-- Sign a document. -/
def signRequest (crypto : Crypto) (body : JsonObject) (timestamp : Time) (secret : String) :
    Except Fault String := do
  let payload ← signingPayload body timestamp
  return hexText (crypto.hmacSha256 (utf8 secret) payload)

/-- `hmac.compare_digest` on texts, which must be ASCII. -/
def compareDigest (a b : String) : Except Fault Bool :=
  if (a.toList ++ b.toList).all (·.toNat < 128) then .ok (a = b) else .error .typeError

/-- Verify the signature, then the freshness. -/
def verifySignedRequest (crypto : Crypto) (request : SignedRequest) (secret : String) (now : Time)
    (maxSkewSeconds : ℤ) : Except Fault Unit := do
  let expected ← signRequest crypto request.body request.timestamp secret
  let same ← compareDigest expected request.signature
  if ¬same then .error (.signatureError "signature mismatch")
  let skew : ℤ := (now - request.timestamp).natAbs
  if seconds maxSkewSeconds < skew then
    .error (.signatureError s!"timestamp skew {skew / 1000000}s exceeds {maxSkewSeconds}s")

/-- The settings every service transaction reads. -/
structure Settings where
  crypto : Crypto
  auditChainSecret : String
  deviceHmacSecret : String
  revision : String
  maxOrderQuantity : ℤ

end TaxStamp
