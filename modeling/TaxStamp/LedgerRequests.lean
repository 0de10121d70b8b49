import TaxStamp.Acceptance
import TaxStamp.LedgerParity

/-!
# Requests for ledger intents

A ledger intent has two keys: the payment it posts and the transfer it asks for. A request
that shares neither with an intent adds one, a request that repeats an intent gets it back,
and any other request is refused. The lookup and the insertion are two statements: an
intent that another session commits in between is met by the constraint and looked up
again. A request whose keys belong to two different intents is met by both lookups with two
rows where the code expects one.
-/

namespace TaxStamp

open Lib

/-- The request shares a key with an intent. -/
def LedgerIntentRequest.Meets (request : LedgerIntentRequest) (i : TigerBeetleLedgerIntent) : Prop :=
  i.paymentIntentId = request.paymentIntentId ∨ i.tigerbeetleTransferId = request.tigerbeetleTransferId

/-- The keys of the request do not belong to two different intents. -/
def LedgerIntentRequest.Unsplit (request : LedgerIntentRequest) (rows : List TigerBeetleLedgerIntent) : Prop :=
  ∀ i ∈ rows, ∀ j ∈ rows, request.Meets i → request.Meets j → i = j

/-- The lookup among the intents that were committed when it ran. The session locks what it finds, so it reads those
rows as they are now. -/
def findLedgerIntentAmong (seen : Table tigerbeetleLedgerIntentSchema) (request : LedgerIntentRequest) :
    Session (Option TigerBeetleLedgerIntent) := fun db =>
  match findLedgerIntent request (Tables.tigerbeetleLedgerIntents.set seen db) with
  | .ok (found, _) => .ok (found, db)
  | .error e => .error e

/-- What a checked request does: the lookup, and the insertion when it finds nothing. -/
def upsertLedgerIntent (settings : Settings) (draws : Draws) (checked : LedgerIntentRequest) (payloadHash : String)
    (now : Time) (actor : AuditActor) (seen : Table tigerbeetleLedgerIntentSchema) : Session TigerBeetleLedgerIntent := do
  let existing ← findLedgerIntentAmong seen checked
  match existing with
  | some intent => reuseLedgerIntent intent payloadHash
  | none =>
    let (intent, created) ← insertLedgerIntent checked (newLedgerIntent (draws.uuid 0) checked payloadHash now)
    if created then
      announceLedgerIntent settings draws actor intent now
      return intent
    else
      return intent

/-- `create_ledger_intent` among other sessions: its first lookup has seen the given intents. -/
def createLedgerIntentAmong (settings : Settings) (draws : Draws) (request : LedgerIntentRequest) (now : Time)
    (actor : AuditActor) (seen : Table tigerbeetleLedgerIntentSchema) : Session TigerBeetleLedgerIntent := do
  let checked ← Tx.lift (validateRequest request)
  let payment ← fetch Tables.paymentIntents (fun i => i.id = checked.paymentIntentId)
    (.validationFailed "payment_intent_id does not exist")
  Tx.require (payment.status = .settled)
    (.illegalState "TigerBeetle ledger intent requires a settled payment intent")
  Tx.require (payment.amountMinor = checked.amountMinor ∧ payment.currency = checked.currency)
    (.validationFailed "TigerBeetle intent must match the payment amount and currency")
  let payloadHash ← Tx.lift (canonicalHash settings.crypto (ledgerPayload checked))
  upsertLedgerIntent settings draws checked payloadHash now actor seen

/-- A request that adds an intent adds one message and one audit event with it, and nothing else. -/
def AddsIntent (intent : TigerBeetleLedgerIntent) (db db' : Db) : Prop :=
  ∃ (L : Table tigerbeetleLedgerIntentSchema) (M : Table outboxMessageSchema) (A : Table auditEventSchema)
    (message : OutboxMessage) (event : AuditEvent),
    L.rows = db.tigerbeetleLedgerIntents.rows ++ [intent] ∧
    M.rows = db.outboxMessages.rows ++ [message] ∧ message.eventType = "tigerbeetle.transfer_requested" ∧
    message.aggregateId = intent.id ∧
    A.rows = db.auditEvents.rows ++ [event] ∧ event.action = "tigerbeetle.intent.created" ∧
    event.targetId = intent.id.str ∧
    db' = Tables.auditEvents.set A (Tables.outboxMessages.set M (Tables.tigerbeetleLedgerIntents.set L db))

/-- The three outcomes of a keyed upsert. -/
structure KeyedUpsert (checked : LedgerIntentRequest) (db : Db) (result : Except Fault (TigerBeetleLedgerIntent × Db)) :
    Prop where
  created : (∀ i ∈ db.tigerbeetleLedgerIntents.rows, ¬checked.Meets i) →
    ∃ intent db', result = .ok (intent, db') ∧ intent.material = checked ∧ intent.state = .ready ∧
      AddsIntent intent db db'
  returned : ∀ i ∈ db.tigerbeetleLedgerIntents.rows, checked.Meets i → i.material = checked → result = .ok (i, db)
  refused : (∃ i ∈ db.tigerbeetleLedgerIntents.rows, checked.Meets i) →
    (∀ i ∈ db.tigerbeetleLedgerIntents.rows, checked.Meets i → i.material ≠ checked) →
    ∃ message, result = .error (.conflict message)

/-- The audit event of a new intent. -/
def createdRecord (intent : TigerBeetleLedgerIntent) : AuditRecord where
  action := "tigerbeetle.intent.created"
  targetType := "tigerbeetle_ledger_intent"
  targetId := intent.id.str
  outcome := .success
  afterState := some [("payload_hash", .str intent.payloadHash), ("state", .str intent.state.value)]

/-- No other payload in sight has the digest of the request's payload. -/
def CollisionFree (crypto : Crypto) (request : LedgerIntentRequest) (rows : List TigerBeetleLedgerIntent) : Prop :=
  ∀ i ∈ rows, ∀ bytes bytes', canonicalBytes (ledgerPayload i.material) = .ok bytes →
    canonicalBytes (ledgerPayload request) = .ok bytes' → crypto.sha256 bytes = crypto.sha256 bytes' → bytes = bytes'

/-- What a request is granted from outside: digests of 32 bytes without a collision, identifiers of no other row, and
an audit trail that takes its event. -/
structure RequestGranted (settings : Settings) (draws : Draws) (checked : LedgerIntentRequest) (now : Time)
    (actor : AuditActor) (db : Db) : Prop where
  sha256 : ∀ message, (settings.crypto.sha256 message).length = 32
  collisionFree : CollisionFree settings.crypto checked db.tigerbeetleLedgerIntents.rows
  intent : ∀ i ∈ db.tigerbeetleLedgerIntents.rows, i.id ≠ draws.uuid 0
  message : ∀ m ∈ db.outboxMessages.rows, m.id ≠ draws.uuid 1
  event : ∀ payloadHash, canonicalHash settings.crypto (ledgerPayload checked) = .ok payloadHash →
    (recordAuditEvent settings draws (draws.uuid 2) actor
      (createdRecord (newLedgerIntent (draws.uuid 0) checked payloadHash now)) now db).isOk = true

/-- What the intents and their messages keep: an intent carries the hash of its own material, and a message under
the key of a transfer has its intent. -/
structure Registered (settings : Settings) (db : Db) : Prop where
  hashed : ∀ i ∈ db.tigerbeetleLedgerIntents.rows,
    canonicalHash settings.crypto (ledgerPayload i.material) = .ok i.payloadHash
  announced : ∀ m ∈ db.outboxMessages.rows, ∀ transferId, m.dedupeKey = "tigerbeetle-transfer:" ++ transferId →
    ∃ i ∈ db.tigerbeetleLedgerIntents.rows, i.tigerbeetleTransferId = transferId

variable {settings : Settings} {db db' : Db}

/-! ### The lookup -/

/-- The lookup among all intents is the lookup. -/
theorem findLedgerIntentAmong_self (request : LedgerIntentRequest) (db : Db) :
    findLedgerIntentAmong db.tigerbeetleLedgerIntents request db = findLedgerIntent request db := by
  change (match findLedgerIntent request db with
    | .ok (found, _) => Except.ok (found, db)
    | .error e => .error e) = _
  cases hfound : findLedgerIntent request db with
  | error e => rfl
  | ok r =>
    obtain ⟨found, db'⟩ := r
    rw [findLedgerIntent_ok hfound]

/-- With every committed intent in sight it is the request on its own. -/
theorem createLedgerIntentAmong_self (settings : Settings) (draws : Draws) (request : LedgerIntentRequest) (now : Time)
    (actor : AuditActor) (db : Db) :
    createLedgerIntentAmong settings draws request now actor db.tigerbeetleLedgerIntents db =
      createLedgerIntent settings draws request now actor db := by
  unfold createLedgerIntentAmong createLedgerIntent
  -- Everything before the lookup only reads.
  refine Tx.bind_congr_ok fun checked db₁ h => ?_
  obtain ⟨-, rfl⟩ := Tx.lift_ok.mp h
  refine Tx.bind_congr_ok fun payment db₂ h => ?_
  obtain ⟨-, rfl⟩ := fetch_ok.mp h
  refine Tx.bind_congr_ok fun _ db₃ h => ?_
  obtain ⟨-, rfl⟩ := Tx.require_ok.mp h
  refine Tx.bind_congr_ok fun _ db₄ h => ?_
  obtain ⟨-, rfl⟩ := Tx.require_ok.mp h
  refine Tx.bind_congr_ok fun payloadHash db₅ h => ?_
  obtain ⟨-, rfl⟩ := Tx.lift_ok.mp h
  have hfind := findLedgerIntentAmong_self checked db
  unfold upsertLedgerIntent
  cases hfound : findLedgerIntent checked db with
  | error e => rw [Tx.bind_of_error _ hfound, Tx.bind_of_error _ (hfind.trans hfound)]
  | ok r =>
    obtain ⟨found, db'⟩ := r
    refine (Tx.bind_of_ok _ (hfind.trans hfound)).trans (Eq.trans ?_ (Tx.bind_of_ok _ hfound).symm)
    rfl

section Lookup

variable {request : LedgerIntentRequest} {seen : Table tigerbeetleLedgerIntentSchema} {i j : TigerBeetleLedgerIntent}

/-- The condition of the lookup is that a key is shared. -/
theorem meets_iff : (i.paymentIntentId = request.paymentIntentId ||
    i.tigerbeetleTransferId = request.tigerbeetleTransferId : Bool) = true ↔ request.Meets i := by
  simp [LedgerIntentRequest.Meets]

/-- A lookup finds nothing when no intent shares a key. -/
theorem findLedgerIntentAmong_none (hnone : ∀ i ∈ seen.rows, ¬request.Meets i) (db : Db) :
    findLedgerIntentAmong seen request db = .ok (none, db) := by
  have hfilter : seen.rows.filter (fun i => i.paymentIntentId = request.paymentIntentId ||
      i.tigerbeetleTransferId = request.tigerbeetleTransferId) = [] :=
    List.filter_eq_nil_iff.mpr fun i hi hmeets => hnone i hi (meets_iff.mp hmeets)
  have hfind : findLedgerIntent request (Tables.tigerbeetleLedgerIntents.set seen db) = .ok (none, _) :=
    selectOne_none.mpr ⟨hfilter, rfl⟩
  rw [findLedgerIntentAmong, hfind]

/-- A lookup finds the only intent that shares a key. -/
theorem findLedgerIntentAmong_some (hunsplit : request.Unsplit seen.rows) (hi : i ∈ seen.rows) (hmeets : request.Meets i)
    (db : Db) : findLedgerIntentAmong seen request db = .ok (some i, db) := by
  have hfilter : seen.rows.filter (fun i => i.paymentIntentId = request.paymentIntentId ||
      i.tigerbeetleTransferId = request.tigerbeetleTransferId) = [i] := by
    refine seen.filter_eq_singleton hi (meets_iff.mpr hmeets) fun j hj hmeets' => ?_
    rw [hunsplit j hj i hi (meets_iff.mp hmeets') hmeets]
    simp [tigerbeetleLedgerIntentSchema]
  have hfind : findLedgerIntent request (Tables.tigerbeetleLedgerIntents.set seen db) = .ok (some i, _) :=
    selectOne_some.mpr ⟨hfilter, rfl⟩
  rw [findLedgerIntentAmong, hfind]

/-- A lookup fails when the keys belong to two intents. -/
theorem findLedgerIntentAmong_split (hsplit : ¬request.Unsplit seen.rows) (db : Db) :
    findLedgerIntentAmong seen request db = .error .multipleResultsFound := by
  unfold LedgerIntentRequest.Unsplit at hsplit
  push Not at hsplit
  obtain ⟨i, hi, j, hj, hmeets, hmeets', hne⟩ := hsplit
  unfold findLedgerIntentAmong
  rcases hfind : findLedgerIntent request (Tables.tigerbeetleLedgerIntents.set seen db) with e | ⟨found, db'⟩
  · unfold findLedgerIntent scalarOneOrNone selectOne at hfind
    split at hfind
    · cases hfind
    · cases hfind
    · rw [← Except.error.inj hfind]
  · exfalso
    have hfound : ∀ k ∈ seen.rows, request.Meets k → k ∈ seen.rows.filter (fun i =>
        i.paymentIntentId = request.paymentIntentId || i.tigerbeetleTransferId = request.tigerbeetleTransferId) :=
      fun k hk hmeets => List.mem_filter.mpr ⟨hk, meets_iff.mpr hmeets⟩
    have hin := hfound i hi hmeets
    have hjn := hfound j hj hmeets'
    cases found with
    | none =>
      rw [(selectOne_none.mp hfind).1] at hin
      cases hin
    | some k =>
      rw [(selectOne_some.mp hfind).1, List.mem_singleton] at hin hjn
      exact hne (hin.trans hjn.symm)

/-- Two intents that share a key are one. -/
theorem ledgerIntent_eq_of_meets (db : Db) (hi : i ∈ db.tigerbeetleLedgerIntents.rows)
    (hj : j ∈ db.tigerbeetleLedgerIntents.rows) (hmeets : j.material.Meets i) : i = j := by
  refine db.tigerbeetleLedgerIntents.eq_of_clash hi hj ?_
  simp only [tigerbeetleLedgerIntentSchema, decide_eq_true_eq]
  exact .inr hmeets

end Lookup

/-! ### The hash of the material -/

/-- Requests with the same payload are the same. -/
theorem ledgerPayload_injective {a b : LedgerIntentRequest}
    (h : (Json.obj (ledgerPayload a)).Same (Json.obj (ledgerPayload b))) : a = b := by
  have hnodup : ((ledgerPayload b).map Prod.fst).Nodup := by
    simp only [ledgerPayload, List.map_cons, List.map_nil]
    decide
  have hvalues := h.values rfl hnodup
  simp only [ledgerPayload, List.forall₂_cons, List.forall₂_nil_left_iff, and_true] at hvalues
  obtain ⟨hamount, hcredit, hcurrency, hdebit, hledger, hpayment, htransfer, hcode, hflags⟩ := hvalues
  cases a
  cases b
  simp only [LedgerIntentRequest.mk.injEq]
  exact ⟨Uuid.str_injective hpayment.str, htransfer.str, hdebit.str, hcredit.str, Json.int.inj hledger,
    Json.int.inj hcode, Json.int.inj hflags, Json.int.inj hamount, hcurrency.str⟩

/-- The payload of a request has canonical bytes. -/
theorem canonicalBytes_ledgerPayload (request : LedgerIntentRequest) :
    ∃ bytes, canonicalBytes (ledgerPayload request) = .ok bytes := by
  refine ⟨_, if_neg ?_⟩
  simp [ledgerPayload, Json.occurs, Json.occursField, Json.isFloat]

/-- An intent carries the hash of a request exactly when it is what the request asks for. -/
theorem Registered.hash_eq_iff (h : Registered settings db) {request : LedgerIntentRequest} {payloadHash : String}
    {i : TigerBeetleLedgerIntent} (hi : i ∈ db.tigerbeetleLedgerIntents.rows)
    (hhash : canonicalHash settings.crypto (ledgerPayload request) = .ok payloadHash)
    (hfree : CollisionFree settings.crypto request db.tigerbeetleLedgerIntents.rows) :
    i.payloadHash = payloadHash ↔ i.material = request := by
  have hsealed := h.hashed i hi
  constructor
  · intro heq
    obtain ⟨bytes, hbytes⟩ := canonicalBytes_ledgerPayload i.material
    obtain ⟨bytes', hbytes'⟩ := canonicalBytes_ledgerPayload request
    have hdigest : canonicalHash settings.crypto (ledgerPayload i.material) = .ok (sha256Hex settings.crypto bytes) := by
      rw [canonicalHash, hbytes]
      rfl
    have hdigest' : canonicalHash settings.crypto (ledgerPayload request) = .ok (sha256Hex settings.crypto bytes') := by
      rw [canonicalHash, hbytes']
      rfl
    rw [hsealed] at hdigest
    rw [hhash, ← heq] at hdigest'
    have hsame := hexText_injective (Except.ok.inj (hdigest.symm.trans hdigest'))
    rw [hfree i hi bytes bytes' hbytes hbytes' hsame] at hbytes
    exact ledgerPayload_injective (canonicalBytes_same hbytes hbytes')
  · intro heq
    rw [heq, hhash] at hsealed
    exact (Except.ok.inj hsealed).symm

/-! ### The insertion -/

/-- A request as the validation lets it through. -/
structure LedgerIntentRequest.Checked (checked : LedgerIntentRequest) : Prop where
  transferId : lowerHex 32 checked.tigerbeetleTransferId = true
  debit : lowerHex 32 checked.debitAccountId = true
  credit : lowerHex 32 checked.creditAccountId = true
  differ : checked.debitAccountId ≠ checked.creditAccountId
  amountMinor : 0 < checked.amountMinor
  ledgerCode : 0 < checked.ledgerCode ∧ checked.ledgerCode ≤ 4294967295
  transferCode : 0 ≤ checked.transferCode ∧ checked.transferCode ≤ 65535
  transferFlags : 0 ≤ checked.transferFlags
  currency : checked.currency.length = 3 ∧ checked.currency.toList.all Char.isAlpha = true
  upper : checked.currency = checked.currency.toUpper

/-- A normalised identifier has 32 digits. -/
theorem lowerHex_of_normaliseId {value field id : String} (h : normaliseId value field = .ok id) :
    lowerHex 32 id = true := by
  unfold normaliseId at h
  split at h
  · rename_i hdigits
    rw [← Except.ok.inj h]
    simpa only [lowerHex, Bool.and_eq_true, decide_eq_true_eq] using hdigits
  · cases h

/-- An upper-case character is its own upper case. -/
theorem toUpper_toUpper (c : Char) : c.toUpper.toUpper = c.toUpper := by
  unfold Char.toUpper
  split
  · rename_i hlower
    split
    · rename_i hagain
      have hlow : 97 ≤ c.val.toNat := UInt32.le_iff_toNat_le.mp hlower.1
      have hbound : c.val.toNat ≤ 122 := UInt32.le_iff_toNat_le.mp hlower.2
      have hvalue : (c.val + ('A'.val - 'a'.val)).toNat = c.val.toNat - 32 := by
        rw [UInt32.toNat_add]
        change (c.val.toNat + 4294967264) % 4294967296 = _
        omega
      have hhigh : 97 ≤ (c.val + ('A'.val - 'a'.val)).toNat := UInt32.le_iff_toNat_le.mp hagain.1
      omega
    · rfl
  · rfl

/-- The upper case of a character is upper-case. -/
theorem toUpper_of_mem_upperAscii {c d : Char} (h : d ∈ upperAscii c) : d.toUpper = d := by
  unfold upperAscii at h
  split_ifs at h
  all_goals simp only [List.mem_cons, List.not_mem_nil, or_false] at h
  case neg => rw [h, toUpper_toUpper]
  all_goals first | (rw [h]; decide) | (rcases h with rfl | rfl | rfl <;> decide)

/-- What the validation checks. -/
theorem checked_of_validateRequest {request checked : LedgerIntentRequest} (h : validateRequest request = .ok checked) :
    checked.Checked := by
  simp only [validateRequest, Except.bind_ok] at h
  obtain ⟨transferId, htransfer, debit, hdebit, credit, hcredit, h⟩ := h
  split_ifs at h with hsame hamount hledger hcode hflags hcurrency
  obtain rfl := Except.ok.inj h
  push Not at hledger hcode hcurrency
  refine ⟨lowerHex_of_normaliseId htransfer, lowerHex_of_normaliseId hdebit, lowerHex_of_normaliseId hcredit, hsame,
    by simpa using hamount, hledger, hcode, by simpa using hflags, hcurrency, ?_⟩
  rw [← String.toList_inj, String.toUpper, String.toList_map, String.toList_ofList]
  have hupper : ∀ d ∈ request.currency.toList.flatMap upperAscii, d.toUpper = d := by
    intro d hd
    obtain ⟨c, -, hc⟩ := List.mem_flatMap.mp hd
    exact toUpper_of_mem_upperAscii hc
  exact ((List.map_congr_left hupper).trans (List.map_id' _)).symm

/-- The digits of a digest are hexadecimal. -/
theorem lowerHex_hexText {digest : Bytes} (h : digest.length = 32) : lowerHex 64 (hexText digest) = true := by
  have hdigits : ∀ n < 16, isLowerHex (Nat.digitChar n) = true := by decide
  simp only [lowerHex, Bool.and_eq_true, decide_eq_true_eq, hexText, String.length_ofList, String.toList_ofList,
    List.length_flatMap, List.all_eq_true]
  refine ⟨by simp [h], fun c hc => ?_⟩
  obtain ⟨byte, -, hbyte⟩ := List.mem_flatMap.mp hc
  obtain ⟨n, hn, rfl⟩ := List.mem_map.mp hbyte
  have hlt := byte.toNat_lt
  refine hdigits n ?_
  simp only [List.mem_cons, List.not_mem_nil, or_false] at hn
  omega

section Insertion

variable {checked : LedgerIntentRequest} {intentId : Uuid} {payloadHash : String} {now : Time}

/-- The row of a checked request fits unless its flags are too large. -/
theorem LedgerIntentRequest.Checked.fits (h : checked.Checked) (hamount : bigint checked.amountMinor = true) :
    tigerbeetleLedgerIntentSchema.fits (newLedgerIntent intentId checked payloadHash now) =
      decide (checked.transferFlags < 2 ^ 63) := by
  have hcurrency : varchar 3 checked.currency = true := by
    refine varchar_iff.mpr ⟨h.currency.1.le, fun hnul => ?_⟩
    have halpha := List.all_eq_true.mp h.currency.2 _ hnul
    exact absurd halpha (by decide)
  have hledger := h.ledgerCode
  have hcode := h.transferCode
  have hflags := h.transferFlags
  have hledger' : bigint checked.ledgerCode = true := by
    simp only [bigint, Bool.and_eq_true, decide_eq_true_eq]
    omega
  have hcode' : integer checked.transferCode = true := by
    simp only [integer, Bool.and_eq_true, decide_eq_true_eq]
    omega
  have hflags' : bigint checked.transferFlags = decide (checked.transferFlags < 2 ^ 63) := by
    have hlow : -2 ^ 63 ≤ checked.transferFlags := by omega
    simp only [bigint, hlow, decide_true, Bool.true_and]
  have hzero : integer 0 = true := by decide
  simp only [tigerbeetleLedgerIntentSchema, newLedgerIntent, hledger', hcode', hflags', hamount, hzero, hcurrency,
    Option.all_none, Bool.true_and, Bool.and_true]

/-- The row of a checked request passes its CHECK. -/
theorem LedgerIntentRequest.Checked.check (h : checked.Checked) (hhash : lowerHex 64 payloadHash = true) :
    tigerbeetleLedgerIntentSchema.check (newLedgerIntent intentId checked payloadHash now) = true := by
  have hupper := h.upper
  have hlength := h.currency.1
  simp only [tigerbeetleLedgerIntentSchema, newLedgerIntent, Bool.and_eq_true, decide_eq_true_eq]
  exact ⟨⟨⟨⟨⟨⟨⟨⟨⟨⟨⟨⟨⟨h.amountMinor, h.differ⟩, h.ledgerCode.1⟩, h.ledgerCode.2⟩, h.transferCode.1⟩,
    h.transferCode.2⟩, h.transferFlags⟩, le_refl 0⟩, hlength⟩, hupper⟩, h.transferId⟩, h.debit⟩, h.credit⟩, hhash⟩

/-- The row of a checked request is appended when no row shares its keys. -/
theorem insertLedgerIntent_of_free (h : checked.Checked) (hamount : bigint checked.amountMinor = true)
    (hhash : lowerHex 64 payloadHash = true) (hflags : checked.transferFlags < 2 ^ 63)
    (hid : ∀ i ∈ db.tigerbeetleLedgerIntents.rows, i.id ≠ intentId)
    (hfree : ∀ i ∈ db.tigerbeetleLedgerIntents.rows, ¬checked.Meets i) :
    ∃ L : Table tigerbeetleLedgerIntentSchema,
      L.rows = db.tigerbeetleLedgerIntents.rows ++ [newLedgerIntent intentId checked payloadHash now] ∧
      insertLedgerIntent checked (newLedgerIntent intentId checked payloadHash now) db =
        .ok ((newLedgerIntent intentId checked payloadHash now, true), Tables.tigerbeetleLedgerIntents.set L db) := by
  have haccepts : db.tigerbeetleLedgerIntents.Accepts (newLedgerIntent intentId checked payloadHash now) := by
    refine ⟨by rw [h.fits hamount, decide_eq_true hflags], h.check hhash, fun i hi => ?_⟩
    simp only [tigerbeetleLedgerIntentSchema, newLedgerIntent, decide_eq_false_iff_not, not_or]
    exact ⟨hid i hi, not_or.mp (hfree i hi)⟩
  obtain ⟨L, hL⟩ := Table.exists_append_iff.mpr haccepts
  refine ⟨L, hL, ?_⟩
  rw [insertLedgerIntent, Table.insert_ok.mpr hL]

/-- A row whose flags are too large is rejected by its column. -/
theorem insertLedgerIntent_of_large (h : checked.Checked) (hamount : bigint checked.amountMinor = true)
    (hflags : ¬checked.transferFlags < 2 ^ 63) (db : Db) :
    insertLedgerIntent checked (newLedgerIntent intentId checked payloadHash now) db = .error .dataError := by
  have hfits : tigerbeetleLedgerIntentSchema.fits (newLedgerIntent intentId checked payloadHash now) = false := by
    rw [h.fits hamount, decide_eq_false hflags]
  rw [insertLedgerIntent, Table.insert_of_not_fits hfits]

/-- A row that shares a key is rejected by a constraint, and the lookup is repeated. -/
theorem insertLedgerIntent_of_meets (h : checked.Checked) (hamount : bigint checked.amountMinor = true)
    (hflags : checked.transferFlags < 2 ^ 63) {i : TigerBeetleLedgerIntent} (hi : i ∈ db.tigerbeetleLedgerIntents.rows)
    (hmeets : checked.Meets i) :
    insertLedgerIntent checked (newLedgerIntent intentId checked payloadHash now) db =
      (do
        let found ← findLedgerIntentAmong db.tigerbeetleLedgerIntents checked
        let existing ← Tx.orRefuse found .noResultFound
        let intent ← reuseLedgerIntent existing payloadHash
        return (intent, false) : Session (TigerBeetleLedgerIntent × Bool)) db := by
  have hfits : tigerbeetleLedgerIntentSchema.fits (newLedgerIntent intentId checked payloadHash now) = true := by
    rw [h.fits hamount, decide_eq_true hflags]
  have hclash : tigerbeetleLedgerIntentSchema.clash i (newLedgerIntent intentId checked payloadHash now) = true := by
    simp only [tigerbeetleLedgerIntentSchema, newLedgerIntent, decide_eq_true_eq]
    exact .inr hmeets
  rw [insertLedgerIntent, Table.insert_of_clash hfits hi hclash]
  cases hfind : findLedgerIntent checked db with
  | error e => rw [Tx.bind_of_error _ hfind, Tx.bind_of_error _ ((findLedgerIntentAmong_self checked db).trans hfind)]
  | ok r =>
    obtain ⟨found, db'⟩ := r
    rw [Tx.bind_of_ok _ hfind, Tx.bind_of_ok _ ((findLedgerIntentAmong_self checked db).trans hfind)]
    rfl

end Insertion

/-! ### The outcomes -/

/-- What is answered when an intent is found. -/
theorem reuseLedgerIntent_eq (i : TigerBeetleLedgerIntent) (payloadHash : String) (db : Db) :
    reuseLedgerIntent i payloadHash db = if i.payloadHash = payloadHash then .ok (i, db) else
      .error (.conflict "existing TigerBeetle ledger intent has different immutable transfer material") := by
  by_cases hhash : i.payloadHash = payloadHash
  · rw [if_pos hhash, reuseLedgerIntent, Tx.bind_of_ok (a := ()) _ (Tx.require_ok.mpr ⟨hhash, rfl⟩)]
    rfl
  · rw [if_neg hhash, reuseLedgerIntent]
    refine Tx.bind_of_error _ ?_
    rw [Tx.require, if_neg hhash]

section Outcomes

variable {draws : Draws} {checked : LedgerIntentRequest} {payloadHash : String} {now : Time} {actor : AuditActor}
  {seen : Table tigerbeetleLedgerIntentSchema} {result : Except Fault (TigerBeetleLedgerIntent × Db)}

/-- The answer about a found intent is one of the three outcomes. -/
theorem KeyedUpsert.of_found (hregistered : Registered settings db)
    (hhash : canonicalHash settings.crypto (ledgerPayload checked) = .ok payloadHash)
    (hfree : CollisionFree settings.crypto checked db.tigerbeetleLedgerIntents.rows) {i : TigerBeetleLedgerIntent}
    (hi : i ∈ db.tigerbeetleLedgerIntents.rows) (hmeets : checked.Meets i)
    (hresult : result = reuseLedgerIntent i payloadHash db) : KeyedUpsert checked db result := by
  rw [reuseLedgerIntent_eq] at hresult
  refine ⟨fun hnone => absurd hmeets (hnone i hi), fun k hk hmeets' hmaterial => ?_, fun _ hdiffer => ?_⟩
  · -- The request repeats `k`, so what shares a key with the request shares it with `k`.
    have hsame : i = k := by
      refine ledgerIntent_eq_of_meets db hi hk ?_
      rw [hmaterial]
      exact hmeets
    rw [hresult, hsame, if_pos ((hregistered.hash_eq_iff hk hhash hfree).mpr hmaterial)]
  · have hne : i.payloadHash ≠ payloadHash := fun heq =>
      hdiffer i hi hmeets ((hregistered.hash_eq_iff hi hhash hfree).mp heq)
    exact ⟨_, by rw [hresult, if_neg hne]⟩

/-- A failure other than a conflict is none of the three outcomes. -/
theorem not_keyedUpsert_of_error {e : Fault} (he : ∀ message, e ≠ .conflict message) :
    ¬KeyedUpsert checked db (.error e) := by
  intro h
  by_cases hnone : ∀ i ∈ db.tigerbeetleLedgerIntents.rows, ¬checked.Meets i
  · obtain ⟨intent, db', hok, -⟩ := h.created hnone
    cases hok
  · push Not at hnone
    by_cases hsame : ∃ i ∈ db.tigerbeetleLedgerIntents.rows, checked.Meets i ∧ i.material = checked
    · obtain ⟨i, hi, hmeets, hmaterial⟩ := hsame
      cases h.returned i hi hmeets hmaterial
    · push Not at hsame
      obtain ⟨message, herror⟩ := h.refused hnone hsame
      exact he message (Except.error.inj herror)

/-- A new intent is announced by one message and one event. -/
theorem announceLedgerIntent_of_granted (hchecked : checked.Checked) (hregistered : Registered settings db)
    (hgranted : RequestGranted settings draws checked now actor db)
    (hhash : canonicalHash settings.crypto (ledgerPayload checked) = .ok payloadHash)
    (hnone : ∀ i ∈ db.tigerbeetleLedgerIntents.rows, ¬checked.Meets i) {L : Table tigerbeetleLedgerIntentSchema}
    (hL : L.rows = db.tigerbeetleLedgerIntents.rows ++ [newLedgerIntent (draws.uuid 0) checked payloadHash now]) :
    ∃ db', announceLedgerIntent settings draws actor (newLedgerIntent (draws.uuid 0) checked payloadHash now) now
        (Tables.tigerbeetleLedgerIntents.set L db) = .ok ((), db') ∧
      AddsIntent (newLedgerIntent (draws.uuid 0) checked payloadHash now) db db' := by
  have hkey : varchar 200 ("tigerbeetle-transfer:" ++ checked.tigerbeetleTransferId) = true := by
    have htransfer := hchecked.transferId
    simp only [lowerHex, Bool.and_eq_true, decide_eq_true_eq] at htransfer
    refine (varchar_append (by decide)).mpr ⟨?_, fun hnul => ?_⟩
    · have hprefix : "tigerbeetle-transfer:".length = 21 := by decide
      omega
    · exact absurd (List.all_eq_true.mp htransfer.2 _ hnul) (by decide)
  have haccepts : db.outboxMessages.Accepts (.pending (draws.uuid 1) "tigerbeetle_ledger_intent" (draws.uuid 0)
      "tigerbeetle.transfer_requested" ("tigerbeetle-transfer:" ++ checked.tigerbeetleTransferId)
      [("intent_id", .str (draws.uuid 0).str)] now) := by
    refine ⟨?_, rfl, fun m hm => ?_⟩
    · have hpayload : jsonb (.obj [("intent_id", .str (draws.uuid 0).str)]) = true := by
        simp [jsonb, Json.occurs, Json.occursField, Json.isNulText, Uuid.nul_not_mem_str]
      simp only [outboxMessageSchema, OutboxMessage.pending, hkey, hpayload, Option.all_none, Bool.and_true]
      decide
    · simp only [outboxMessageSchema, OutboxMessage.pending, decide_eq_false_iff_not, not_or]
      refine ⟨hgranted.message m hm, fun htaken => ?_⟩
      obtain ⟨i, hi, hsame⟩ := hregistered.announced m hm _ htaken
      exact hnone i hi (.inr hsame)
  obtain ⟨M, hM, henqueue⟩ := enqueue_of_accepts (Tables.tigerbeetleLedgerIntents.set L db) haccepts
  rcases hrecord : recordAuditEvent settings draws (draws.uuid 2) actor
      (createdRecord (newLedgerIntent (draws.uuid 0) checked payloadHash now)) now db with e | ⟨event, after⟩
  · have htakes := hgranted.event payloadHash hhash
    rw [hrecord] at htakes
    cases htakes
  · obtain ⟨A, rfl, hframe⟩ := recordAuditEvent_frame hrecord
      (show (Tables.outboxMessages.set M (Tables.tigerbeetleLedgerIntents.set L db)).auditEvents = db.auditEvents from rfl)
    have hA : A.rows = db.auditEvents.rows ++ [event] ∧ event.action = "tigerbeetle.intent.created" ∧
        event.targetId = (draws.uuid 0).str := by
      simp only [recordAuditEvent, lastAuditEvent, Tx.bind_ok, selectFirst_ok, Tx.lift_ok, insertRow_ok,
        Tx.pure_ok, List.filter_true] at hrecord
      obtain ⟨last, db₁, ⟨-, rfl⟩, hash, db₂, ⟨-, rfl⟩, -, db₃, ⟨A', hA', rfl⟩, rfl, hafter⟩ := hrecord
      have hsame : A' = A := congrArg Db.auditEvents hafter
      rw [← hsame]
      exact ⟨hA', rfl, rfl⟩
    refine ⟨_, ?_, L, M, A, _, event, hL, hM, rfl, rfl, hA.1, hA.2.1, hA.2.2, rfl⟩
    exact (Tx.bind_of_ok _ henqueue).trans ((Tx.bind_of_ok _ hframe).trans rfl)

/-- When the first lookup finds nothing, the insertion decides. -/
theorem upsertLedgerIntent_of_none (hnone : ∀ i ∈ seen.rows, ¬checked.Meets i) (db : Db) :
    upsertLedgerIntent settings draws checked payloadHash now actor seen db =
      (insertLedgerIntent checked (newLedgerIntent (draws.uuid 0) checked payloadHash now) >>= fun inserted =>
        if inserted.2 then do
          announceLedgerIntent settings draws actor inserted.1 now
          return inserted.1
        else return inserted.1 : Session TigerBeetleLedgerIntent) db :=
  Tx.bind_of_ok _ (findLedgerIntentAmong_none hnone db)

/-- A constraint that meets the only intent with a key is answered from that intent. -/
theorem upsertLedgerIntent_of_meets (hchecked : checked.Checked) (hamount : bigint checked.amountMinor = true)
    (hnone : ∀ i ∈ seen.rows, ¬checked.Meets i) (hflags : checked.transferFlags < 2 ^ 63)
    (hunsplit : checked.Unsplit db.tigerbeetleLedgerIntents.rows) {i : TigerBeetleLedgerIntent}
    (hi : i ∈ db.tigerbeetleLedgerIntents.rows) (hmeets : checked.Meets i) :
    upsertLedgerIntent settings draws checked payloadHash now actor seen db = reuseLedgerIntent i payloadHash db := by
  rw [upsertLedgerIntent_of_none hnone]
  have hfind := findLedgerIntentAmong_some hunsplit hi hmeets db
  have hrefuse : Tx.orRefuse (some i) Fault.noResultFound db = .ok (i, db) := Tx.orRefuse_ok.mpr ⟨rfl, rfl⟩
  have hinsert : insertLedgerIntent checked (newLedgerIntent (draws.uuid 0) checked payloadHash now) db = _ :=
    insertLedgerIntent_of_meets hchecked hamount hflags hi hmeets
  cases hreuse : reuseLedgerIntent i payloadHash db with
  | error e =>
    refine Tx.bind_of_error _ (hinsert.trans ?_)
    exact (Tx.bind_of_ok _ hfind).trans ((Tx.bind_of_ok _ hrefuse).trans (Tx.bind_of_error _ hreuse))
  | ok r =>
    obtain ⟨k, db'⟩ := r
    have hreused : insertLedgerIntent checked (newLedgerIntent (draws.uuid 0) checked payloadHash now) db =
        .ok ((k, false), db') :=
      hinsert.trans ((Tx.bind_of_ok _ hfind).trans ((Tx.bind_of_ok _ hrefuse).trans (Tx.bind_of_ok _ hreuse)))
    exact (Tx.bind_of_ok _ hreused).trans rfl

/-- A constraint that meets two intents leaves the second lookup with both. -/
theorem upsertLedgerIntent_of_split (hchecked : checked.Checked) (hamount : bigint checked.amountMinor = true)
    (hnone : ∀ i ∈ seen.rows, ¬checked.Meets i) (hflags : checked.transferFlags < 2 ^ 63)
    (hsplit : ¬checked.Unsplit db.tigerbeetleLedgerIntents.rows) :
    upsertLedgerIntent settings draws checked payloadHash now actor seen db = .error .multipleResultsFound := by
  rw [upsertLedgerIntent_of_none hnone]
  have hfind := findLedgerIntentAmong_split hsplit db
  unfold LedgerIntentRequest.Unsplit at hsplit
  push Not at hsplit
  obtain ⟨i, hi, j, hj, hmeets, -⟩ := hsplit
  exact Tx.bind_of_error _
    ((insertLedgerIntent_of_meets hchecked hamount hflags hi hmeets).trans (Tx.bind_of_error _ hfind))

/-- A request that meets no intent adds one. -/
theorem upsertLedgerIntent_of_free (hchecked : checked.Checked) (hamount : bigint checked.amountMinor = true)
    (hregistered : Registered settings db) (hgranted : RequestGranted settings draws checked now actor db)
    (hhash : canonicalHash settings.crypto (ledgerPayload checked) = .ok payloadHash)
    (hseen : ∀ i ∈ seen.rows, ¬checked.Meets i) (hflags : checked.transferFlags < 2 ^ 63)
    (hnone : ∀ i ∈ db.tigerbeetleLedgerIntents.rows, ¬checked.Meets i) :
    ∃ db', upsertLedgerIntent settings draws checked payloadHash now actor seen db =
        .ok (newLedgerIntent (draws.uuid 0) checked payloadHash now, db') ∧
      AddsIntent (newLedgerIntent (draws.uuid 0) checked payloadHash now) db db' := by
  have hdigest : lowerHex 64 payloadHash = true := by
    obtain ⟨bytes, hbytes⟩ := canonicalBytes_ledgerPayload checked
    rw [canonicalHash, hbytes] at hhash
    rw [← Except.ok.inj hhash]
    exact lowerHex_hexText (hgranted.sha256 bytes)
  obtain ⟨L, hL, hinsert⟩ : ∃ L : Table tigerbeetleLedgerIntentSchema,
      L.rows = db.tigerbeetleLedgerIntents.rows ++ [newLedgerIntent (draws.uuid 0) checked payloadHash now] ∧ _ :=
    insertLedgerIntent_of_free hchecked hamount hdigest hflags hgranted.intent hnone
  obtain ⟨db', hannounce, hadds⟩ := announceLedgerIntent_of_granted hchecked hregistered hgranted hhash hnone hL
  refine ⟨db', ?_, hadds⟩
  rw [upsertLedgerIntent_of_none hseen]
  exact (Tx.bind_of_ok _ hinsert).trans ((Tx.bind_of_ok _ hannounce).trans rfl)

/-- What a checked request does is one of the three outcomes exactly when the lookup that decides does not meet two
intents and, where the row is inserted, its flags fit. -/
theorem upsertLedgerIntent_iff (hchecked : checked.Checked) (hamount : bigint checked.amountMinor = true)
    (hregistered : Registered settings db) (hgranted : RequestGranted settings draws checked now actor db)
    (hhash : canonicalHash settings.crypto (ledgerPayload checked) = .ok payloadHash)
    (hseen : ∀ i ∈ seen.rows, i ∈ db.tigerbeetleLedgerIntents.rows) :
    KeyedUpsert checked db (upsertLedgerIntent settings draws checked payloadHash now actor seen db) ↔
      checked.Unsplit seen.rows ∧ ((∀ i ∈ seen.rows, ¬checked.Meets i) →
        checked.transferFlags < 2 ^ 63 ∧ checked.Unsplit db.tigerbeetleLedgerIntents.rows) := by
  have hfound : ∀ {i}, i ∈ db.tigerbeetleLedgerIntents.rows → checked.Meets i → ∀ {result},
      result = reuseLedgerIntent i payloadHash db → KeyedUpsert checked db result :=
    fun hi hmeets _ hresult => .of_found hregistered hhash hgranted.collisionFree hi hmeets hresult
  have hfailed : ∀ {e}, (∀ message, e ≠ .conflict message) →
      upsertLedgerIntent settings draws checked payloadHash now actor seen db = .error e →
      ¬KeyedUpsert checked db (upsertLedgerIntent settings draws checked payloadHash now actor seen db) := by
    intro e he herror
    rw [herror]
    exact not_keyedUpsert_of_error he
  by_cases hsplit : checked.Unsplit seen.rows
  · by_cases hmeets : ∃ i ∈ seen.rows, checked.Meets i
    · obtain ⟨i, hi, hmeets⟩ := hmeets
      refine iff_of_true (hfound (hseen i hi) hmeets ?_) ⟨hsplit, fun hnone => absurd hmeets (hnone i hi)⟩
      exact Tx.bind_of_ok _ (findLedgerIntentAmong_some hsplit hi hmeets db)
    · push Not at hmeets
      refine Iff.trans ?_ ⟨fun h => ⟨hsplit, fun _ => h⟩, fun h => h.2 hmeets⟩
      by_cases hflags : checked.transferFlags < 2 ^ 63
      · by_cases hunsplit : checked.Unsplit db.tigerbeetleLedgerIntents.rows
        · refine iff_of_true ?_ ⟨hflags, hunsplit⟩
          by_cases hmet : ∃ i ∈ db.tigerbeetleLedgerIntents.rows, checked.Meets i
          · obtain ⟨i, hi, hmet⟩ := hmet
            exact hfound hi hmet (upsertLedgerIntent_of_meets hchecked hamount hmeets hflags hunsplit hi hmet)
          · push Not at hmet
            obtain ⟨db', hresult, hadds⟩ :=
              upsertLedgerIntent_of_free hchecked hamount hregistered hgranted hhash hmeets hflags hmet
            exact ⟨fun _ => ⟨_, db', hresult, rfl, rfl, hadds⟩, fun i hi hmeets' => absurd hmeets' (hmet i hi),
              fun ⟨i, hi, hmeets'⟩ => absurd hmeets' (hmet i hi)⟩
        · refine iff_of_false ?_ fun h => hunsplit h.2
          exact hfailed (fun _ h => by cases h) (upsertLedgerIntent_of_split hchecked hamount hmeets hflags hunsplit)
      · refine iff_of_false (hfailed (e := .dataError) (fun _ h => by cases h) ?_) fun h => hflags h.1
        rw [upsertLedgerIntent_of_none hmeets]
        exact Tx.bind_of_error _ (insertLedgerIntent_of_large hchecked hamount hflags db)
  · refine iff_of_false (hfailed (e := .multipleResultsFound) (fun _ h => by cases h) ?_) fun h => hsplit h.1
    exact Tx.bind_of_error _ (findLedgerIntentAmong_split hsplit db)

end Outcomes

/-! ### What a run keeps -/

/-- Every intent is an old one in its material and its hash. -/
def MaterialFrom (db db' : Db) : Prop :=
  ∀ i' ∈ db'.tigerbeetleLedgerIntents.rows, ∃ i ∈ db.tigerbeetleLedgerIntents.rows,
    i'.material = i.material ∧ i'.payloadHash = i.payloadHash

/-- A worker's rewriting keeps the material and its hash. -/
theorem WorkEffect.keepsMaterial {intentId : Uuid} {intent : TigerBeetleLedgerIntent}
    {f : TigerBeetleLedgerIntent → TigerBeetleLedgerIntent} (h : WorkEffect settings intentId intent db (some f) db')
    (hkeeps : KeepsMaterial f) : MaterialFrom db db' := by
  cases h with
  | rewritten f L A hintent hid hL =>
    intro i' hi'
    change i' ∈ L.rows at hi'
    rw [hL] at hi'
    obtain ⟨i, hi, rfl⟩ := List.mem_map.mp hi'
    refine ⟨i, hi, ?_⟩
    split
    · have htransfer := hkeeps.transfer i
      simp only [transferFromIntent, TigerBeetleTransfer.mk.injEq] at htransfer
      obtain ⟨htransferId, hdebit, hcredit, hledger, hcode, hflags, hamount, -⟩ := htransfer
      refine ⟨?_, hkeeps.payloadHash i⟩
      simp only [TigerBeetleLedgerIntent.material, LedgerIntentRequest.mk.injEq]
      exact ⟨hkeeps.paymentIntentId i, htransferId, hdebit, hcredit, hledger, hcode, hflags, hamount, hkeeps.currency i⟩
    · exact ⟨rfl, rfl⟩

/-- So does every transaction of a worker. -/
theorem LedgerWork.keepsMaterial (settings : Settings) (db : Db) (work : LedgerWork) :
    MaterialFrom db (work.commit settings db) := by
  have hsame : MaterialFrom db db := fun i hi => ⟨i, hi, rfl, rfl⟩
  cases work with
  | mark intentId clock =>
    refine Tx.commit_induction (MaterialFrom db) hsame fun result db' h => ?_
    obtain ⟨intent, ⟨-, -, heffect⟩ | ⟨-, -, heffect⟩⟩ := markSubmissionUncertain_ok settings h
    · cases heffect
      exact hsame
    · exact heffect.keepsMaterial ⟨fun _ => rfl, fun _ => rfl, fun _ => rfl, fun _ => rfl, fun _ => rfl⟩
  | confirm draws intentId transfer clock =>
    refine Tx.commit_induction (MaterialFrom db) hsame fun result db' h => ?_
    obtain ⟨intent, ⟨-, -, heffect⟩ | ⟨-, -, heffect⟩⟩ := confirmOrQuarantine_ok h
    all_goals exact heffect.keepsMaterial ⟨fun _ => rfl, fun _ => rfl, fun _ => rfl, fun _ => rfl, fun _ => rfl⟩
  | finalise draws intentId clock =>
    refine Tx.commit_induction (MaterialFrom db) hsame fun result db' h => ?_
    obtain ⟨intent, ⟨-, heffect⟩ | ⟨-, heffect⟩⟩ := finalisePosted_ok h
    · cases heffect
      exact hsame
    · exact heffect.keepsMaterial ⟨fun _ => rfl, fun _ => rfl, fun _ => rfl, fun _ => rfl, fun _ => rfl⟩
  | reject draws intentId reason clock =>
    refine Tx.commit_induction (MaterialFrom db) hsame fun result db' h => ?_
    obtain ⟨intent, -, heffect⟩ := rejectLedgerIntent_ok h
    exact heffect.keepsMaterial ⟨fun _ => rfl, fun _ => rfl, fun _ => rfl, fun _ => rfl, fun _ => rfl⟩

/-- Every intent of a step's database is an old one in its material and its hash, or carries the hash of its own. -/
theorem step_hashed (settings : Settings) (s : Platform) (e : Event) :
    ∀ i' ∈ (step settings s e).db.tigerbeetleLedgerIntents.rows,
      (∃ i ∈ s.db.tigerbeetleLedgerIntents.rows, i'.material = i.material ∧ i'.payloadHash = i.payloadHash) ∨
        canonicalHash settings.crypto (ledgerPayload i'.material) = .ok i'.payloadHash := by
  intro i' hi'
  by_cases hwork : ∃ work, e = .ledgerWork work
  · obtain ⟨work, rfl⟩ := hwork
    exact .inl (work.keepsMaterial settings s.db i' hi')
  · rcases step_requestsOnly settings s e (not_exists.mp hwork) with hsame | ⟨draws, hcreate⟩
    · rw [hsame] at hi'
      exact .inl ⟨i', hi', rfl, rfl⟩
    · generalize (step settings s e).db = db' at hi' hcreate
      cases hcreate with
      | reused => exact .inl ⟨i', hi', rfl, rfl⟩
      | created intent payment L M A hpayment hid hsettled hamount hcurrency hready hL hM hannounced hA hhash =>
        change i' ∈ L.rows at hi'
        rw [hL, List.mem_append, List.mem_singleton] at hi'
        rcases hi' with hold | rfl
        · exact .inl ⟨i', hold, rfl, rfl⟩
        · exact .inr hhash

/-- Only the messages of ledger intents are named after transfers. -/
theorem KeyOf.transferId {key transferId : String} (h : KeyOf db key) (hkey : key = "tigerbeetle-transfer:" ++ transferId) :
    ∃ i ∈ db.tigerbeetleLedgerIntents.rows, i.tigerbeetleTransferId = transferId := by
  cases h with
  | payment id => exact absurd hkey (key_ne 1 (by decide) (by decide) (by decide) _ _)
  | issue o ho hpaid => exact absurd hkey (key_ne 1 (by decide) (by decide) (by decide) _ _)
  | review r hr => exact absurd hkey (key_ne 1 (by decide) (by decide) (by decide) _ _)
  | anchor id => exact absurd hkey (key_ne 1 (by decide) (by decide) (by decide) _ _)
  | transfer i hi => exact ⟨i, hi, (String.append_right_inj _).mp hkey⟩

/-- In every reachable state the intents carry their hashes and the messages have their intents. -/
theorem run_registered (settings : Settings) (companies : Table companySchema) (tariffs : Table tariffSchema)
    (events : List Event) :
    Registered settings (run (step settings) (.initial companies tariffs) events).db := by
  have hhashed : ∀ i ∈ (run (step settings) (.initial companies tariffs) events).db.tigerbeetleLedgerIntents.rows,
      canonicalHash settings.crypto (ledgerPayload i.material) = .ok i.payloadHash := by
    refine run_invariant (fun s : Platform => ∀ i ∈ s.db.tigerbeetleLedgerIntents.rows,
      canonicalHash settings.crypto (ledgerPayload i.material) = .ok i.payloadHash) (fun s e h i' hi' => ?_) _
      (fun i hi => by cases hi) events
    rcases step_hashed settings s e i' hi' with ⟨i, hi, hmaterial, hhash⟩ | hnew
    · rw [hmaterial, hhash]
      exact h i hi
    · exact hnew
  have hintake := Intake.run settings companies tariffs events
  exact ⟨hhashed, fun m hm transferId hkey => (hintake.keys m hm).transferId hkey⟩

/-! ### The request -/

/-- The checks before the lookup pass. -/
theorem createLedgerIntentAmong_of_checked {draws : Draws} {request checked : LedgerIntentRequest} {now : Time}
    {actor : AuditActor} {payment : PaymentIntent} {seen : Table tigerbeetleLedgerIntentSchema} {payloadHash : String}
    (hvalid : validateRequest request = .ok checked) (hpayment : payment ∈ db.paymentIntents.rows)
    (hid : payment.id = checked.paymentIntentId) (hsettled : payment.status = .settled)
    (hamount : payment.amountMinor = checked.amountMinor) (hcurrency : payment.currency = checked.currency)
    (hhash : canonicalHash settings.crypto (ledgerPayload checked) = .ok payloadHash) :
    createLedgerIntentAmong settings draws request now actor seen db =
      upsertLedgerIntent settings draws checked payloadHash now actor seen db := by
  have hfilter : db.paymentIntents.rows.filter (fun i => i.id = checked.paymentIntentId) = [payment] := by
    refine db.paymentIntents.filter_eq_singleton hpayment (by simp [hid]) fun i _ hsame => ?_
    simp only [decide_eq_true_eq] at hsame
    simp [paymentIntentSchema, hsame, hid]
  unfold createLedgerIntentAmong
  refine (Tx.bind_of_ok _ (Tx.lift_ok.mpr ⟨hvalid, rfl⟩)).trans ?_
  refine (Tx.bind_of_ok _ (fetch_ok.mpr ⟨hfilter, rfl⟩)).trans ?_
  refine (Tx.bind_of_ok (a := ()) _ (Tx.require_ok.mpr ⟨hsettled, rfl⟩)).trans ?_
  refine (Tx.bind_of_ok (a := ()) _ (Tx.require_ok.mpr ⟨⟨hamount, hcurrency⟩, rfl⟩)).trans ?_
  exact Tx.bind_of_ok _ (Tx.lift_ok.mpr ⟨hhash, rfl⟩)

/-- A valid request for a settled payment is a keyed upsert exactly when the lookup that decides does not meet two
intents and, where the row is inserted, its flags fit their column. -/
theorem createLedgerIntent_upserts_iff (settings : Settings) (draws : Draws) (request checked : LedgerIntentRequest)
    (now : Time) (actor : AuditActor) (payment : PaymentIntent) (seen : Table tigerbeetleLedgerIntentSchema) (db : Db)
    (hvalid : validateRequest request = .ok checked) (hpayment : payment ∈ db.paymentIntents.rows)
    (hid : payment.id = checked.paymentIntentId) (hsettled : payment.status = .settled)
    (hamount : payment.amountMinor = checked.amountMinor) (hcurrency : payment.currency = checked.currency)
    (hregistered : Registered settings db) (hgranted : RequestGranted settings draws checked now actor db)
    (hseen : ∀ i ∈ seen.rows, i ∈ db.tigerbeetleLedgerIntents.rows) :
    KeyedUpsert checked db (createLedgerIntentAmong settings draws request now actor seen db) ↔
      checked.Unsplit seen.rows ∧ ((∀ i ∈ seen.rows, ¬checked.Meets i) →
        checked.transferFlags < 2 ^ 63 ∧ checked.Unsplit db.tigerbeetleLedgerIntents.rows) := by
  obtain ⟨bytes, hbytes⟩ := canonicalBytes_ledgerPayload checked
  have hhash : canonicalHash settings.crypto (ledgerPayload checked) = .ok (sha256Hex settings.crypto bytes) := by
    rw [canonicalHash, hbytes]
    rfl
  have hfits : bigint checked.amountMinor = true := by
    have hrow := db.paymentIntents.valid.fits payment hpayment
    simp only [paymentIntentSchema, Bool.and_eq_true] at hrow
    rw [← hamount]
    exact hrow.1.2
  rw [createLedgerIntentAmong_of_checked hvalid hpayment hid hsettled hamount hcurrency hhash]
  exact upsertLedgerIntent_iff (checked_of_validateRequest hvalid) hfits hregistered hgranted hhash hseen

/-- Settings whose digests of payloads keep a digit of the payment and one of the transfer. -/
def sampleSealed : Settings :=
  { sampleSettings with
    crypto := ⟨fun message => List.replicate 30 0 ++ [message.getD 186 0, message.getD 249 0],
      sampleSettings.crypto.hmacSha256⟩ }

/-- A request for a payment of the sample. -/
def sampleLedgerRequest (paymentIntentId : Uuid) (transferId : String) : LedgerIntentRequest :=
  ⟨paymentIntentId, transferId, "0000000000000000000000000000000b", "0000000000000000000000000000000c", 566, 7, 0, 1344,
    "NGN"⟩

/-- The operator who requests the ledger intents. -/
def sampleLedgerOperator : AuditActor := ⟨none, "x", "operator", none⟩

/-- Two settled payments of the same amount with their ledger intents. -/
def samplePosted : Db :=
  { Db.initial sampleCompanies sampleTariffs with
    paymentIntents :=
      ⟨[⟨⟨200⟩, ⟨100⟩, "PAY-1", 1344, "NGN", .settled, sampleNow, some sampleNow⟩,
        ⟨⟨600⟩, ⟨500⟩, "PAY-2", 1344, "NGN", .settled, sampleNow, some sampleNow⟩], by decide +kernel⟩
    tigerbeetleLedgerIntents :=
      ⟨[newLedgerIntent ⟨400⟩ (sampleLedgerRequest ⟨200⟩ "0000000000000000000000000000000a")
          "0000000000000000000000000000000000000000000000000000000000003261" sampleNow,
        newLedgerIntent ⟨800⟩ (sampleLedgerRequest ⟨600⟩ "0000000000000000000000000000000d")
          "0000000000000000000000000000000000000000000000000000000000003664" sampleNow], by decide +kernel⟩ }

/-- The sample intents carry the hashes of their own material. -/
theorem samplePosted_registered : Registered sampleSealed samplePosted := by
  refine ⟨?_, fun m hm => by cases hm⟩
  decide +kernel

/-- What a repeated request is granted. -/
theorem samplePosted_granted : RequestGranted sampleSealed (sampleDraws 9)
    (sampleLedgerRequest ⟨200⟩ "0000000000000000000000000000000a") sampleNow sampleLedgerOperator samplePosted := by
  have hdigest : canonicalHash sampleSealed.crypto
      (ledgerPayload (sampleLedgerRequest ⟨200⟩ "0000000000000000000000000000000a")) =
        .ok "0000000000000000000000000000000000000000000000000000000000003261" := by
    decide +kernel
  have hrows : ∀ i ∈ samplePosted.tigerbeetleLedgerIntents.rows,
      i.payloadHash = "0000000000000000000000000000000000000000000000000000000000003261" →
      i.material = sampleLedgerRequest ⟨200⟩ "0000000000000000000000000000000a" := by
    decide +kernel
  refine ⟨fun message => by simp [sampleSealed], fun i hi bytes bytes' hbytes hbytes' hsame => ?_, by decide +kernel,
    fun m hm => absurd hm List.not_mem_nil, fun payloadHash hhash => ?_⟩
  · have hhash := samplePosted_registered.hashed i hi
    rw [canonicalHash, hbytes] at hhash
    rw [canonicalHash, hbytes'] at hdigest
    have hpayload : i.payloadHash = _ :=
      (Except.ok.inj hhash).symm.trans ((congrArg hexText hsame).trans (Except.ok.inj hdigest))
    rw [hrows i hi hpayload, hbytes'] at hbytes
    exact (Except.ok.inj hbytes).symm
  · obtain rfl := Except.ok.inj (hdigest.symm.trans hhash)
    decide +kernel

/-- A repeated request is an upsert: it gets its intent back. -/
theorem createLedgerIntent_upserts_repeated :
    (∃ i ∈ samplePosted.tigerbeetleLedgerIntents.rows,
      i.material = sampleLedgerRequest ⟨200⟩ "0000000000000000000000000000000a") ∧
    KeyedUpsert (sampleLedgerRequest ⟨200⟩ "0000000000000000000000000000000a") samplePosted
      (createLedgerIntentAmong sampleSealed (sampleDraws 9)
        (sampleLedgerRequest ⟨200⟩ "0000000000000000000000000000000a") sampleNow sampleLedgerOperator
        samplePosted.tigerbeetleLedgerIntents samplePosted) := by
  have hvalid : validateRequest (sampleLedgerRequest ⟨200⟩ "0000000000000000000000000000000a") =
      .ok (sampleLedgerRequest ⟨200⟩ "0000000000000000000000000000000a") := by
    decide +kernel
  have hunsplit : ∀ i ∈ samplePosted.tigerbeetleLedgerIntents.rows,
      i.paymentIntentId = ⟨200⟩ ∨ i.tigerbeetleTransferId = "0000000000000000000000000000000a" → i.id = ⟨400⟩ := by
    decide +kernel
  refine ⟨⟨_, List.mem_cons_self, rfl⟩, ?_⟩
  refine (createLedgerIntent_upserts_iff sampleSealed (sampleDraws 9) _ _ sampleNow sampleLedgerOperator _
    samplePosted.tigerbeetleLedgerIntents samplePosted hvalid List.mem_cons_self rfl rfl rfl rfl samplePosted_registered
    samplePosted_granted fun _ h => h).mpr ⟨fun i hi j hj hmeets hmeets' => ?_, fun hnone => ?_⟩
  · exact ledgerIntent_eq_of_id samplePosted hi hj ((hunsplit i hi hmeets).trans (hunsplit j hj hmeets').symm)
  · exact absurd (.inl rfl) (hnone _ List.mem_cons_self)

/-- A request with the payment of one intent and the transfer of another fails with both rows, and not as a
conflict. -/
theorem not_createLedgerIntent_upserts :
    validateRequest (sampleLedgerRequest ⟨200⟩ "0000000000000000000000000000000d") =
      .ok (sampleLedgerRequest ⟨200⟩ "0000000000000000000000000000000d") ∧
    (∃ p ∈ samplePosted.paymentIntents.rows, p.id = ⟨200⟩ ∧ p.status = .settled ∧ p.amountMinor = 1344 ∧
      p.currency = "NGN") ∧
    ¬KeyedUpsert (sampleLedgerRequest ⟨200⟩ "0000000000000000000000000000000d") samplePosted
      (createLedgerIntent sampleSealed (sampleDraws 9)
        (sampleLedgerRequest ⟨200⟩ "0000000000000000000000000000000d") sampleNow sampleLedgerOperator samplePosted) := by
  have hvalid : validateRequest (sampleLedgerRequest ⟨200⟩ "0000000000000000000000000000000d") =
      .ok (sampleLedgerRequest ⟨200⟩ "0000000000000000000000000000000d") := by
    decide +kernel
  have hsplit : ¬(sampleLedgerRequest ⟨200⟩ "0000000000000000000000000000000d").Unsplit
      samplePosted.tigerbeetleLedgerIntents.rows := by
    intro hunsplit
    have hsame := hunsplit _ List.mem_cons_self _ (List.mem_cons_of_mem _ List.mem_cons_self) (.inl rfl) (.inr rfl)
    cases congrArg TigerBeetleLedgerIntent.id hsame
  obtain ⟨bytes, hbytes⟩ :=
    canonicalBytes_ledgerPayload (sampleLedgerRequest ⟨200⟩ "0000000000000000000000000000000d")
  have hhash : canonicalHash sampleSealed.crypto
      (ledgerPayload (sampleLedgerRequest ⟨200⟩ "0000000000000000000000000000000d")) =
        .ok (sha256Hex sampleSealed.crypto bytes) := by
    rw [canonicalHash, hbytes]
    rfl
  refine ⟨hvalid, ⟨_, List.mem_cons_self, rfl, rfl, rfl, rfl⟩, ?_⟩
  rw [← createLedgerIntentAmong_self,
    createLedgerIntentAmong_of_checked hvalid List.mem_cons_self rfl rfl rfl rfl hhash, upsertLedgerIntent,
    Tx.bind_of_error _ (findLedgerIntentAmong_split hsplit samplePosted)]
  exact not_keyedUpsert_of_error fun _ h => by cases h

end TaxStamp
