import TaxStamp.Audit
import TaxStamp.Canonical
import TaxStamp.Lib.HashChain
import TaxStamp.Timestamps

/-!
# Tamper evidence of the audit chain

A verification that finds the chain intact has recomputed every link. When the keyed hash
is injective and never yields the genesis hash, the last hash determines the predecessor
hash, the canonical document and so every column that the document covers, and by
induction from the end the whole chain.
-/

namespace TaxStamp

open Lib

/-- An event that names its predecessor's hash and carries its own keyed hash. -/
def ChainLink (crypto : Crypto) (secret previous : String) (event : AuditEvent) : Prop :=
  event.prevHash = previous ∧ chainHash crypto previous event.document secret = .ok event.hash

/-- A chain hash is the text of the keyed digest of the predecessor's hash, a dot and the document. -/
theorem chainHash_ok {crypto : Crypto} {previous secret hash : String} {document : JsonObject}
    (h : chainHash crypto previous document secret = .ok hash) :
    ∃ bytes, IsAscii previous.toList ∧ canonicalBytes document = .ok bytes ∧
      hash = hexText (crypto.hmacSha256 (utf8 secret) (asciiBytes previous.toList ++ [46] ++ bytes)) := by
  simp only [chainHash, encodeAscii, Except.bind_ok] at h
  obtain ⟨prev, hprev, bytes, hbytes, hhash⟩ := h
  split at hprev
  · rename_i hascii
    obtain rfl := Except.ok.inj hprev
    refine ⟨bytes, ?_, hbytes, (Except.ok.inj hhash).symm⟩
    simpa [IsAscii] using hascii
  · cases hprev

/-- The characters of a digest's text are hexadecimal digits. -/
theorem isAscii_hexText (digest : Bytes) : IsAscii (hexText digest).toList ∧ '.' ∉ (hexText digest).toList := by
  have hmem : ∀ c ∈ (hexText digest).toList, ∃ n, n < 16 ∧ c = n.digitChar := by
    intro c hc
    rw [hexText, String.toList_ofList, List.mem_flatMap] at hc
    obtain ⟨byte, -, hc⟩ := hc
    obtain ⟨n, hn, rfl⟩ := List.mem_map.mp hc
    have hbyte := byte.toNat_lt
    refine ⟨n, ?_, rfl⟩
    simp only [List.mem_cons, List.not_mem_nil, or_false] at hn
    omega
  refine ⟨fun c hc => ?_, fun hdot => ?_⟩
  · obtain ⟨n, hn, rfl⟩ := hmem c hc
    exact digitChar_toNat_lt hn
  · obtain ⟨n, hn, hdigit⟩ := hmem '.' hdot
    interval_cases n <;> cases hdigit

/-- A chain hash is ASCII. -/
theorem isAscii_chainHash {crypto : Crypto} {previous secret hash : String} {document : JsonObject}
    (h : chainHash crypto previous document secret = .ok hash) : IsAscii hash.toList := by
  obtain ⟨bytes, -, -, rfl⟩ := chainHash_ok h
  exact (isAscii_hexText _).1

/-- ASCII texts are compared. -/
theorem compareDigest_ascii {a b : String} (ha : IsAscii a.toList) (hb : IsAscii b.toList) :
    compareDigest a b = .ok (a = b) := by
  have hascii : (a.toList ++ b.toList).all (·.toNat < 128) = true := by
    rw [List.all_append, Bool.and_eq_true, List.all_eq_true, List.all_eq_true]
    exact ⟨fun c hc => decide_eq_true (ha c hc), fun c hc => decide_eq_true (hb c hc)⟩
  rw [compareDigest, if_pos hascii]

/-- Texts compare as equal only if they are. -/
theorem compareDigest_true {a b : String} (h : compareDigest a b = .ok true) : a = b := by
  unfold compareDigest at h
  split at h
  · exact of_decide_eq_true (Except.ok.inj h)
  · cases h

/-- A verification reports an intact chain exactly when every event is linked, and it has then checked them all. -/
theorem verifyEvents_intact {crypto : Crypto} {secret previous : String} {checked : ℕ} {rows : List AuditEvent}
    {report : ChainVerification} :
    verifyEvents crypto secret previous checked rows = .ok report ∧ report.intact = true ↔
      Linked (ChainLink crypto secret) AuditEvent.hash previous rows ∧
        report = ⟨checked + rows.length, true, none, none⟩ := by
  induction rows generalizing previous checked with
  | nil =>
    constructor
    · rintro ⟨h, -⟩
      exact ⟨trivial, (Except.ok.inj h).symm⟩
    · rintro ⟨-, rfl⟩
      exact ⟨rfl, rfl⟩
  | cons event rest ih =>
    have hcount : checked + (event :: rest).length = checked + 1 + rest.length := by
      rw [List.length_cons]
      omega
    rw [hcount, Linked]
    constructor
    · rintro ⟨h, hintact⟩
      unfold verifyEvents at h
      split at h
      · rw [← Except.ok.inj h] at hintact
        cases hintact
      · rename_i hprev
        simp only [Except.bind_ok] at h
        obtain ⟨expected, hexpected, same, hsame, hrest⟩ := h
        cases same with
        | false =>
          rw [← Except.ok.inj hrest] at hintact
          cases hintact
        | true =>
          obtain ⟨hlinked, hreport⟩ := ih.mp ⟨hrest, hintact⟩
          rw [compareDigest_true hsame] at hexpected
          exact ⟨⟨⟨Decidable.not_not.mp hprev, hexpected⟩, hlinked⟩, hreport⟩
    · rintro ⟨⟨⟨hprev, hhash⟩, hlinked⟩, hreport⟩
      obtain ⟨hrest, hintact⟩ := ih.mpr ⟨hlinked, hreport⟩
      refine ⟨?_, hintact⟩
      rw [verifyEvents, if_neg (not_not.mpr hprev)]
      simp only [Except.bind_ok]
      have hascii := isAscii_chainHash hhash
      exact ⟨event.hash, hhash, true, (compareDigest_ascii hascii hascii).trans (by rw [decide_eq_true rfl]), hrest⟩

/-- The two parts of a hashed message. -/
theorem message_inj {a b : String} {bytes bytes' : Bytes} (ha : IsAscii a.toList) (hb : IsAscii b.toList)
    (hdot : '.' ∉ a.toList) (hdot' : '.' ∉ b.toList)
    (h : asciiBytes a.toList ++ [46] ++ bytes = asciiBytes b.toList ++ [46] ++ bytes') : a = b ∧ bytes = bytes' := by
  have hclass : ∀ {text : List Char}, IsAscii text → '.' ∉ text → ∀ byte ∈ asciiBytes text, byte ≠ 46 := by
    intro text hascii hdot byte hbyte heq
    obtain ⟨c, hc, rfl⟩ := List.mem_map.mp hbyte
    have hvalue := congrArg UInt8.toNat heq
    rw [UInt8.toNat_ofNat', Nat.mod_eq_of_lt (by have := hascii c hc; omega)] at hvalue
    exact hdot ((Char.toNat_inj.mp hvalue : c = '.') ▸ hc)
  have hends : ∀ rest : Bytes, Ends (· ≠ 46) (46 :: rest) := by
    intro rest byte hbyte hne
    exact hne (by simpa using hbyte.symm)
  rw [List.append_assoc, List.append_assoc] at h
  obtain ⟨hprevious, hrest⟩ := append_eq_of_class (hclass ha hdot) (hclass hb hdot') (hends _) (hends _) h
  exact ⟨String.toList_inj.mp (asciiBytes_inj ha hb hprevious), (List.cons.inj hrest).2⟩

/-! ### Documents and columns -/

/-- Objects that are the same hold the same values under their keys. -/
theorem Json.Same.value {d d' : JsonObject} (h : (Json.obj d).Same (Json.obj d')) (hkeys : (d'.map Prod.fst).Nodup)
    {key : String} {v v' : Json} (hv : (key, v) ∈ d) (hv' : (key, v') ∈ d') : v.Same v' := by
  have hsorted : (Json.sortedFields d).Perm (Json.sortedFields d') := by
    have hfields := Json.obj.inj h
    exact (List.perm_insertionSort _ _).symm.trans ((List.Perm.of_eq hfields).trans (List.perm_insertionSort _ _))
  rw [Json.sortedFields_eq_map, Json.sortedFields_eq_map] at hsorted
  have hmem := hsorted.mem_iff.mp (List.mem_map_of_mem hv)
  obtain ⟨⟨key', w⟩, hw, heq⟩ := List.mem_map.mp hmem
  obtain ⟨rfl, hsame⟩ := Prod.mk.inj heq
  have hvalue : (key', w) = (key', v') := List.inj_on_of_nodup_map hkeys hw hv' rfl
  exact hsame.symm.trans (congrArg (fun field => Json.sorted field.2) hvalue)

/-- Objects that are the same and have the same keys in the same order agree field by field. -/
theorem Json.Same.values {d d' : JsonObject} (h : (Json.obj d).Same (Json.obj d'))
    (hkeys : d.map Prod.fst = d'.map Prod.fst) (hnodup : (d'.map Prod.fst).Nodup) :
    List.Forall₂ (fun field field' => field.2.Same field'.2) d d' := by
  have hlength : d.length = d'.length := by simpa using congrArg List.length hkeys
  refine List.forall₂_iff_get.mpr ⟨hlength, fun i hi hi' => ?_⟩
  have hkey : (d.get ⟨i, hi⟩).1 = (d'.get ⟨i, hi'⟩).1 := by
    have := List.getElem_of_eq hkeys (i := i) (by simpa using hi)
    simpa using this
  have hmem : ((d.get ⟨i, hi⟩).1, (d'.get ⟨i, hi'⟩).2) ∈ d' := by
    rw [hkey]
    exact List.get_mem d' _
  exact h.value hnodup (List.get_mem d _) hmem

/-- Texts that are the same are equal. -/
theorem Json.Same.str {a b : String} (h : (Json.str a).Same (Json.str b)) : a = b := Json.str.inj h

/-- Optional texts that are the same are equal. -/
theorem Json.Same.ofOption {a b : Option String} (h : (Json.ofOption a).Same (Json.ofOption b)) : a = b := by
  cases a with
  | none =>
    cases b with
    | none => rfl
    | some b => cases h
  | some a =>
    cases b with
    | none => cases h
    | some b => exact congrArg some (Json.str.inj h)

/-- The keys of an event document. -/
def documentKeys : List String :=
  ["event_id", "occurred_at", "actor_principal_id", "actor_subject", "actor_role", "company_id", "action",
    "target_type", "target_id", "outcome", "request_id", "idempotency_key", "before_state", "after_state", "revision"]

/-- Every event document has these keys. -/
theorem AuditEvent.document_keys (event : AuditEvent) : event.document.map Prod.fst = documentKeys := rfl

/-- Outcomes with the same value are equal. -/
theorem AuditOutcome.value_injective : Function.Injective AuditOutcome.value := by
  intro a b h
  cases a <;> cases b <;> first | rfl | exact absurd h (by decide)

/-- Two events agree on every column that the document covers and on both hashes; states agree up to the order of
their fields. -/
structure AuditEvent.Agrees (a b : AuditEvent) : Prop where
  eventId : a.eventId = b.eventId
  occurredAt : a.occurredAt = b.occurredAt
  actorPrincipalId : a.actorPrincipalId = b.actorPrincipalId
  actorSubject : a.actorSubject = b.actorSubject
  actorRole : a.actorRole = b.actorRole
  companyId : a.companyId = b.companyId
  action : a.action = b.action
  targetType : a.targetType = b.targetType
  targetId : a.targetId = b.targetId
  outcome : a.outcome = b.outcome
  requestId : a.requestId = b.requestId
  idempotencyKey : a.idempotencyKey = b.idempotencyKey
  beforeState : (Json.ofObject a.beforeState).Same (Json.ofObject b.beforeState)
  afterState : (Json.ofObject a.afterState).Same (Json.ofObject b.afterState)
  revision : a.revision = b.revision
  prevHash : a.prevHash = b.prevHash
  hash : a.hash = b.hash

/-- Events with the same document and hashes agree. -/
theorem AuditEvent.agrees_of_document {a b : AuditEvent} (ha : Time.representable a.occurredAt = true)
    (hb : Time.representable b.occurredAt = true) (hdocument : (Json.obj a.document).Same (Json.obj b.document))
    (hprev : a.prevHash = b.prevHash) (hhash : a.hash = b.hash) : a.Agrees b := by
  have hnodup : (b.document.map Prod.fst).Nodup := by
    rw [b.document_keys]
    decide
  have hvalues := hdocument.values (a.document_keys.trans b.document_keys.symm) hnodup
  simp only [document, eventDocument, List.forall₂_cons, List.forall₂_nil_left_iff, and_true] at hvalues
  obtain ⟨hid, htime, hprincipal, hsubject, hrole, hcompany, haction, htype, htarget, houtcome, hrequest, hkey,
    hbefore, hafter, hrevision⟩ := hvalues
  exact {
    eventId := Uuid.str_injective hid.str
    occurredAt := isoformat_inj ha hb htime.str
    actorPrincipalId := Option.map_injective Uuid.str_injective hprincipal.ofOption
    actorSubject := hsubject.str
    actorRole := hrole.str
    companyId := Option.map_injective Uuid.str_injective hcompany.ofOption
    action := haction.str
    targetType := htype.str
    targetId := htarget.str
    outcome := AuditOutcome.value_injective houtcome.str
    requestId := hrequest.ofOption
    idempotencyKey := hkey.ofOption
    beforeState := hbefore
    afterState := hafter
    revision := hrevision.str
    prevHash := hprev
    hash := hhash }

/-! ### Whole chains -/

/-- An event as the verification loads it: its time is one that a `datetime` can represent. -/
structure AuditRow extends AuditEvent where
  representable : Time.representable occurredAt = true

/-- A link behind a hash without dots, of an event that can be loaded. -/
def PlainLink (crypto : Crypto) (secret previous : String) (event : AuditEvent) : Prop :=
  ChainLink crypto secret previous event ∧ '.' ∉ previous.toList ∧ Time.representable event.occurredAt = true

/-- An intact chain of loaded events has such links. -/
theorem linked_of_intact {crypto : Crypto} {secret : String} {rows : List AuditRow} {report : ChainVerification}
    (h : verifyAuditChain crypto secret (rows.map AuditRow.toAuditEvent) = .ok report) (hintact : report.intact = true) :
    Linked (PlainLink crypto secret) AuditEvent.hash genesisHash (inSeqOrder (rows.map AuditRow.toAuditEvent)) := by
  have hlinked := (verifyEvents_intact.mp ⟨h, hintact⟩).1
  refine hlinked.imp (P := fun previous => '.' ∉ previous.toList) (fun previous event hevent hplain hlink => ?_) (by decide)
  obtain ⟨row, -, rfl⟩ := List.mem_map.mp ((List.mem_insertionSort _).mp hevent)
  obtain ⟨bytes, -, -, hhash⟩ := chainHash_ok hlink.2
  refine ⟨⟨hlink, hplain, row.representable⟩, ?_⟩
  rw [hhash]
  exact (isAscii_hexText _).2

section Injective

variable {crypto : Crypto} {secret : String} (hinjective : Function.Injective (crypto.hmacSha256 (utf8 secret)))

include hinjective

/-- Under an injective keyed hash, the hash of an event determines its predecessor's hash and its columns. -/
theorem PlainLink.agrees {previous previous' : String} {a b : AuditEvent} (ha : PlainLink crypto secret previous a)
    (hb : PlainLink crypto secret previous' b) (hhash : a.hash = b.hash) : previous = previous' ∧ a.Agrees b := by
  obtain ⟨⟨hprev, hlink⟩, hdot, htime⟩ := ha
  obtain ⟨⟨hprev', hlink'⟩, hdot', htime'⟩ := hb
  obtain ⟨bytes, hascii, hbytes, hdigest⟩ := chainHash_ok hlink
  obtain ⟨bytes', hascii', hbytes', hdigest'⟩ := chainHash_ok hlink'
  have hmessage := hinjective (hexText_injective (hdigest.symm.trans (hhash.trans hdigest')))
  obtain ⟨hsame, rfl⟩ := message_inj hascii hascii' hdot hdot' hmessage
  refine ⟨hsame, AuditEvent.agrees_of_document htime htime' (canonicalBytes_same hbytes hbytes') ?_ hhash⟩
  rw [hprev, hprev', hsame]

/-- The audit chain is tamper evident: two sequences of rows that verify as intact and end in the same hash have
the same length and agree row by row. -/
theorem audit_chain_tamper_evident
    (hgenesis : ∀ message, hexText (crypto.hmacSha256 (utf8 secret) message) ≠ genesisHash)
    (first second : List AuditRow) (report report' : ChainVerification)
    (hfirst : verifyAuditChain crypto secret (first.map AuditRow.toAuditEvent) = .ok report)
    (hintact : report.intact = true)
    (hsecond : verifyAuditChain crypto secret (second.map AuditRow.toAuditEvent) = .ok report')
    (hintact' : report'.intact = true)
    (hlast : (inSeqOrder (first.map AuditRow.toAuditEvent)).getLast?.map AuditEvent.hash =
      (inSeqOrder (second.map AuditRow.toAuditEvent)).getLast?.map AuditEvent.hash) :
    first.length = second.length ∧ List.Forall₂ AuditEvent.Agrees
      (inSeqOrder (first.map AuditRow.toAuditEvent)) (inSeqOrder (second.map AuditRow.toAuditEvent)) := by
  have hfresh : ∀ previous event, PlainLink crypto secret previous event → event.hash ≠ genesisHash := by
    intro previous event hlink
    obtain ⟨bytes, -, -, hhash⟩ := chainHash_ok hlink.1.2
    rw [hhash]
    exact hgenesis _
  have hagree := Linked.agree (fun _ _ _ _ ha hb => PlainLink.agrees hinjective ha hb) hfresh
    (linked_of_intact hfirst hintact) (linked_of_intact hsecond hintact') (congrArg (·.getD genesisHash) hlast)
  refine ⟨?_, hagree⟩
  simpa [inSeqOrder] using hagree.length_eq

end Injective

/-- A keyed hash that is injective. -/
def plainCrypto : Crypto := ⟨fun message => message, fun _ message => 1 :: message⟩

/-- The document of a sample event with a state. -/
def sampleDocument (seq : ℕ) (state : JsonObject) : JsonObject :=
  eventDocument ⟨seq⟩ 1772323200000000 ⟨none, "system", "operator", none⟩
    { action := "stamp.expire", targetType := "stamp_set", targetId := "1 stamps", outcome := .success,
      afterState := some state } "r1"

/-- A sample event behind a hash, with a state and the hash of its canonical text. -/
def sampleRow (seq : ℕ) (previous : String) (state : JsonObject) : AuditRow where
  seq := seq
  eventId := ⟨seq⟩
  occurredAt := 1772323200000000
  actorPrincipalId := none
  actorSubject := "system"
  actorRole := "operator"
  companyId := none
  action := "stamp.expire"
  targetType := "stamp_set"
  targetId := "1 stamps"
  outcome := .success
  requestId := none
  idempotencyKey := none
  beforeState := none
  afterState := some state
  revision := "r1"
  prevHash := previous
  hash := hexText (1 :: (asciiBytes previous.toList ++ [46] ++ asciiBytes (Json.obj (sampleDocument seq state)).dumps))
  representable := by decide +kernel

/-- Two linked sample events. -/
def sampleRows (first second : JsonObject) : List AuditRow :=
  [sampleRow 1 genesisHash first, sampleRow 2 (sampleRow 1 genesisHash first).hash second]

/-- A sample event without floats is linked to the hash before it. -/
theorem sampleRow_linked {seq : ℕ} {previous : String} {state : JsonObject} (hascii : IsAscii previous.toList)
    (h : (Json.obj (sampleDocument seq state)).occurs Json.isFloat = false) :
    ChainLink plainCrypto "chain" previous (sampleRow seq previous state).toAuditEvent := by
  have hbytes : canonicalBytes (sampleDocument seq state) =
      .ok (asciiBytes (Json.obj (sampleDocument seq state)).dumps) := by
    rw [canonicalBytes, if_neg (by rw [h]; decide)]
  have hprev : encodeAscii previous = .ok (asciiBytes previous.toList) := by
    rw [encodeAscii, if_pos (List.all_eq_true.mpr fun c hc => decide_eq_true (hascii c hc))]
  have hhash : chainHash plainCrypto previous (sampleDocument seq state) "chain" =
      .ok (sampleRow seq previous state).hash := by
    rw [chainHash, hprev, hbytes]
    rfl
  exact ⟨rfl, hhash⟩

/-- The chain of the sample events is intact when their states have no floats. -/
theorem sampleRows_intact {first second : JsonObject}
    (h : (Json.obj (sampleDocument 1 first)).occurs Json.isFloat = false)
    (h' : (Json.obj (sampleDocument 2 second)).occurs Json.isFloat = false) :
    verifyAuditChain plainCrypto "chain" ((sampleRows first second).map AuditRow.toAuditEvent) =
      .ok ⟨2, true, none, none⟩ := by
  have hlinked : Linked (ChainLink plainCrypto "chain") AuditEvent.hash genesisHash
      ((sampleRows first second).map AuditRow.toAuditEvent) :=
    ⟨sampleRow_linked (by decide) h, sampleRow_linked (isAscii_hexText _).1 h', trivial⟩
  exact (verifyEvents_intact.mpr ⟨hlinked, rfl⟩).1

/-- The keyed hash never yields the genesis hash. -/
theorem plainCrypto_genesis (message : Bytes) :
    hexText (plainCrypto.hmacSha256 (utf8 "chain") message) ≠ genesisHash := by
  change hexText (1 :: message) ≠ genesisHash
  have hgenesis : genesisHash.toList = '0' :: '0' :: List.replicate 62 '0' := String.toList_ofList
  have hdigest : ∃ rest, (hexText (1 :: message)).toList = '0' :: '1' :: rest :=
    ⟨_, by rw [hexText, String.toList_ofList, List.flatMap_cons]; rfl⟩
  intro h
  obtain ⟨rest, hrest⟩ := hdigest
  rw [h, hgenesis] at hrest
  exact absurd (List.cons.inj (List.cons.inj hrest).2).1 (by decide)

/-- The hash of a sample event does not depend on the order of the fields. -/
theorem sampleRow_hash (seq : ℕ) (previous : String) :
    (sampleRow seq previous [("a", .int 1), ("b", .null)]).hash =
      (sampleRow seq previous [("b", .null), ("a", .int 1)]).hash := by
  have hstate : (Json.obj [("a", .int 1), ("b", .null)]).sorted = (Json.obj [("b", .null), ("a", .int 1)]).sorted := rfl
  have hsame : (Json.obj (sampleDocument seq [("a", .int 1), ("b", .null)])).dumps =
      (Json.obj (sampleDocument seq [("b", .null), ("a", .int 1)])).dumps := by
    refine Json.Same.dumps_eq ?_
    rw [Json.Same, Json.sorted_obj, Json.sorted_obj, Json.sortedFields_eq_map, Json.sortedFields_eq_map]
    simp only [sampleDocument, eventDocument, List.map_cons, Json.ofObject, hstate]
  rw [sampleRow, sampleRow, hsame]

/-- Two chains of two events that differ in the order of fields only. -/
theorem audit_chain_tamper_evident_sample :
    let first := sampleRows [("a", .int 1), ("b", .null)] [("b", .null), ("a", .int 1)]
    let second := sampleRows [("b", .null), ("a", .int 1)] [("a", .int 1), ("b", .null)]
    first.length = second.length ∧ List.Forall₂ AuditEvent.Agrees
      (inSeqOrder (first.map AuditRow.toAuditEvent)) (inSeqOrder (second.map AuditRow.toAuditEvent)) := by
  have hlast : (sampleRow 2 (sampleRow 1 genesisHash [("a", .int 1), ("b", .null)]).hash [("b", .null), ("a", .int 1)]).hash =
      (sampleRow 2 (sampleRow 1 genesisHash [("b", .null), ("a", .int 1)]).hash [("a", .int 1), ("b", .null)]).hash := by
    rw [sampleRow_hash 1, sampleRow_hash 2]
  exact audit_chain_tamper_evident (fun _ _ h => (List.cons.inj h).2) plainCrypto_genesis _ _ _ _
    (sampleRows_intact rfl rfl) rfl (sampleRows_intact rfl rfl) rfl (congrArg some hlast)

end TaxStamp
