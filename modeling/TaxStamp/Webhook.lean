import TaxStamp.Gates
import TaxStamp.Lib.Slots
import TaxStamp.System

/-!
# The settlement webhook

A delivery is authenticated, its digest is claimed in Redis, and only then is its
remittance ingested in a database transaction. The two stores share no transaction, so a
delivery is two events: its arrival, which ends with the claim or with the answer that it
is a duplicate, and the outcome of its database transaction. Between them other
deliveries arrive and other services run.
-/

namespace TaxStamp

open Lib

/-- The validated content of a remittance. -/
structure RemittanceRequest where
  externalReference : String
  paymentReference : String
  amountMinor : ℤ
  currency : String
  valueDate : Time
  deriving DecidableEq, Repr

/-- The advice that a validated remittance with its document stands for. -/
def RemittanceRequest.advice (request : RemittanceRequest) (body : JsonObject) : RemittanceAdvice where
  externalReference := request.externalReference
  declaredReference := request.paymentReference
  amountMinor := request.amountMinor
  currency := request.currency
  valueDate := request.valueDate
  raw := body

/-- What `json.loads` raises: beside the error for a malformed document, those for bytes that are not Unicode,
for an integer with too many digits and for a document nested too deeply. -/
inductive LoadsError
  | jsonDecodeError
  | unicodeDecodeError
  | valueError (message : String)
  | recursionError
  deriving DecidableEq, Repr

/-- Only the error for a malformed document is caught. -/
def LoadsError.reported : LoadsError → Fault
  | jsonDecodeError => .validationFailed "body is not valid JSON"
  | unicodeDecodeError => .unicodeDecodeError
  | valueError message => .valueError message
  | recursionError => .recursionError

/-- How a request is decoded: `json.loads`, `int`, the validation of the request model, and how deep `_reject_floats`
and `json.dumps` can descend into a document. -/
structure Decoder where
  loads : Bytes → Except LoadsError Json
  int : String → Option ℤ
  validate : JsonObject → Option RemittanceRequest
  rejectFloatsLimit : ℕ
  dumpsLimit : ℕ

/-- The settings of the endpoint. -/
structure WebhookSettings extends Settings where
  decoder : Decoder
  paymentWebhookSecret : String
  signatureMaxSkewSeconds : ℤ
  nonceTtlSeconds : ℤ

/-- A request to the endpoint. -/
structure Delivery where
  raw : Bytes
  signature : String
  timestamp : String
  deriving DecidableEq, Repr

/-- `canonical_bytes` of a document until it is printed. -/
def Decoder.checkCanonical (decoder : Decoder) (document : JsonObject) : Except Fault Unit := do
  (Json.obj document).rejectFloats decoder.rejectFloatsLimit
  if decoder.dumpsLimit < (Json.obj document).depth 0 then .error .recursionError

/-- The years since 1900 that the system's calendar can hold. -/
def Time.fitsCalendar (t : Time) : Bool := -2 ^ 31 ≤ t.year - 1900 ∧ t.year - 1900 < 2 ^ 31

/-- `datetime.fromtimestamp` of a header: only a `ValueError` is caught. -/
def headerTimestamp (decoder : Decoder) (text : String) : Except Fault Time :=
  match decoder.int text with
  | none => .error (.unauthenticated "X-Timestamp header is missing or malformed")
  | some n =>
    if ¬(-2 ^ 63 ≤ n ∧ n < 2 ^ 63) then .error .overflowError
    else if ¬Time.fitsCalendar (seconds n) then .error .osError
    else if Time.representable (seconds n) then .ok (seconds n)
    else .error (.unauthenticated "X-Timestamp header is missing or malformed")

/-- Report a bad signature without its details. -/
def hideSignatureError {α : Type} : Except Fault α → Except Fault α
  | .error (.signatureError _) => .error (.unauthenticated "remittance signature is invalid")
  | result => result

/-- Decode, authenticate and validate a delivery. -/
def authenticate (settings : WebhookSettings) (d : Delivery) (now : Time) :
    Except Fault (JsonObject × RemittanceRequest) := do
  if 64 * 1024 < d.raw.length then .error (.validationFailed "payload is too large")
  match settings.decoder.loads d.raw with
  | .error e => .error e.reported
  | .ok (.obj body) =>
    let timestamp ← headerTimestamp settings.decoder d.timestamp
    settings.decoder.checkCanonical body
    hideSignatureError (verifySignedRequest settings.crypto ⟨body, d.signature, timestamp⟩
      settings.paymentWebhookSecret now settings.signatureMaxSkewSeconds)
    match settings.decoder.validate body with
    | none => .error .validationError
    | some request => return (body, request)
  | .ok _ => .error (.validationFailed "body must be a JSON object")

/-- What became of the database transaction of a delivery. -/
inductive AttemptOutcome
  | inFlight
  | committed
  | failed
  deriving DecidableEq, Repr

/-- A delivery that has claimed its digest. -/
structure Attempt where
  body : JsonObject
  request : RemittanceRequest
  outcome : AttemptOutcome

/-- The platform, the nonces, the deliveries that got past the guard and the external references for which
202 was answered. -/
structure Webhook where
  platform : Platform
  redis : Redis
  attempts : List Attempt
  acknowledged : List String

/-- A webhook before its first delivery. -/
def Webhook.initial (companies : Table companySchema) (tariffs : Table tariffSchema) : Webhook :=
  ⟨.initial companies tariffs, [], [], []⟩

/-- What can happen next: a delivery arrives, the transaction of a delivery ends (it fails for an outside
reason or runs), or another service commits. -/
inductive WebhookEvent
  | deliver (d : Delivery) (now : Time) (reachable : Bool)
  | finish (index : ℕ) (draws : Draws) (now : Time) (fails : Bool)
  | service (e : Event)

/-- The claim a delivery makes on its digest. -/
def claimDigest (settings : WebhookSettings) (d : Delivery) (now : Time) (reachable : Bool) (redis : Redis) :
    Except Fault (Bool × Redis) :=
  ReplayGuard.claim reachable settings.nonceTtlSeconds "payments" (sha256Hex settings.crypto d.raw) now redis

/-- The arrival of a delivery: it is refused, answered as a duplicate, or goes on to its transaction. -/
def Webhook.arrive (settings : WebhookSettings) (s : Webhook) (d : Delivery) (now : Time) (reachable : Bool) :
    Webhook :=
  match authenticate settings d now with
  | .error _ => s
  | .ok (body, request) =>
    match claimDigest settings d now reachable s.redis with
    | .error _ => s
    | .ok (false, _) => { s with acknowledged := s.acknowledged ++ [request.externalReference] }
    | .ok (true, redis) => { s with redis := redis, attempts := s.attempts ++ [⟨body, request, .inFlight⟩] }

/-- The end of the transaction of an attempt: rolled back, or committed and answered with 202. -/
def Webhook.finish (settings : WebhookSettings) (s : Webhook) (index : ℕ) (a : Attempt) (draws : Draws)
    (now : Time) (fails : Bool) : Webhook :=
  if fails then { s with attempts := s.attempts.set index { a with outcome := .failed } }
  else
    match ingestRemittance settings.toSettings draws (a.request.advice a.body) now s.platform.db with
    | .error _ => { s with attempts := s.attempts.set index { a with outcome := .failed } }
    | .ok (_, db) =>
      { s with
        platform := { s.platform with db := db }
        attempts := s.attempts.set index { a with outcome := .committed }
        acknowledged := s.acknowledged ++ [a.request.externalReference] }

/-- Only the webhook ingests remittances. -/
def Event.ingests : Event → Bool
  | .ingestRemittance .. => true
  | _ => false

/-- The webhook after an event. -/
def webhookStep (settings : WebhookSettings) (s : Webhook) : WebhookEvent → Webhook
  | .deliver d now reachable => s.arrive settings d now reachable
  | .finish index draws now fails =>
    match s.attempts[index]? with
    | some a => if a.outcome = .inFlight then s.finish settings index a draws now fails else s
    | none => s
  | .service e =>
    if e.ingests then s else { s with platform := step settings.toSettings s.platform e }

/-- A receipt with the external reference is committed. -/
def Webhook.Recorded (s : Webhook) (externalReference : String) : Prop :=
  ∃ r ∈ s.platform.db.paymentReceipts.rows, r.externalReference = externalReference

/-- A delivery with the external reference has committed its transaction. -/
def Webhook.Committed (s : Webhook) (externalReference : String) : Prop :=
  ∃ a ∈ s.attempts, a.outcome = .committed ∧ a.request.externalReference = externalReference

/-- Every acknowledged remittance is recorded. -/
def Webhook.Honest (s : Webhook) : Prop := ∀ reference ∈ s.acknowledged, s.Recorded reference

instance (s : Webhook) (reference : String) : Decidable (s.Recorded reference) :=
  inferInstanceAs (Decidable (∃ r ∈ s.platform.db.paymentReceipts.rows, r.externalReference = reference))

instance (s : Webhook) (reference : String) : Decidable (s.Committed reference) :=
  inferInstanceAs (Decidable (∃ a ∈ s.attempts, a.outcome = .committed ∧ a.request.externalReference = reference))

instance (s : Webhook) : Decidable s.Honest :=
  inferInstanceAs (Decidable (∀ reference ∈ s.acknowledged, s.Recorded reference))

/-- A delivery whose digest is still claimed arrives only after a delivery with its external reference has
committed. -/
def noOrphanClaim (settings : WebhookSettings) (s : Webhook) : WebhookEvent → Prop
  | .deliver d now reachable =>
    match authenticate settings d now with
    | .error _ => True
    | .ok (_, request) =>
      reachable = true → s.redis.live (ReplayGuard.key "payments" (sha256Hex settings.crypto d.raw)) now = true →
        s.Committed request.externalReference
  | _ => True

instance (settings : WebhookSettings) (s : Webhook) (e : WebhookEvent) : Decidable (noOrphanClaim settings s e) := by
  unfold noOrphanClaim
  split
  · split <;> infer_instance
  · infer_instance

/-- The condition on an arriving delivery, for the request it carries. -/
theorem noOrphanClaim_deliver {settings : WebhookSettings} {s : Webhook} {d : Delivery} {now : Time}
    {reachable : Bool} :
    noOrphanClaim settings s (.deliver d now reachable) ↔
      ∀ body request, authenticate settings d now = .ok (body, request) → reachable = true →
        s.redis.live (ReplayGuard.key "payments" (sha256Hex settings.crypto d.raw)) now = true →
        s.Committed request.externalReference := by
  simp only [noOrphanClaim]
  split
  · rename_i e hauth
    simp [hauth]
  · rename_i body request hauth
    rw [hauth]
    constructor
    · rintro h body' request' heq
      injection heq with heq
      injection heq with _ hrequest
      exact hrequest ▸ h
    · intro h
      exact h body request rfl

/-- The receipts are exactly those of the committed deliveries. -/
def Webhook.Consistent (s : Webhook) : Prop := ∀ reference, s.Recorded reference ↔ s.Committed reference

/-- The services other than the ingestion write no receipts. -/
theorem paymentReceipts_step (settings : Settings) (s : Platform) (e : Event) (h : e.ingests = false) :
    (step settings s e).db.paymentReceipts = s.db.paymentReceipts := by
  have hchange := step_change settings s e
  generalize (step settings s e).db = db' at hchange ⊢
  cases hchange with
  | sameCore e db' hsame => exact hsame.paymentReceipts
  | ingested draws advice now db' heffect => contradiction
  | submitted compliance draws actor command now key draft compliant O T A hdraft hfresh hO hT => rfl
  | decided draws actor command now key order P db₁ A horder hid hstatus hrole hsubmitter hfirst hP heffect =>
    cases heffect <;> rfl
  | cancelled draws actor orderId reason now order O T A horder hid hmay hlegal hO hT => rfl
  | issued draws orderId chunkSize now db' heffect =>
    cases heffect
    rfl
  | inspected draws actor command now db' heffect =>
    cases heffect
    rfl
  | activated index draws actor now key a db' ha heffect =>
    cases heffect
    rfl
  | retired e db' heffect =>
    cases heffect
    rfl

/-- A committed ingestion leaves a receipt with its external reference and adds no other. -/
theorem IngestEffect.recorded {settings : Settings} {draws : Draws} {advice : RemittanceAdvice} {now : Time}
    {db db' : Db} (h : IngestEffect settings draws advice now db db') (reference : String) :
    (∃ r ∈ db'.paymentReceipts.rows, r.externalReference = reference) ↔
      (∃ r ∈ db.paymentReceipts.rows, r.externalReference = reference) ∨ advice.externalReference = reference := by
  have hadded : ∀ (R : Table paymentReceiptSchema) (r : PaymentReceipt), R.rows = db.paymentReceipts.rows ++ [r] →
      r.externalReference = advice.externalReference →
      ((∃ r ∈ R.rows, r.externalReference = reference) ↔
        (∃ r ∈ db.paymentReceipts.rows, r.externalReference = reference) ∨ advice.externalReference = reference) := by
    intro R r hR hr
    rw [hR]
    simp only [List.mem_append, List.mem_singleton, or_and_right, exists_or, exists_eq_left, hr]
  cases h with
  | replayed receipt hmem hreference =>
    refine ⟨.inl, fun hor => hor.elim id fun heq => ⟨receipt, hmem, hreference.trans heq⟩⟩
  | unknown payloadHash R A hR => exact hadded R _ hR rfl
  | mismatched intent payloadHash R J E M A hintent hstatus hR hJ hE hsupported => exact hadded R _ hR rfl
  | settled intent order payloadHash R O T I J E M A hintent hstatus horder hid hawaiting hR hO hT hI hJ hE
      hsupported => exact hadded R _ hR rfl

section Finish

variable {settings : WebhookSettings} {s : Webhook} {index : ℕ} {a : Attempt} (draws : Draws) (now : Time)
  (fails : Bool) (ha : s.attempts[index]? = some a) (hinFlight : a.outcome = .inFlight)
include ha hinFlight

/-- A transaction that ends either leaves the committed deliveries and the receipts as they were and
acknowledges nothing, or commits its delivery, records its receipt and acknowledges it. -/
theorem Webhook.finish_cases :
    let s' := s.finish settings index a draws now fails
    ((∀ reference, s'.Committed reference ↔ s.Committed reference) ∧
        (∀ reference, s'.Recorded reference ↔ s.Recorded reference) ∧ s'.acknowledged = s.acknowledged) ∨
      ((∀ reference, s'.Committed reference ↔ s.Committed reference ∨ a.request.externalReference = reference) ∧
        (∀ reference, s'.Recorded reference ↔ s.Recorded reference ∨ a.request.externalReference = reference) ∧
        s'.acknowledged = s.acknowledged ++ [a.request.externalReference]) := by
  have hset : ∀ reference outcome, (∃ b ∈ s.attempts.set index { a with outcome := outcome },
      b.outcome = .committed ∧ b.request.externalReference = reference) ↔
        s.Committed reference ∨ (outcome = .committed ∧ a.request.externalReference = reference) := by
    intro reference outcome
    refine exists_mem_set ha ?_
    rw [hinFlight]
    rintro ⟨hne, -⟩
    contradiction
  have hfailed : ∀ reference, (∃ b ∈ s.attempts.set index { a with outcome := .failed },
      b.outcome = .committed ∧ b.request.externalReference = reference) ↔ s.Committed reference := by
    intro reference
    rw [hset]
    simp
  intro s'
  cases hfails : fails with
  | true =>
    left
    simp only [s', hfails, Webhook.finish, if_true]
    exact ⟨hfailed, fun reference => Iff.rfl, trivial⟩
  | false =>
    simp only [s', hfails, Webhook.finish, Bool.false_eq_true, if_false]
    split
    · exact .inl ⟨hfailed, fun reference => Iff.rfl, rfl⟩
    · rename_i result db hingest
      right
      refine ⟨fun reference => ?_, (ingestRemittance_ok hingest).recorded, rfl⟩
      change (∃ b ∈ s.attempts.set index { a with outcome := .committed },
        b.outcome = .committed ∧ b.request.externalReference = reference) ↔ _
      rw [hset]
      simp

end Finish

/-- An arriving delivery commits and records nothing; it is acknowledged at once exactly when its digest
is still claimed. -/
theorem Webhook.arrive_cases (settings : WebhookSettings) (s : Webhook) (d : Delivery) (now : Time)
    (reachable : Bool) :
    let s' := s.arrive settings d now reachable
    (∀ reference, s'.Committed reference ↔ s.Committed reference) ∧
      (∀ reference, s'.Recorded reference ↔ s.Recorded reference) ∧
      (s'.acknowledged = s.acknowledged ∨ ∃ body request, authenticate settings d now = .ok (body, request) ∧
        reachable = true ∧ s.redis.live (ReplayGuard.key "payments" (sha256Hex settings.crypto d.raw)) now = true ∧
        s'.acknowledged = s.acknowledged ++ [request.externalReference]) := by
  intro s'
  cases hauth : authenticate settings d now with
  | error e =>
    simp only [s', Webhook.arrive, hauth]
    exact ⟨fun _ => trivial, fun _ => trivial, .inl trivial⟩
  | ok result =>
    obtain ⟨body, request⟩ := result
    simp only [s', Webhook.arrive, hauth]
    cases hclaim : claimDigest settings d now reachable s.redis with
    | error e => exact ⟨fun _ => Iff.rfl, fun _ => Iff.rfl, .inl rfl⟩
    | ok claimed =>
      obtain ⟨created, redis⟩ := claimed
      cases created with
      | true =>
        refine ⟨fun reference => ?_, fun _ => Iff.rfl, .inl rfl⟩
        simp [Webhook.Committed, or_and_right, exists_or]
      | false =>
        have hlive := (ReplayGuard.claim_false hclaim).1
        have hreachable : reachable = true := by
          cases reachable with
          | true => rfl
          | false => cases hclaim
        exact ⟨fun _ => Iff.rfl, fun _ => Iff.rfl, .inr ⟨body, request, rfl, hreachable, hlive, rfl⟩⟩

/-- Receipts and committed deliveries stay the same. -/
theorem Webhook.Consistent.step (settings : WebhookSettings) (s : Webhook) (e : WebhookEvent) (h : s.Consistent) :
    (webhookStep settings s e).Consistent := by
  cases e with
  | deliver d now reachable =>
    obtain ⟨hcommitted, hrecorded, -⟩ := s.arrive_cases settings d now reachable
    intro reference
    change (s.arrive settings d now reachable).Recorded reference ↔
      (s.arrive settings d now reachable).Committed reference
    rw [hcommitted, hrecorded]
    exact h reference
  | finish index draws now fails =>
    simp only [webhookStep]
    split
    · rename_i a ha
      split
      · rename_i hinFlight
        rcases Webhook.finish_cases draws now fails ha hinFlight with
          ⟨hcommitted, hrecorded, -⟩ | ⟨hcommitted, hrecorded, -⟩
        · intro reference
          rw [hcommitted, hrecorded]
          exact h reference
        · intro reference
          rw [hcommitted, hrecorded, h reference]
      · exact h
    · exact h
  | service e =>
    simp only [webhookStep]
    split
    · exact h
    · rename_i hother
      intro reference
      unfold Webhook.Recorded
      rw [paymentReceipts_step settings.toSettings s.platform e (Bool.eq_false_iff.mpr hother)]
      exact h reference

/-- A step keeps the acknowledgements honest exactly when it meets the condition. -/
theorem Webhook.Honest.step_iff (settings : WebhookSettings) (s : Webhook) (e : WebhookEvent)
    (hconsistent : s.Consistent) (h : s.Honest) :
    (webhookStep settings s e).Honest ↔ noOrphanClaim settings s e := by
  cases e with
  | deliver d now reachable =>
    obtain ⟨-, hrecorded, hcases⟩ := s.arrive_cases settings d now reachable
    change (∀ reference ∈ (s.arrive settings d now reachable).acknowledged,
      (s.arrive settings d now reachable).Recorded reference) ↔ _
    simp only [hrecorded]
    rcases hcases with hsame | ⟨body, request, hauth, hreachable, hlive, hnew⟩
    · rw [hsame]
      refine ⟨fun _ => noOrphanClaim_deliver.mpr ?_, fun _ => h⟩
      intro body request hauth hreachable hlive
      -- A live digest would have been acknowledged.
      have hclaim : claimDigest settings d now reachable s.redis = .ok (false, s.redis) := by
        rw [claimDigest, ReplayGuard.claim, hreachable, if_pos rfl, Redis.setNx, if_pos hlive]
      simp [Webhook.arrive, hauth, hclaim] at hsame
    · rw [hnew, noOrphanClaim_deliver]
      constructor
      · intro hall body' request' hauth' _ _
        rw [hauth] at hauth'
        injection hauth' with hauth'
        injection hauth' with _ hrequest
        rw [← hrequest]
        exact (hconsistent _).mp (hall _ (List.mem_append_right _ (List.mem_singleton.mpr rfl)))
      · intro hguard reference hmem
        rw [List.mem_append, List.mem_singleton] at hmem
        rcases hmem with hold | rfl
        · exact h reference hold
        · exact (hconsistent _).mpr (hguard body request hauth hreachable hlive)
  | finish index draws now fails =>
    refine ⟨fun _ => trivial, fun _ => ?_⟩
    simp only [webhookStep]
    split
    · rename_i a ha
      split
      · rename_i hinFlight
        rcases Webhook.finish_cases draws now fails ha hinFlight with
          ⟨-, hrecorded, hsame⟩ | ⟨-, hrecorded, hnew⟩
        · intro reference hmem
          rw [hsame] at hmem
          exact (hrecorded reference).mpr (h reference hmem)
        · intro reference hmem
          rw [hnew, List.mem_append, List.mem_singleton] at hmem
          rw [hrecorded]
          rcases hmem with hold | rfl
          · exact .inl (h reference hold)
          · exact .inr rfl
      · exact h
    · exact h
  | service e =>
    refine ⟨fun _ => trivial, fun _ => ?_⟩
    simp only [webhookStep]
    split
    · exact h
    · rename_i hother
      intro reference hmem
      unfold Webhook.Recorded
      rw [paymentReceipts_step settings.toSettings s.platform e (Bool.eq_false_iff.mpr hother)]
      exact h reference hmem

/-- Every acknowledged remittance is recorded throughout a run exactly when no delivery of the run arrives
while its digest is claimed and no delivery with its external reference has committed. -/
theorem acknowledged_recorded_iff (settings : WebhookSettings) (companies : Table companySchema)
    (tariffs : Table tariffSchema) (events : List WebhookEvent) :
    (∀ before, before <+: events →
        (Lib.run (webhookStep settings) (Webhook.initial companies tariffs) before).Honest) ↔
      Along (webhookStep settings) (noOrphanClaim settings) (Webhook.initial companies tariffs) events := by
  have hconsistent : ∀ past, (Lib.run (webhookStep settings) (Webhook.initial companies tariffs) past).Consistent := by
    intro past
    refine run_invariant _ (fun s e h => h.step settings s e) _ (fun reference => ?_) past
    constructor <;> rintro ⟨x, hx, -⟩ <;> cases hx
  constructor
  · intro hhonest
    rw [along_iff]
    rintro before e after rfl
    have hbefore := hhonest before (List.prefix_append _ _)
    have hafter := hhonest (before ++ [e]) ⟨after, by rw [List.append_assoc, List.singleton_append]⟩
    rw [run_concat] at hafter
    exact (hbefore.step_iff settings _ e (hconsistent before)).mp hafter
  · rintro halong before ⟨after, rfl⟩
    rw [along_append] at halong
    have hinv := run_invariant_along (fun s => s.Consistent ∧ s.Honest)
      (fun s e h hguard => ⟨h.1.step settings s e, (h.2.step_iff settings s e h.1).mpr hguard⟩)
      (Webhook.initial companies tariffs) ⟨hconsistent [], fun reference hmem => by cases hmem⟩ before halong.1
    exact hinv.2

/-- A remittance as the bank sends it. -/
def sampleBody : JsonObject :=
  [("external_reference", .str "BANK-1"), ("payment_reference", .str "PAY-2026"), ("amount_minor", .int 1344),
    ("currency", .str "NGN"), ("value_date", .str "2026-03-01T00:00:00+00:00")]

/-- The sample endpoint, which decodes the sample remittance. -/
def sampleWebhook : WebhookSettings where
  toSettings := sampleSettings
  decoder :=
    { loads := fun raw =>
        if raw = asciiBytes (Json.obj sampleBody).dumps then .ok (.obj sampleBody) else .error .jsonDecodeError
      int := fun text => if text = "1772323200" then some 1772323200 else none
      validate := fun body => do
        let externalReference ← (requireStr body "external_reference").toOption
        let paymentReference ← (requireStr body "payment_reference").toOption
        let amountMinor ← (requireInt body "amount_minor").toOption
        let currency ← (requireStr body "currency").toOption
        return ⟨externalReference, paymentReference, amountMinor, currency, sampleNow⟩
      rejectFloatsLimit := 900
      dumpsLimit := 900 }
  paymentWebhookSecret := "hook"
  signatureMaxSkewSeconds := 300
  nonceTtlSeconds := 900

/-- A signed delivery of the sample remittance. -/
def sampleDelivery : WebhookEvent :=
  .deliver ⟨asciiBytes (Json.obj sampleBody).dumps, "87", "1772323200"⟩ sampleNow true

/-- A delivery that commits and is repeated is acknowledged twice and recorded. -/
theorem acknowledged_recorded_sample :
    let s := Lib.run (webhookStep sampleWebhook) (Webhook.initial sampleCompanies sampleTariffs)
      [sampleDelivery, .finish 0 (sampleDraws 1) sampleNow false, sampleDelivery]
    s.acknowledged = ["BANK-1", "BANK-1"] ∧ s.Honest := by
  have hiff := acknowledged_recorded_iff sampleWebhook sampleCompanies sampleTariffs
    [sampleDelivery, .finish 0 (sampleDraws 1) sampleNow false, sampleDelivery]
  have hrun : Along (webhookStep sampleWebhook) (noOrphanClaim sampleWebhook)
        (Webhook.initial sampleCompanies sampleTariffs)
        [sampleDelivery, .finish 0 (sampleDraws 1) sampleNow false, sampleDelivery] ∧
      (Lib.run (webhookStep sampleWebhook) (Webhook.initial sampleCompanies sampleTariffs)
        [sampleDelivery, .finish 0 (sampleDraws 1) sampleNow false, sampleDelivery]).acknowledged =
        ["BANK-1", "BANK-1"] := by
    decide +kernel
  exact ⟨hrun.2, hiff.mpr hrun.1 _ (List.prefix_refl _)⟩

/-- The delivery claims its digest, its transaction fails, and it is delivered again: the second delivery
is acknowledged and nothing is recorded. -/
theorem not_acknowledged_recorded :
    ¬(Lib.run (webhookStep sampleWebhook) (Webhook.initial sampleCompanies sampleTariffs)
      [sampleDelivery, .finish 0 (sampleDraws 1) sampleNow true, sampleDelivery]).Honest := by
  decide +kernel

end TaxStamp
