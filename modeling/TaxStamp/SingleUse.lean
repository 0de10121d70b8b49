import Mathlib.Tactic.Linarith
import TaxStamp.Verification
import TaxStamp.Webhook

/-!
# Single use of signed requests

A signed verification request is fresh while the server's clock is within the skew of its
timestamp, on either side, and its nonce is remembered for a time that is configured on
its own. It can be used once exactly when the nonce outlives the whole window of
freshness.

The settlement webhook remembers the digest of the raw body, while the signature covers
the canonical form of the parsed document. Two bodies that differ in what parsing forgets
are authenticated by one signature and have different digests.
-/

namespace TaxStamp

open Lib

/-- The settings of the endpoints for signed requests, within the ranges the configuration admits. -/
structure SignedSettings extends WebhookSettings where
  validateVerify : JsonObject → Except Fault VerificationRequest
  skew_range : 30 ≤ signatureMaxSkewSeconds ∧ signatureMaxSkewSeconds ≤ 900
  ttl_range : 60 ≤ nonceTtlSeconds ∧ nonceTtlSeconds ≤ 86400

/-- A signed request to the verification endpoint. -/
structure VerifyCall where
  actor : Actor
  raw : Bytes
  signature : String
  timestamp : String

/-- Report a bad signature of a verification without its details. -/
def hideVerifySignatureError {α : Type} : Except Fault α → Except Fault α
  | .error (.signatureError _) => .error (.unauthenticated "request signature is invalid or stale")
  | result => result

/-- The verification endpoint up to the replay guard. What the rate limiter answers is an input. -/
def admitCall (settings : SignedSettings) (call : VerifyCall) (limiter : Except Fault Unit) (now : Time) :
    Except Fault VerificationRequest := do
  if call.actor.role ∉ [Role.device, .operator, .admin] then
    .error (.forbidden s!"role {call.actor.role.value} may not perform this action"
      [("required", ",".intercalate ([Role.device, .operator, .admin].map Role.value))])
  limiter
  if 8 * 1024 < call.raw.length then .error (.validationFailed "payload is too large")
  match settings.decoder.loads call.raw with
  | .error e => .error e.reported
  | .ok (.obj document) =>
    let timestamp ← headerTimestamp settings.decoder call.timestamp
    settings.decoder.checkCanonical document
    hideVerifySignatureError (verifySignedRequest settings.crypto ⟨document, call.signature, timestamp⟩
      settings.deviceHmacSecret now settings.signatureMaxSkewSeconds)
    let body ← settings.validateVerify document
    if call.actor.subject ≠ body.deviceId then
      .error (.forbidden "device_id must match the authenticated principal")
    return body
  | .ok _ => .error (.validationFailed "body must be a JSON object")

/-- The nonces, and how many deliveries of the request have got past the guard. -/
structure Guard where
  redis : Redis
  passed : ℕ

/-- A delivery of the request at a server time, or a nonce that another request claims. -/
inductive GuardEvent
  | deliver (limiter : Except Fault Unit) (now : Time) (reachable : Bool)
  | other (name : String) (now : Time)

/-- The guard after an event. -/
def guardStep (settings : SignedSettings) (call : VerifyCall) (s : Guard) : GuardEvent → Guard
  | .deliver limiter now reachable =>
    match admitCall settings call limiter now with
    | .error _ => s
    | .ok body =>
      match ReplayGuard.claim reachable settings.nonceTtlSeconds body.deviceId body.nonce now s.redis with
      | .ok (true, redis) => ⟨redis, s.passed + 1⟩
      | .ok (false, _) | .error _ => s
  | .other name now => { s with redis := (s.redis.setNx name settings.nonceTtlSeconds now).2 }

/-- At most one delivery of the request gets past the guard, in every schedule. -/
def SingleUse (settings : SignedSettings) (call : VerifyCall) : Prop :=
  ∀ redis events, (run (guardStep settings call) ⟨redis, 0⟩ events).passed ≤ 1

/-- The request is well formed and signed by its device, at a time and with a content. -/
structure WellSigned (settings : SignedSettings) (call : VerifyCall) (document : JsonObject) (signedAt : Time)
    (body : VerificationRequest) : Prop where
  role : call.actor.role ∈ [Role.device, .operator, .admin]
  size : call.raw.length ≤ 8 * 1024
  loads : settings.decoder.loads call.raw = .ok (.obj document)
  timestamp : headerTimestamp settings.decoder call.timestamp = .ok signedAt
  canonical : settings.decoder.checkCanonical document = .ok ()
  signature : ∃ expected, signRequest settings.crypto document signedAt settings.deviceHmacSecret = .ok expected ∧
    compareDigest expected call.signature = .ok true
  valid : settings.validateVerify document = .ok body
  subject : call.actor.subject = body.deviceId

/-- The signed content of a request and its time are unique. -/
theorem WellSigned.unique {settings : SignedSettings} {call : VerifyCall} {document document' : JsonObject}
    {signedAt signedAt' : Time} {body body' : VerificationRequest} (h : WellSigned settings call document signedAt body)
    (h' : WellSigned settings call document' signedAt' body') : signedAt' = signedAt ∧ body' = body := by
  have hdocument : document' = document := by
    have hloads := h'.loads.symm.trans h.loads
    simpa using hloads
  subst hdocument
  exact ⟨Except.ok.inj (h'.timestamp.symm.trans h.timestamp), Except.ok.inj (h'.valid.symm.trans h.valid)⟩

/-- A check that refuses on a condition lets the rest go on exactly when the condition fails. -/
theorem refuseIf_ok {α β : Type} {condition : Prop} [Decidable condition] {e : Fault} {f : α → Except Fault β}
    {rest : Except Fault β} {b : β} :
    (if condition then Except.error e >>= f else rest) = .ok b ↔ ¬condition ∧ rest = .ok b := by
  split
  · rename_i hcondition
    simp [hcondition, bind, Except.bind]
  · rename_i hcondition
    simp [hcondition]

/-- A signed request is verified exactly when its signature is the expected one and it is fresh. -/
theorem verifySignedRequest_ok {crypto : Crypto} {request : SignedRequest} {secret : String} {now : Time}
    {maxSkewSeconds : ℤ} {u : Unit} :
    verifySignedRequest crypto request secret now maxSkewSeconds = .ok u ↔
      (∃ expected, signRequest crypto request.body request.timestamp secret = .ok expected ∧
        compareDigest expected request.signature = .ok true) ∧
      ((now - request.timestamp).natAbs : ℤ) ≤ seconds maxSkewSeconds := by
  simp only [verifySignedRequest, Except.bind_ok, refuseIf_ok]
  constructor
  · rintro ⟨expected, hsign, same, hcompare, hsame, hfresh⟩
    have hsame : same = true := by simpa using hsame
    rw [hsame] at hcompare
    refine ⟨⟨expected, hsign, hcompare⟩, ?_⟩
    split at hfresh
    · cases hfresh
    · rename_i hskew
      exact not_lt.mp hskew
  · rintro ⟨⟨expected, hsign, hcompare⟩, hfresh⟩
    refine ⟨expected, hsign, true, hcompare, by simp, ?_⟩
    rw [if_neg (not_lt.mpr hfresh)]
    rfl

/-- Hiding the details of a bad signature lets only a good one through. -/
theorem hideVerifySignatureError_ok {α : Type} {result : Except Fault α} {a : α} :
    hideVerifySignatureError result = .ok a ↔ result = .ok a := by
  unfold hideVerifySignatureError
  split
  · simp
  · rfl

/-- A request is admitted exactly when the limiter lets it through and it is authentic and fresh. -/
theorem admitCall_ok {settings : SignedSettings} {call : VerifyCall} {limiter : Except Fault Unit} {now : Time}
    {body : VerificationRequest} :
    admitCall settings call limiter now = .ok body ↔
      limiter = .ok () ∧ ∃ document signedAt, WellSigned settings call document signedAt body ∧
        ((now - signedAt).natAbs : ℤ) ≤ seconds settings.signatureMaxSkewSeconds := by
  simp only [admitCall, Except.bind_ok, refuseIf_ok]
  constructor
  · rintro ⟨hrole, u, hlimiter, hsize, hrest⟩
    refine ⟨hlimiter, ?_⟩
    split at hrest
    · cases hrest
    · rename_i document hloads
      simp only [Except.bind_ok, hideVerifySignatureError_ok, verifySignedRequest_ok, refuseIf_ok] at hrest
      obtain ⟨signedAt, hsigned, ⟨⟩, hcanonical, -, ⟨hsignature, hfresh⟩, content, hvalidate, hsubject, hbody⟩ := hrest
      obtain rfl : content = body := Except.ok.inj hbody
      exact ⟨document, signedAt, ⟨not_not.mp hrole, not_lt.mp hsize, hloads, hsigned, hcanonical, hsignature,
        hvalidate, not_not.mp hsubject⟩, hfresh⟩
    · cases hrest
  · rintro ⟨hlimiter, document, signedAt, hsigned, hfresh⟩
    refine ⟨not_not.mpr hsigned.role, (), hlimiter, not_lt.mpr hsigned.size, ?_⟩
    rw [hsigned.loads]
    simp only [Except.bind_ok, hideVerifySignatureError_ok, verifySignedRequest_ok, refuseIf_ok]
    exact ⟨signedAt, hsigned.timestamp, (), hsigned.canonical, (), ⟨hsigned.signature, hfresh⟩, body, hsigned.valid,
      not_not.mpr hsigned.subject, rfl⟩

/-- A key that lives at a time has lived before. -/
theorem Redis.live_mono {redis : Redis} {name : String} {time time' : Time} (h : redis.live name time = true)
    (hle : time' ≤ time) : redis.live name time' = true := by
  obtain ⟨key, hkey, hlive⟩ := List.any_eq_true.mp h
  simp only [Bool.and_eq_true, decide_eq_true_eq] at hlive
  refine List.any_eq_true.mpr ⟨key, hkey, ?_⟩
  simp only [Bool.and_eq_true, decide_eq_true_eq]
  exact ⟨hlive.1, lt_of_le_of_lt hle hlive.2⟩

/-- A key that was created lives until its time has elapsed. -/
theorem Redis.live_of_setNx {redis : Redis} {name : String} {ttlSeconds : ℤ} {now time : Time}
    (hdead : redis.live name now = false) (htime : time < now + seconds ttlSeconds) :
    (redis.setNx name ttlSeconds now).2.live name time = true := by
  rw [Redis.setNx, hdead]
  simp [Redis.live, htime]

/-- Setting a key shortens the life of none. -/
theorem Redis.live_setNx {redis : Redis} {name name' : String} {ttlSeconds : ℤ} {now time : Time}
    (h : redis.live name time = true) (httl : 0 ≤ ttlSeconds) :
    (redis.setNx name' ttlSeconds now).2.live name time = true := by
  cases hlive : redis.live name' now with
  | true =>
    rw [Redis.setNx, if_pos hlive]
    exact h
  | false =>
    by_cases hname : name = name'
    · subst hname
      refine live_of_setNx hlive ?_
      have hnow : time < now := by
        by_contra hle
        rw [live_mono h (not_lt.mp hle)] at hlive
        cases hlive
      have hlife : 0 ≤ seconds ttlSeconds := Int.mul_nonneg httl (by decide)
      exact lt_of_lt_of_le hnow (Int.le_add_of_nonneg_right hlife)
    · obtain ⟨key, hkey, hkeyLive⟩ := List.any_eq_true.mp h
      simp only [Bool.and_eq_true, decide_eq_true_eq] at hkeyLive
      rw [Redis.setNx, hlive]
      refine List.any_eq_true.mpr ⟨key, List.mem_cons_of_mem _ (List.mem_filter.mpr ⟨hkey, ?_⟩), ?_⟩
      · simp [hkeyLive.1, hname]
      · simp [hkeyLive.1, hkeyLive.2]

/-- A nonce is claimed exactly when Redis is reachable and the key does not live. -/
theorem ReplayGuard.claim_true {reachable : Bool} {ttlSeconds : ℤ} {deviceId nonce : String} {now : Time}
    {redis redis' : Redis} :
    claim reachable ttlSeconds deviceId nonce now redis = .ok (true, redis') ↔
      reachable = true ∧ redis.live (key deviceId nonce) now = false ∧
        redis' = (redis.setNx (key deviceId nonce) ttlSeconds now).2 := by
  cases reachable <;> cases hlive : redis.live (key deviceId nonce) now <;>
    simp [claim, Redis.setNx, hlive, eq_comm]

section SingleUse

variable {settings : SignedSettings} {call : VerifyCall} {document : JsonObject} {signedAt : Time}
  {body : VerificationRequest}

/-- A time is within a skew of another. -/
theorem fresh_iff {now signedAt : Time} {skew : ℤ} :
    ((now - signedAt).natAbs : ℤ) ≤ skew ↔ signedAt - skew ≤ now ∧ now ≤ signedAt + skew := by
  rw [Int.natCast_natAbs, abs_le]
  constructor <;> rintro ⟨hlow, hhigh⟩ <;> constructor <;> linarith

/-- Durations compare as their numbers of seconds do. -/
theorem seconds_double_lt_iff {n m : ℤ} : 2 * seconds n < seconds m ↔ 2 * n < m := by
  unfold seconds
  omega

/-- Until a delivery passes nothing is known; after it the nonce lives to the end of the window. -/
def Guard.Spent (settings : SignedSettings) (signedAt : Time) (body : VerificationRequest) (s : Guard) : Prop :=
  s.passed = 0 ∨ s.passed = 1 ∧ s.redis.live (ReplayGuard.key body.deviceId body.nonce)
    (signedAt + seconds settings.signatureMaxSkewSeconds) = true

/-- What a delivery does to the guard. -/
theorem guardStep_deliver (limiter : Except Fault Unit) (now : Time) (reachable : Bool) (s : Guard) :
    guardStep settings call s (.deliver limiter now reachable) = s ∨
      ∃ body, admitCall settings call limiter now = .ok body ∧
        s.redis.live (ReplayGuard.key body.deviceId body.nonce) now = false ∧
        guardStep settings call s (.deliver limiter now reachable) =
          ⟨(s.redis.setNx (ReplayGuard.key body.deviceId body.nonce) settings.nonceTtlSeconds now).2, s.passed + 1⟩ := by
  simp only [guardStep]
  split
  · exact .inl rfl
  · rename_i body hadmit
    split
    · rename_i redis hclaim
      obtain ⟨-, hdead, rfl⟩ := ReplayGuard.claim_true.mp hclaim
      exact .inr ⟨body, hadmit, hdead, rfl⟩
    · exact .inl rfl
    · exact .inl rfl

/-- A nonce that outlives the window of freshness is spent once. -/
theorem Guard.Spent.step (hsigned : WellSigned settings call document signedAt body)
    (houtlives : 2 * settings.signatureMaxSkewSeconds < settings.nonceTtlSeconds) (s : Guard) (e : GuardEvent)
    (h : s.Spent settings signedAt body) : (guardStep settings call s e).Spent settings signedAt body := by
  have httl : 0 ≤ settings.nonceTtlSeconds := by
    have := settings.ttl_range
    omega
  cases e with
  | deliver limiter now reachable =>
    rcases guardStep_deliver limiter now reachable s with hsame | ⟨body', hadmit, hdead, hnext⟩
    · rw [hsame]
      exact h
    · obtain ⟨-, document', signedAt', hsigned', hfresh⟩ := admitCall_ok.mp hadmit
      obtain ⟨rfl, rfl⟩ := hsigned.unique hsigned'
      obtain ⟨hafter, hbefore⟩ := fresh_iff.mp hfresh
      rw [hnext]
      rcases h with hnone | ⟨-, hlive⟩
      · refine .inr ⟨by rw [hnone], Redis.live_of_setNx hdead ?_⟩
        have hlong := seconds_double_lt_iff.mpr houtlives
        linarith
      · -- The nonce still lives when a second delivery is fresh.
        have hlive' := Redis.live_mono hlive hbefore
        rw [hdead] at hlive'
        cases hlive'
  | other name now =>
    rcases h with hnone | ⟨hone, hlive⟩
    · exact .inl hnone
    · exact .inr ⟨hone, Redis.live_setNx hlive httl⟩

/-- A nonce that does not outlive the window is claimed at its beginning and again at its end. -/
theorem guardStep_twice (hsigned : WellSigned settings call document signedAt body)
    (hexpires : settings.nonceTtlSeconds ≤ 2 * settings.signatureMaxSkewSeconds) :
    (run (guardStep settings call) ⟨[], 0⟩
      [.deliver (.ok ()) (signedAt - seconds settings.signatureMaxSkewSeconds) true,
        .deliver (.ok ()) (signedAt + seconds settings.signatureMaxSkewSeconds) true]).passed = 2 := by
  have hskew := settings.skew_range
  have hadmit : ∀ now : Time, ((now - signedAt).natAbs : ℤ) ≤ seconds settings.signatureMaxSkewSeconds →
      admitCall settings call (.ok ()) now = .ok body := fun now hfresh =>
    admitCall_ok.mpr ⟨rfl, document, signedAt, hsigned, hfresh⟩
  have hnonneg : 0 ≤ seconds settings.signatureMaxSkewSeconds := Int.mul_nonneg (by omega) (by decide)
  have hfirst := hadmit (signedAt - seconds settings.signatureMaxSkewSeconds)
    (fresh_iff.mpr ⟨le_refl _, by linarith⟩)
  have hsecond := hadmit (signedAt + seconds settings.signatureMaxSkewSeconds)
    (fresh_iff.mpr ⟨by linarith, le_refl _⟩)
  have hdead : ¬signedAt + seconds settings.signatureMaxSkewSeconds <
      signedAt - seconds settings.signatureMaxSkewSeconds + seconds settings.nonceTtlSeconds := by
    have hshort := not_lt.mpr hexpires
    rw [← seconds_double_lt_iff] at hshort
    linarith
  simp [run, guardStep, hfirst, hsecond, ReplayGuard.claim, Redis.setNx, Redis.live, hdead]

end SingleUse

/-- A signed request can be used once, in every schedule of its deliveries, exactly when it is not authentic
or the nonce is remembered for longer than the request is fresh. -/
theorem single_use_iff (settings : SignedSettings) (call : VerifyCall) :
    SingleUse settings call ↔
      ((∃ document signedAt body, WellSigned settings call document signedAt body) →
        2 * settings.signatureMaxSkewSeconds < settings.nonceTtlSeconds) := by
  constructor
  · rintro honce ⟨document, signedAt, body, hsigned⟩
    by_contra hexpires
    have htwice := guardStep_twice hsigned (not_lt.mp hexpires)
    have hle := honce [] [.deliver (.ok ()) (signedAt - seconds settings.signatureMaxSkewSeconds) true,
      .deliver (.ok ()) (signedAt + seconds settings.signatureMaxSkewSeconds) true]
    omega
  · intro houtlives redis events
    by_cases hsigned : ∃ document signedAt body, WellSigned settings call document signedAt body
    · obtain ⟨document, signedAt, body, hsigned'⟩ := hsigned
      have hspent := run_invariant (Guard.Spent settings signedAt body)
        (fun s e h => h.step hsigned' (houtlives ⟨document, signedAt, body, hsigned'⟩) s e) ⟨redis, 0⟩ (.inl rfl)
        events
      rcases hspent with hnone | ⟨hone, -⟩ <;> omega
    · -- Nothing is ever admitted.
      have hstep : ∀ (s : Guard) (e : GuardEvent), s.passed = 0 → (guardStep settings call s e).passed = 0 := by
        intro s e h
        cases e with
        | deliver limiter now reachable =>
          rcases guardStep_deliver limiter now reachable s with hsame | ⟨body, hadmit, -⟩
          · rw [hsame]
            exact h
          · obtain ⟨-, document, signedAt, hsigned', -⟩ := admitCall_ok.mp hadmit
            exact absurd ⟨document, signedAt, body, hsigned'⟩ hsigned
        | other name now => exact h
      have hnone := run_invariant (fun s : Guard => s.passed = 0) hstep ⟨redis, 0⟩ rfl events
      omega

/-- A verification as a device sends it. -/
def sampleVerification : JsonObject :=
  [("device_id", .str "dev"), ("nonce", .str "n-0001"), ("secure_code", .str "ABCDEFGH"), ("serial", .str "S")]

/-- Settings that pass the checks of the configuration, with the widest window and the shortest memory. -/
def sampleShortMemory : SignedSettings where
  toSettings :=
    { sampleSettings with deviceHmacSecret := "device-hmac-secret-of-more-than-forty-eight-characters" }
  decoder :=
    { sampleWebhook.decoder with
      loads := fun raw =>
        if raw = asciiBytes (Json.obj sampleVerification).dumps then .ok (.obj sampleVerification)
        else .error .jsonDecodeError }
  paymentWebhookSecret := "payment-webhook-secret-of-more-than-forty-eight-characters"
  signatureMaxSkewSeconds := 900
  nonceTtlSeconds := 60
  validateVerify := fun body => do
    let serial ← requireStr body "serial"
    let secureCode ← requireStr body "secure_code"
    let deviceId ← requireStr body "device_id"
    let nonce ← requireStr body "nonce"
    return { serial := serial, secureCode := secureCode, deviceId := deviceId, nonce := nonce }
  skew_range := by decide
  ttl_range := by decide

/-- The sample verification, signed by its device. -/
def sampleSignedCall : VerifyCall :=
  ⟨⟨⟨13⟩, "dev", .device, none, none⟩, asciiBytes (Json.obj sampleVerification).dumps, "87", "1772323200"⟩

/-- A request signed at noon is used at a quarter to and again at a quarter past. -/
theorem not_single_use : ¬SingleUse sampleShortMemory sampleSignedCall := by
  intro honce
  have hle := honce [] [.deliver (.ok ()) (sampleNow - seconds 900) true,
    .deliver (.ok ()) (sampleNow + seconds 900) true]
  revert hle
  decide

section SameSignature

/-- The delivery gets past the guard, to `ingest_remittance`. -/
def Webhook.passes (settings : WebhookSettings) (s : Webhook) (d : Delivery) (now : Time) (reachable : Bool) : Prop :=
  s.attempts.length < (s.arrive settings d now reachable).attempts.length

instance (settings : WebhookSettings) (s : Webhook) (d : Delivery) (now : Time) (reachable : Bool) :
    Decidable (s.passes settings d now reachable) :=
  inferInstanceAs (Decidable (_ < _))

/-- Two deliveries that one signature authenticates, the second within the life of the first one's nonce. -/
structure SameSignature (settings : SignedSettings) (d d' : Delivery) (now now' : Time) : Prop where
  signature : d'.signature = d.signature
  timestamp : d'.timestamp = d.timestamp
  first : (authenticate settings.toWebhookSettings d now).isOk = true
  second : (authenticate settings.toWebhookSettings d' now').isOk = true
  within : now' < now + seconds settings.nonceTtlSeconds

/-- The key under which a delivery is remembered. -/
def Delivery.key (settings : WebhookSettings) (d : Delivery) : String :=
  ReplayGuard.key "payments" (sha256Hex settings.crypto d.raw)

/-- A delivery that is accepted gets past the guard exactly when Redis is reachable and does not remember it. -/
theorem Webhook.passes_iff {settings : WebhookSettings} {s : Webhook} {d : Delivery} {now : Time} {reachable : Bool}
    (haccepted : (authenticate settings d now).isOk = true) :
    s.passes settings d now reachable ↔ reachable = true ∧ s.redis.live (d.key settings) now = false := by
  cases hauth : authenticate settings d now with
  | error fault =>
    rw [hauth] at haccepted
    cases haccepted
  | ok result =>
    unfold passes arrive claimDigest
    rw [hauth]
    cases reachable with
    | false => simp [ReplayGuard.claim]
    | true =>
      cases hlive : s.redis.live (d.key settings) now <;> unfold Delivery.key at hlive <;>
        simp [ReplayGuard.claim, Redis.setNx, hlive]

/-- What Redis remembers after an arrival that got past the guard. -/
theorem Webhook.passes_redis {settings : WebhookSettings} {s : Webhook} {d : Delivery} {now : Time} {reachable : Bool}
    (hpasses : s.passes settings d now reachable) :
    (s.arrive settings d now reachable).redis = (s.redis.setNx (d.key settings) settings.nonceTtlSeconds now).2 := by
  unfold passes arrive at hpasses
  unfold arrive
  split
  · rename_i fault hauth
    simp [hauth] at hpasses
  · rename_i body request hauth
    split
    · rename_i fault hclaim
      simp [hauth, hclaim] at hpasses
    · rename_i redis hclaim
      simp [hauth, hclaim] at hpasses
    · rename_i redis hclaim
      exact (ReplayGuard.claim_true.mp hclaim).2.2

/-- Nothing the webhook does shortens the life of a key. -/
theorem webhookStep_live (settings : SignedSettings) {name : String} {time : Time} (s : Webhook) (e : WebhookEvent)
    (h : s.redis.live name time = true) :
    (webhookStep settings.toWebhookSettings s e).redis.live name time = true := by
  have httl : 0 ≤ settings.nonceTtlSeconds := by
    have := settings.ttl_range
    omega
  cases e with
  | deliver d now reachable =>
    simp only [webhookStep, Webhook.arrive]
    split
    · exact h
    · split
      · exact h
      · exact h
      · rename_i redis hclaim
        obtain ⟨-, -, rfl⟩ := ReplayGuard.claim_true.mp hclaim
        exact Redis.live_setNx h httl
  | finish index draws now fails =>
    simp only [webhookStep]
    split
    · split
      · unfold Webhook.finish
        split
        · exact h
        · split <;> exact h
      · exact h
    · exact h
  | service e =>
    simp only [webhookStep]
    split <;> exact h

/-- Deliveries with one digest do not both pass: the claim of the first outlives the second one's arrival. -/
theorem Webhook.not_both_pass {settings : SignedSettings} {d d' : Delivery} {now now' : Time}
    (h : SameSignature settings d d' now now') (hdigest : sha256Hex settings.crypto d'.raw = sha256Hex settings.crypto d.raw)
    (s : Webhook) (reachable reachable' : Bool) (between : List WebhookEvent) :
    ¬(s.passes settings.toWebhookSettings d now reachable ∧
      (run (webhookStep settings.toWebhookSettings) (s.arrive settings.toWebhookSettings d now reachable) between).passes
        settings.toWebhookSettings d' now' reachable') := by
  rintro ⟨hpasses, hpasses'⟩
  obtain ⟨-, hdead⟩ := (passes_iff h.first).mp hpasses
  obtain ⟨-, hdead'⟩ := (passes_iff h.second).mp hpasses'
  have hkey : d'.key settings.toWebhookSettings = d.key settings.toWebhookSettings :=
    congrArg (ReplayGuard.key "payments") hdigest
  have hclaimed : (s.arrive settings.toWebhookSettings d now reachable).redis.live
      (d'.key settings.toWebhookSettings) now' = true := by
    rw [passes_redis hpasses, hkey]
    exact Redis.live_of_setNx hdead h.within
  have hlive := run_invariant (fun t : Webhook => t.redis.live (d'.key settings.toWebhookSettings) now' = true)
    (webhookStep_live settings) _ hclaimed between
  rw [hdead'] at hlive
  cases hlive

/-- Deliveries with two digests both pass one after the other when nothing has been remembered before. -/
theorem Webhook.both_pass {settings : SignedSettings} {d d' : Delivery} {now now' : Time}
    (h : SameSignature settings d d' now now') (hdigest : sha256Hex settings.crypto d'.raw ≠ sha256Hex settings.crypto d.raw)
    {s : Webhook} (hs : s.redis = []) :
    s.passes settings.toWebhookSettings d now true ∧
      (s.arrive settings.toWebhookSettings d now true).passes settings.toWebhookSettings d' now' true := by
  have hdead : s.redis.live (d.key settings.toWebhookSettings) now = false := by rw [hs]; rfl
  have hpasses := (passes_iff h.first).mpr ⟨rfl, hdead⟩
  have hkey : d.key settings.toWebhookSettings ≠ d'.key settings.toWebhookSettings := by
    intro hsame
    have hletters := congrArg String.toList hsame
    simp only [Delivery.key, ReplayGuard.key, String.toList_append] at hletters
    exact hdigest (String.toList_inj.mp (List.append_cancel_left hletters)).symm
  refine ⟨hpasses, (passes_iff h.second).mpr ⟨rfl, ?_⟩⟩
  rw [passes_redis hpasses, Redis.setNx, hdead, hs]
  simp [Redis.live, hkey]

end SameSignature

/-- Of two deliveries at most one is passed on: in every state, at all times at which one signature authenticates them
within the life of the first one's nonce, wherever Redis is reached, and whatever the webhook does in between. -/
def OnePasses (settings : SignedSettings) (d d' : Delivery) : Prop :=
  ∀ (s : Webhook) (now now' : Time) (reachable reachable' : Bool) (between : List WebhookEvent),
    SameSignature settings d d' now now' →
      ¬(s.passes settings.toWebhookSettings d now reachable ∧
        (run (webhookStep settings.toWebhookSettings) (s.arrive settings.toWebhookSettings d now reachable) between).passes
          settings.toWebhookSettings d' now' reachable')

/-- Of two deliveries that one signature authenticates at most one is passed on exactly when their raw bodies have one
digest. -/
theorem one_signature_one_remittance_iff (settings : SignedSettings) (d d' : Delivery)
    (h : ∃ now now', SameSignature settings d d' now now') :
    OnePasses settings d d' ↔ sha256Hex settings.crypto d'.raw = sha256Hex settings.crypto d.raw := by
  obtain ⟨now, now', hsame⟩ := h
  constructor
  · intro hone
    by_contra hdigest
    exact hone (.initial (.empty _) (.empty _)) now now' true true [] hsame (Webhook.both_pass hsame hdigest rfl)
  · intro hdigest s now now' reachable reachable' between hsame
    exact Webhook.not_both_pass hsame hdigest s reachable reachable' between

/-- An endpoint that decodes the sample remittance with or without a line break after it. -/
def sampleLenient : SignedSettings where
  toSettings :=
    { sampleSettings with crypto := ⟨fun message => [.ofNat message.length], sampleSettings.crypto.hmacSha256⟩ }
  decoder :=
    { sampleWebhook.decoder with
      loads := fun raw =>
        if raw = asciiBytes (Json.obj sampleBody).dumps ∨ raw = asciiBytes ((Json.obj sampleBody).dumps ++ ['\n']) then
          .ok (.obj sampleBody)
        else .error .jsonDecodeError }
  paymentWebhookSecret := "hook"
  signatureMaxSkewSeconds := 300
  nonceTtlSeconds := 900
  validateVerify := sampleShortMemory.validateVerify
  skew_range := by decide
  ttl_range := by decide

/-- The sample remittance as the bank signed it. -/
def sampleExact : Delivery := ⟨asciiBytes (Json.obj sampleBody).dumps, "87", "1772323200"⟩

/-- The same remittance under the same signature, with a line break after it. -/
def samplePadded : Delivery := ⟨asciiBytes ((Json.obj sampleBody).dumps ++ ['\n']), "87", "1772323200"⟩

/-- A remittance that is delivered again as it was is passed on once, and with a line break after it twice. -/
theorem one_signature_one_remittance_sample :
    OnePasses sampleLenient sampleExact sampleExact ∧ ¬OnePasses sampleLenient sampleExact samplePadded := by
  have hsame : SameSignature sampleLenient sampleExact sampleExact sampleNow sampleNow :=
    ⟨rfl, rfl, by decide +kernel, by decide +kernel, by decide⟩
  have hpadded : SameSignature sampleLenient sampleExact samplePadded sampleNow sampleNow :=
    ⟨rfl, rfl, by decide +kernel, by decide +kernel, by decide⟩
  refine ⟨(one_signature_one_remittance_iff sampleLenient _ _ ⟨_, _, hsame⟩).mpr rfl, fun hone => ?_⟩
  exact absurd ((one_signature_one_remittance_iff sampleLenient _ _ ⟨_, _, hpadded⟩).mp hone) (by decide +kernel)

/-- A line break after the remittance makes it another body under the same signature, and both are passed on. -/
theorem not_one_signature_one_remittance :
    let s := Webhook.initial sampleCompanies sampleTariffs
    let s' := s.arrive sampleLenient.toWebhookSettings sampleExact sampleNow true
    SameSignature sampleLenient sampleExact samplePadded sampleNow sampleNow ∧
      s.passes sampleLenient.toWebhookSettings sampleExact sampleNow true ∧
      s'.passes sampleLenient.toWebhookSettings samplePadded sampleNow true :=
  ⟨⟨rfl, rfl, by decide +kernel, by decide +kernel, by decide⟩, by decide +kernel, by decide +kernel⟩

end TaxStamp
