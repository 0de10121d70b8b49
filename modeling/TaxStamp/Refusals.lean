import TaxStamp.AuditChain
import TaxStamp.Lib.Raises
import TaxStamp.SingleUse

/-!
# Refusals of the settlement webhook

Nothing is known about a delivery before its signature has been verified, so every step up
to there has to turn whatever arrives into a refusal. The steps catch one kind of exception
each. This is the exact class of deliveries for which that is enough; the others end in an
exception that is no domain error, before a nonce is claimed or a row written.
-/

namespace TaxStamp

open Lib

/-- The errors with which the endpoint refuses a delivery. -/
def Fault.IsRefusal : Fault → Prop
  | .domain .validationFailed _ _ | .domain .unauthenticated _ _ | .domain .dependencyUnavailable _ _ => True
  | _ => False

/-- How a delivery that is not refused goes on. -/
inductive DeliveryAnswer
  | duplicateDelivery (externalReference : String)
  | ingestRemittance (body : JsonObject) (request : RemittanceRequest)

/-- What a delivery is answered, up to the call of `ingest_remittance`. -/
def Webhook.respond (settings : WebhookSettings) (s : Webhook) (d : Delivery) (now : Time) (reachable : Bool) :
    Except Fault DeliveryAnswer := do
  let (body, request) ← authenticate settings d now
  let (created, _) ← claimDigest settings d now reachable s.redis
  return if created then .ingestRemittance body request else .duplicateDelivery request.externalReference

/-- A delivery that does not go on to its remittance is refused, with nothing changed, or answered as a duplicate,
with nothing claimed or written. -/
def RefusesCleanly (settings : WebhookSettings) (s : Webhook) (d : Delivery) (now : Time) (reachable : Bool) : Prop :=
  match s.respond settings d now reachable with
  | .error fault => fault.IsRefusal ∧ s.arrive settings d now reachable = s
  | .ok (.duplicateDelivery reference) =>
    s.arrive settings d now reachable = { s with acknowledged := s.acknowledged ++ [reference] }
  | .ok (.ingestRemittance ..) => True

/-- The seconds of a header that the system's calendar can hold. -/
def inCalendar (n : ℤ) : Prop := (-2 ^ 63 ≤ n ∧ n < 2 ^ 63) ∧ Time.fitsCalendar (seconds n) = true

/-- A document that the steps after its decoding can process: it has no float and is not nested too deeply, its
signature can be compared, and if it is signed and fresh, then it is a remittance. -/
structure Processable (settings : WebhookSettings) (d : Delivery) (now : Time) (body : JsonObject) (timestamp : Time) :
    Prop where
  noFloat : (Json.obj body).occurs Json.isFloat = false
  shallow : (Json.obj body).depth 1 ≤ settings.decoder.rejectFloatsLimit
  printable : (Json.obj body).depth 0 ≤ settings.decoder.dumpsLimit
  ascii : IsAscii d.signature.toList
  valid : verifySignedRequest settings.crypto ⟨body, d.signature, timestamp⟩ settings.paymentWebhookSecret now
    settings.signatureMaxSkewSeconds = .ok () → (settings.decoder.validate body).isSome = true

/-- A delivery that is too large, malformed as the endpoint expects it, or processable. -/
def Delivery.Expected (settings : WebhookSettings) (d : Delivery) (now : Time) : Prop :=
  d.raw.length ≤ 64 * 1024 →
    match settings.decoder.loads d.raw with
    | .error e => e = .jsonDecodeError
    | .ok (.obj body) => ∀ n, settings.decoder.int d.timestamp = some n →
      inCalendar n ∧ (Time.representable (seconds n) = true → Processable settings d now body (seconds n))
    | .ok _ => True

section Canonical

/-- An array passes when each of its items does. -/
theorem Json.rejectFloatItems_ok {limit : ℕ} (items : List Json) :
    Json.rejectFloatItems limit items = .ok () ↔ ∀ item ∈ items, item.rejectFloats limit = .ok () := by
  induction items with
  | nil => simp [Json.rejectFloatItems]
  | cons item rest ih =>
    rw [Json.rejectFloatItems, Except.bind_ok, List.forall_mem_cons, ← ih]
    exact ⟨fun ⟨(), hitem, hrest⟩ => ⟨hitem, hrest⟩, fun ⟨hitem, hrest⟩ => ⟨(), hitem, hrest⟩⟩

/-- An object passes when each of its values does. -/
theorem Json.rejectFloatFields_ok {limit : ℕ} (fields : List (String × Json)) :
    Json.rejectFloatFields limit fields = .ok () ↔ ∀ field ∈ fields, field.2.rejectFloats limit = .ok () := by
  induction fields with
  | nil => simp [Json.rejectFloatFields]
  | cons field rest ih =>
    obtain ⟨key, item⟩ := field
    rw [Json.rejectFloatFields, Except.bind_ok, List.forall_mem_cons, ← ih]
    exact ⟨fun ⟨(), hitem, hrest⟩ => ⟨hitem, hrest⟩, fun ⟨hitem, hrest⟩ => ⟨(), hitem, hrest⟩⟩

/-- An array's items are as deep as the deepest of them. -/
theorem Json.depthItems_le {leaf n : ℕ} (items : List Json) :
    Json.depthItems leaf items ≤ n ↔ ∀ item ∈ items, item.depth leaf ≤ n := by
  induction items with
  | nil => simp [Json.depthItems]
  | cons item rest ih => rw [Json.depthItems, max_le_iff, ih, List.forall_mem_cons]

/-- An object's values are as deep as the deepest of them. -/
theorem Json.depthFields_le {leaf n : ℕ} (fields : List (String × Json)) :
    Json.depthFields leaf fields ≤ n ↔ ∀ field ∈ fields, field.2.depth leaf ≤ n := by
  induction fields with
  | nil => simp [Json.depthFields]
  | cons field rest ih =>
    obtain ⟨key, item⟩ := field
    rw [Json.depthFields, max_le_iff, ih, List.forall_mem_cons]

/-- A document passes exactly when no float occurs in it and the calls reach its deepest value. -/
theorem Json.rejectFloats_ok {limit : ℕ} (v : Json) :
    v.rejectFloats limit = .ok () ↔ v.occurs Json.isFloat = false ∧ v.depth 1 ≤ limit := by
  induction v using Json.ind generalizing limit with
  | null => cases limit <;> simp [Json.rejectFloats, Json.occurs, Json.isFloat, Json.depth]
  | bool value => cases limit <;> simp [Json.rejectFloats, Json.occurs, Json.isFloat, Json.depth]
  | int value => cases limit <;> simp [Json.rejectFloats, Json.occurs, Json.isFloat, Json.depth]
  | float text => cases limit <;> simp [Json.rejectFloats, Json.occurs, Json.isFloat]
  | str value => cases limit <;> simp [Json.rejectFloats, Json.occurs, Json.isFloat, Json.depth]
  | arr items ih =>
    cases limit with
    | zero => simp [Json.rejectFloats, Json.depth]
    | succ limit =>
      have hfloat : (Json.arr items).occurs Json.isFloat = false ↔
          ∀ item ∈ items, item.occurs Json.isFloat = false := by
        simp [Json.occurs, Json.isFloat, Json.occursItem_eq_any]
      rw [Json.rejectFloats, Json.rejectFloatItems_ok, hfloat, Json.depth, Nat.add_le_add_iff_right,
        Json.depthItems_le]
      constructor
      · intro h
        exact ⟨fun item hitem => ((ih item hitem).mp (h item hitem)).1,
          fun item hitem => ((ih item hitem).mp (h item hitem)).2⟩
      · rintro ⟨hfree, hdepth⟩ item hitem
        exact (ih item hitem).mpr ⟨hfree item hitem, hdepth item hitem⟩
  | obj fields ih =>
    cases limit with
    | zero => simp [Json.rejectFloats, Json.depth]
    | succ limit =>
      have hfloat : (Json.obj fields).occurs Json.isFloat = false ↔
          ∀ field ∈ fields, field.2.occurs Json.isFloat = false := by
        simp [Json.occurs, Json.isFloat, Json.occursField_eq_any]
      rw [Json.rejectFloats, Json.rejectFloatFields_ok, hfloat, Json.depth, Nat.add_le_add_iff_right,
        Json.depthFields_le]
      constructor
      · intro h
        exact ⟨fun field hfield => ((ih field hfield).mp (h field hfield)).1,
          fun field hfield => ((ih field hfield).mp (h field hfield)).2⟩
      · rintro ⟨hfree, hdepth⟩ field hfield
        exact (ih field hfield).mpr ⟨hfree field hfield, hdepth field hfield⟩

mutual

/-- What the walk raises is never a refusal. -/
theorem Json.rejectFloats_raises : ∀ (limit : ℕ) (v : Json),
    OnlyRaises (fun fault => ¬fault.IsRefusal) (v.rejectFloats limit)
  | 0, _ => by simp [Json.rejectFloats, Fault.IsRefusal]
  | _ + 1, .float _ => by simp [Json.rejectFloats, Fault.IsRefusal]
  | limit + 1, .arr items => by
    rw [Json.rejectFloats]
    exact Json.rejectFloatItems_raises limit items
  | limit + 1, .obj fields => by
    rw [Json.rejectFloats]
    exact Json.rejectFloatFields_raises limit fields
  | _ + 1, .null | _ + 1, .bool _ | _ + 1, .int _ | _ + 1, .str _ => by simp [Json.rejectFloats]

/-- What the walk through an array raises is never a refusal. -/
theorem Json.rejectFloatItems_raises : ∀ (limit : ℕ) (items : List Json),
    OnlyRaises (fun fault => ¬fault.IsRefusal) (Json.rejectFloatItems limit items)
  | limit, [] => by simp [Json.rejectFloatItems]
  | limit, item :: rest => by
    rw [Json.rejectFloatItems, onlyRaises_bind]
    exact ⟨Json.rejectFloats_raises limit item, fun _ _ => Json.rejectFloatItems_raises limit rest⟩

/-- What the walk through an object raises is never a refusal. -/
theorem Json.rejectFloatFields_raises : ∀ (limit : ℕ) (fields : List (String × Json)),
    OnlyRaises (fun fault => ¬fault.IsRefusal) (Json.rejectFloatFields limit fields)
  | limit, [] => by simp [Json.rejectFloatFields]
  | limit, (key, item) :: rest => by
    rw [Json.rejectFloatFields, onlyRaises_bind]
    exact ⟨Json.rejectFloats_raises limit item, fun _ _ => Json.rejectFloatFields_raises limit rest⟩

end

end Canonical

/-- A check that never raises a refusal refuses cleanly only by passing. -/
theorem refuses_iff_ok {x : Except Fault Unit} (h : OnlyRaises (fun fault => ¬fault.IsRefusal) x) :
    OnlyRaises Fault.IsRefusal x ↔ x = .ok () := by
  cases x with
  | error fault =>
    have hother := h fault rfl
    simp [hother]
  | ok u => simp

/-- A document can be canonicalised exactly when it has no float and is not nested too deeply. -/
theorem Decoder.checkCanonical_ok {decoder : Decoder} {document : JsonObject} :
    decoder.checkCanonical document = .ok () ↔ (Json.obj document).occurs Json.isFloat = false ∧
      (Json.obj document).depth 1 ≤ decoder.rejectFloatsLimit ∧ (Json.obj document).depth 0 ≤ decoder.dumpsLimit := by
  rw [Decoder.checkCanonical, Except.bind_ok]
  constructor
  · rintro ⟨⟨⟩, hreject, hprint⟩
    obtain ⟨hfree, hshallow⟩ := (Json.rejectFloats_ok _).mp hreject
    split at hprint
    · cases hprint
    · rename_i hdepth
      exact ⟨hfree, hshallow, not_lt.mp hdepth⟩
  · rintro ⟨hfree, hshallow, hdepth⟩
    refine ⟨(), (Json.rejectFloats_ok _).mpr ⟨hfree, hshallow⟩, ?_⟩
    rw [if_neg (not_lt.mpr hdepth)]
    rfl

/-- A document that cannot be canonicalised raises no refusal. -/
theorem Decoder.checkCanonical_raises (decoder : Decoder) (document : JsonObject) :
    OnlyRaises (fun fault => ¬fault.IsRefusal) (decoder.checkCanonical document) := by
  rw [Decoder.checkCanonical, onlyRaises_bind]
  refine ⟨Json.rejectFloats_raises _ _, fun _ _ => ?_⟩
  split
  · simp [Fault.IsRefusal]
  · exact onlyRaises_ok

/-- The number in a header, at which a `datetime` can be or not. -/
theorem headerTimestamp_inCalendar {decoder : Decoder} {text : String} {n : ℤ} (hint : decoder.int text = some n)
    (h : inCalendar n) :
    headerTimestamp decoder text =
      if Time.representable (seconds n) then .ok (seconds n)
      else .error (.unauthenticated "X-Timestamp header is missing or malformed") := by
  rw [headerTimestamp, hint]
  simp only
  rw [if_neg (not_not.mpr h.1), if_neg (not_not.mpr h.2)]

/-- A number that the system's calendar cannot hold raises an error that is not caught. -/
theorem headerTimestamp_not_inCalendar {decoder : Decoder} {text : String} {n : ℤ}
    (hint : decoder.int text = some n) (h : ¬inCalendar n) :
    ∃ fault, headerTimestamp decoder text = .error fault ∧ ¬fault.IsRefusal := by
  rw [headerTimestamp, hint]
  simp only
  by_cases hrange : -2 ^ 63 ≤ n ∧ n < 2 ^ 63
  · have hcalendar : ¬Time.fitsCalendar (seconds n) = true := fun hfits => h ⟨hrange, hfits⟩
    rw [if_neg (not_not.mpr hrange), if_pos hcalendar]
    exact ⟨_, rfl, id⟩
  · rw [if_pos hrange]
    exact ⟨_, rfl, id⟩

/-- A header is refused cleanly exactly when the system's calendar can hold the number in it. -/
theorem headerTimestamp_refuses {decoder : Decoder} {text : String} :
    OnlyRaises Fault.IsRefusal (headerTimestamp decoder text) ↔ ∀ n, decoder.int text = some n → inCalendar n := by
  cases hint : decoder.int text with
  | none => simp [headerTimestamp, hint, Fault.unauthenticated, Fault.IsRefusal]
  | some n =>
    simp only [Option.some.injEq, forall_eq']
    by_cases hcalendar : inCalendar n
    · refine iff_of_true ?_ hcalendar
      rw [headerTimestamp_inCalendar hint hcalendar]
      split
      · exact onlyRaises_ok
      · simp [Fault.unauthenticated, Fault.IsRefusal]
    · refine iff_of_false ?_ hcalendar
      obtain ⟨fault, herror, hother⟩ := headerTimestamp_not_inCalendar hint hcalendar
      rw [herror]
      intro hrefuses
      exact hother (onlyRaises_error.mp hrefuses)

/-- A header is a timestamp when it is a number of seconds at which a `datetime` can be. -/
theorem headerTimestamp_ok {decoder : Decoder} {text : String} {t : Time} :
    headerTimestamp decoder text = .ok t ↔
      ∃ n, decoder.int text = some n ∧ inCalendar n ∧ Time.representable (seconds n) = true ∧ t = seconds n := by
  cases hint : decoder.int text with
  | none => simp [headerTimestamp, hint]
  | some n =>
    simp only [Option.some.injEq, exists_eq_left']
    by_cases hcalendar : inCalendar n
    · rw [headerTimestamp_inCalendar hint hcalendar]
      split
      · rename_i hrepresentable
        simp [hcalendar, hrepresentable, eq_comm]
      · rename_i hrepresentable
        simp [hrepresentable]
    · refine iff_of_false ?_ fun h => hcalendar h.1
      obtain ⟨fault, herror, -⟩ := headerTimestamp_not_inCalendar hint hcalendar
      rw [herror]
      intro h
      cases h

/-- Texts are compared without an error when both are ASCII. -/
theorem compareDigest_raises {p : Fault → Prop} {a b : String} (htype : ¬p .typeError) (ha : IsAscii a.toList) :
    OnlyRaises p (compareDigest a b) ↔ IsAscii b.toList := by
  by_cases hb : IsAscii b.toList
  · refine iff_of_true ?_ hb
    rw [compareDigest_ascii ha hb]
    exact onlyRaises_ok
  · refine iff_of_false ?_ hb
    rw [compareDigest, if_neg, onlyRaises_error]
    · exact htype
    · intro hall
      rw [List.all_append, Bool.and_eq_true, List.all_eq_true, List.all_eq_true] at hall
      exact hb fun c hc => of_decide_eq_true (hall.2 c hc)

/-- Hiding the details of a bad signature lets only a good one through. -/
theorem hideSignatureError_ok {α : Type} {result : Except Fault α} {a : α} :
    hideSignatureError result = .ok a ↔ result = .ok a := by
  unfold hideSignatureError
  split
  · simp
  · rfl

/-- A bad signature is a refusal once its details are hidden. -/
theorem hideSignatureError_refuses {α : Type} {result : Except Fault α} :
    OnlyRaises Fault.IsRefusal (hideSignatureError result) ↔
      OnlyRaises (fun fault => (∃ message, fault = .signatureError message) ∨ fault.IsRefusal) result := by
  unfold hideSignatureError
  split
  · simp [Fault.unauthenticated, Fault.IsRefusal]
  · rename_i hother
    constructor
    · intro h fault hfault
      exact .inr (h fault hfault)
    · intro h fault hfault
      rcases h fault hfault with ⟨message, rfl⟩ | hrefusal
      · exact absurd hfault (hother message)
      · exact hrefusal

/-- The signature of a document without floats is refused cleanly exactly when it is ASCII. -/
theorem verifySignedRequest_refuses {crypto : Crypto} {request : SignedRequest} {secret : String} {now : Time}
    {maxSkewSeconds : ℤ} (hfree : (Json.obj request.body).occurs Json.isFloat = false) :
    OnlyRaises Fault.IsRefusal (hideSignatureError (verifySignedRequest crypto request secret now maxSkewSeconds)) ↔
      IsAscii request.signature.toList := by
  obtain ⟨digest, hsign⟩ : ∃ digest,
      signRequest crypto request.body request.timestamp secret = .ok (hexText digest) := by
    simp [signRequest, signingPayload, canonicalBytes, hfree, bind, Except.bind, pure, Except.pure]
  rw [hideSignatureError_refuses, verifySignedRequest, onlyRaises_bind, hsign]
  simp only [onlyRaises_ok, true_and, Except.ok.injEq, forall_eq']
  rw [onlyRaises_bind, compareDigest_raises (by simp [Fault.IsRefusal]) (isAscii_hexText digest).1]
  refine and_iff_left fun same _ => onlyRaises_refuseIf.mpr ⟨fun _ => .inl ⟨_, rfl⟩, fun _ => ?_⟩
  split
  · exact onlyRaises_error.mpr (.inl ⟨_, rfl⟩)
  · exact onlyRaises_ok

/-- A document is processed or refused cleanly exactly when the steps after its decoding can process it. -/
theorem processable_iff {settings : WebhookSettings} {d : Delivery} {now : Time} {body : JsonObject}
    {timestamp : Time} :
    OnlyRaises Fault.IsRefusal (do
      settings.decoder.checkCanonical body
      hideSignatureError (verifySignedRequest settings.crypto ⟨body, d.signature, timestamp⟩
        settings.paymentWebhookSecret now settings.signatureMaxSkewSeconds)
      match settings.decoder.validate body with
      | none => .error .validationError
      | some request => return (body, request)) ↔ Processable settings d now body timestamp := by
  have hvalidate : OnlyRaises Fault.IsRefusal (match settings.decoder.validate body with
      | none => .error .validationError
      | some request => return (body, request)) ↔ (settings.decoder.validate body).isSome = true := by
    cases settings.decoder.validate body with
    | none => simp [Fault.IsRefusal]
    | some request => exact iff_of_true onlyRaises_ok rfl
  rw [onlyRaises_bind, refuses_iff_ok (settings.decoder.checkCanonical_raises body), Decoder.checkCanonical_ok]
  constructor
  · rintro ⟨hcanonical, hrest⟩
    have hrest := onlyRaises_bind.mp (hrest () (Decoder.checkCanonical_ok.mpr hcanonical))
    exact ⟨hcanonical.1, hcanonical.2.1, hcanonical.2.2, (verifySignedRequest_refuses hcanonical.1).mp hrest.1,
      fun hverify => hvalidate.mp (hrest.2 () (hideSignatureError_ok.mpr hverify))⟩
  · intro h
    refine ⟨⟨h.noFloat, h.shallow, h.printable⟩, fun _ _ => onlyRaises_bind.mpr ?_⟩
    exact ⟨(verifySignedRequest_refuses h.noFloat).mpr h.ascii,
      fun _ hverify => hvalidate.mpr (h.valid (hideSignatureError_ok.mp hverify))⟩

/-- The steps up to the validation refuse a delivery cleanly exactly when it is one they expect. -/
theorem authenticate_refuses {settings : WebhookSettings} {d : Delivery} {now : Time} :
    OnlyRaises Fault.IsRefusal (authenticate settings d now) ↔ d.Expected settings now := by
  have hsize : (Fault.validationFailed "payload is too large").IsRefusal := trivial
  rw [authenticate, onlyRaises_refuseIf, Delivery.Expected, not_lt]
  refine (and_iff_right fun _ => hsize).trans (imp_congr_right fun _ => ?_)
  cases hloads : settings.decoder.loads d.raw with
  | error e => cases e <;> simp [LoadsError.reported, Fault.validationFailed, Fault.IsRefusal]
  | ok v =>
    cases v with
    | obj body =>
      simp only
      rw [onlyRaises_bind, headerTimestamp_refuses]
      constructor
      · rintro ⟨hcalendar, hrest⟩ n hint
        refine ⟨hcalendar n hint, fun hrepresentable => processable_iff.mp (hrest (seconds n) ?_)⟩
        exact headerTimestamp_ok.mpr ⟨n, hint, hcalendar n hint, hrepresentable, rfl⟩
      · intro h
        refine ⟨fun n hint => (h n hint).1, fun t ht => processable_iff.mpr ?_⟩
        obtain ⟨n, hint, -, hrepresentable, rfl⟩ := headerTimestamp_ok.mp ht
        exact (h n hint).2 hrepresentable
    | null | bool value | int value | float text | str value | arr items =>
      exact iff_of_true (onlyRaises_error.mpr trivial) trivial

/-- What an arriving delivery is answered and what it leaves behind. -/
theorem Webhook.arrive_respond (settings : WebhookSettings) (s : Webhook) (d : Delivery) (now : Time)
    (reachable : Bool) :
    (∃ fault, s.respond settings d now reachable = .error fault ∧ s.arrive settings d now reachable = s) ∨
      (∃ reference, s.respond settings d now reachable = .ok (.duplicateDelivery reference) ∧
        s.arrive settings d now reachable = { s with acknowledged := s.acknowledged ++ [reference] }) ∨
      ∃ body request, s.respond settings d now reachable = .ok (.ingestRemittance body request) := by
  unfold respond arrive
  cases hauth : authenticate settings d now with
  | error fault => exact .inl ⟨fault, rfl, rfl⟩
  | ok result =>
    obtain ⟨body, request⟩ := result
    simp only
    cases hclaim : claimDigest settings d now reachable s.redis with
    | error fault =>
      refine .inl ⟨fault, ?_, rfl⟩
      simp [bind, Except.bind]
    | ok claimed =>
      obtain ⟨created, redis⟩ := claimed
      cases created with
      | false =>
        refine .inr (.inl ⟨request.externalReference, ?_, rfl⟩)
        simp [bind, Except.bind, pure, Except.pure]
      | true =>
        refine .inr (.inr ⟨body, request, ?_⟩)
        simp [bind, Except.bind, pure, Except.pure]

/-- A nonce that cannot be claimed is a refusal. -/
theorem claimDigest_refuses (settings : WebhookSettings) (d : Delivery) (now : Time) (reachable : Bool)
    (redis : Redis) : OnlyRaises Fault.IsRefusal (claimDigest settings d now reachable redis) := by
  unfold claimDigest ReplayGuard.claim
  split
  · exact onlyRaises_ok
  · exact onlyRaises_error.mpr trivial

/-- What is refused cleanly is what raises nothing but refusals. -/
theorem refusesCleanly_respond {settings : WebhookSettings} {s : Webhook} {d : Delivery} {now : Time}
    {reachable : Bool} :
    RefusesCleanly settings s d now reachable ↔ OnlyRaises Fault.IsRefusal (s.respond settings d now reachable) := by
  unfold RefusesCleanly
  rcases s.arrive_respond settings d now reachable with
    ⟨fault, hrespond, harrive⟩ | ⟨reference, hrespond, harrive⟩ | ⟨body, request, hrespond⟩
  · rw [hrespond, onlyRaises_error]
    exact and_iff_left harrive
  · rw [hrespond]
    exact iff_of_true harrive onlyRaises_ok
  · rw [hrespond]
    exact iff_of_true trivial onlyRaises_ok

/-- The webhook refuses a delivery cleanly, in every state and at every time, exactly when the delivery is one that
its steps expect. -/
theorem refusesCleanly_iff (settings : WebhookSettings) (s : Webhook) (d : Delivery) (now : Time) (reachable : Bool) :
    RefusesCleanly settings s d now reachable ↔ d.Expected settings now := by
  rw [refusesCleanly_respond, ← authenticate_refuses, Webhook.respond, onlyRaises_bind]
  apply and_iff_left
  intro result _
  rw [onlyRaises_bind]
  exact ⟨claimDigest_refuses settings d now reachable s.redis, fun _ _ => onlyRaises_ok⟩

/-- The sample remittance with a signature that is not ASCII. -/
def sampleAccented : Delivery := ⟨asciiBytes (Json.obj sampleBody).dumps, "é", "1772323200"⟩

/-- The comparison of the signature raises a `TypeError`, which nothing catches. -/
theorem not_refusesCleanly :
    ¬RefusesCleanly sampleWebhook (Webhook.initial sampleCompanies sampleTariffs) sampleAccented sampleNow true := by
  rw [refusesCleanly_respond]
  apply not_onlyRaises (e := .typeError)
  · decide +kernel
  · exact id

end TaxStamp
