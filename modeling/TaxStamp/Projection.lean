import TaxStamp.PaidOrders

/-!
# Projecting the outbox onto a topic

With a configured publisher, a worker publishes the envelope of a message after the handler
has succeeded and before the message is recorded as delivered. The broker is outside the
transaction: what it has stored stays stored when the delivery is rolled back afterwards,
and a record may be stored more than once, or stored without being acknowledged. The
message is tried again until a delivery commits, so the topic has every event at least once
and nothing but events of committed messages, and a consumer can tell the copies of one
event by its identifier or by its dedupe key.
-/

namespace TaxStamp

open Lib

/-- What is published of a message. -/
structure ProjectionEnvelope where
  eventId : String
  eventType : String
  aggregateType : String
  aggregateId : String
  dedupeKey : String
  occurredAt : String
  payload : JsonObject

namespace ProjectionEnvelope

/-- The envelope of a message that is published at a time. -/
def fromOutbox (message : OutboxMessage) (occurredAt : Time) : ProjectionEnvelope where
  eventId := message.id.str
  eventType := message.eventType
  aggregateType := message.aggregateType
  aggregateId := message.aggregateId.str
  dedupeKey := message.dedupeKey
  occurredAt := occurredAt.isoformat
  payload := message.payload

/-- The fields of an envelope as a document. -/
def document (envelope : ProjectionEnvelope) : JsonObject :=
  [("event_id", .str envelope.eventId),
    ("event_type", .str envelope.eventType),
    ("aggregate_type", .str envelope.aggregateType),
    ("aggregate_id", .str envelope.aggregateId),
    ("dedupe_key", .str envelope.dedupeKey),
    ("occurred_at", .str envelope.occurredAt),
    ("payload", .obj envelope.payload)]

end ProjectionEnvelope

/-- A record of the topic. -/
structure TopicRecord where
  key : String
  value : JsonObject
  headers : List (String × String)

/-- The record that is sent for an envelope. -/
def ProjectionEnvelope.record (envelope : ProjectionEnvelope) : TopicRecord where
  key := envelope.aggregateType ++ ":" ++ envelope.aggregateId
  value := envelope.document
  headers := [("event_type", envelope.eventType), ("event_id", envelope.eventId)]

/-- What comes of a publication at a time: how often the broker stores the record, and what it answers. With
`acks="all"` an acknowledged record is stored. -/
structure Publication where
  now : Time
  copies : ℕ
  answer : Except Fault Unit
  stored : answer = .ok () → 0 < copies

/-- How a delivery goes on after its publication: its transaction commits if the publication was acknowledged, it is
rolled back by an error, or the worker dies. -/
inductive DeliveryEnd
  | commits
  | raises
  | dies

/-- The statement of a worker that a delivery amounts to. -/
def DeliveryEnd.statement (delivery : RelayDelivery) (publication : Publication) (error : String) :
    DeliveryEnd → RelayWorkerEvent
  | .commits => .deliver { delivery with published := publication.answer } error
  | .raises => .raise error
  | .dies => .die

/-- The relay and the records of the topic. -/
structure Projection where
  relay : Relay
  topic : List TopicRecord

/-- No worker has started, and the topic is empty. -/
def Projection.initial (companies : Table companySchema) (tariffs : Table tariffSchema) : Projection :=
  ⟨.initial companies tariffs, []⟩

/-- An event of the relay other than a delivery, or a delivery with its publication. -/
inductive ProjectionEvent
  | relay (e : RelayEvent)
  | deliver (index : ℕ) (delivery : RelayDelivery) (publication : Publication) (ending : DeliveryEnd) (error : String)

/-- The event is a delivery. -/
def RelayEvent.delivers : RelayEvent → Bool
  | .worker _ (.deliver ..) => true
  | _ => false

/-- The part of a delivery before its publication: the message is read and its handler is run. -/
def handleMessage (settings : RelaySettings) (delivery : RelayDelivery) (message : OutboxMessage) :
    Session OutboxMessage := do
  let current ← fetch Tables.outboxMessages (fun m => m.id = message.id) .noResultFound
  handle settings.toSettings delivery message.payload current.eventType
  return current

/-- The message that a delivery of a worker publishes: the handler of the message it delivers next succeeds. -/
def Relay.publishes (settings : RelaySettings) (s : Relay) (index : ℕ) (delivery : RelayDelivery) : Option OutboxMessage :=
  match (s.workers[index]?).map RelayWorker.phase with
  | some (.relaying (message :: _)) =>
    match handleMessage settings delivery message s.platform.db with
    | .ok (current, _) => some current
    | .error _ => none
  | _ => none

/-- The records that a delivery leaves on the topic. -/
def Projection.appended (settings : RelaySettings) (s : Projection) (index : ℕ) (delivery : RelayDelivery)
    (publication : Publication) : List TopicRecord :=
  match s.relay.publishes settings index delivery with
  | some current => List.replicate publication.copies (ProjectionEnvelope.fromOutbox current publication.now).record
  | none => []

/-- The relay and the topic after an event. -/
def projectionStep (settings : RelaySettings) (s : Projection) : ProjectionEvent → Projection
  | .relay e => if e.delivers then s else { s with relay := relayStep settings s.relay e }
  | .deliver index delivery publication ending error =>
    { relay := relayStep settings s.relay (.worker index (ending.statement delivery publication error))
      topic := s.topic ++ s.appended settings index delivery publication }

variable {settings : RelaySettings}

/-! ### Records -/

/-- The record is a copy of the event of a message. -/
def TopicRecord.Projects (record : TopicRecord) (m : OutboxMessage) : Prop :=
  ∃ now, record = (ProjectionEnvelope.fromOutbox m now).record

/-- A statement of a worker leaves what is published of a message. -/
theorem Handled.projects {act : RelayAct} {m m' : OutboxMessage} (h : Handled settings act m m') {record : TopicRecord}
    (hrecord : record.Projects m) : record.Projects m' := by
  cases h <;> exact hrecord

/-- What is published of a message stays a copy of it. -/
theorem relayStep_projects (s : Relay) (e : RelayEvent) {m : OutboxMessage} (hm : m ∈ s.outbox) {record : TopicRecord}
    (hrecord : record.Projects m) : ∃ m' ∈ (relayStep settings s e).outbox, record.Projects m' := by
  rcases relayStep_outbox settings s e with ⟨-, new, hrows, -⟩ | ⟨index, act, f, -, hrows, hhandled⟩
  · rw [hrows]
    exact ⟨m, List.mem_append_left _ hm, hrecord⟩
  · rw [hrows]
    exact ⟨f m, List.mem_map_of_mem hm, (hhandled m hm).projects hrecord⟩

/-- The published message is in the outbox. -/
theorem Relay.publishes_mem {s : Relay} {index : ℕ} {delivery : RelayDelivery} {current : OutboxMessage}
    (h : s.publishes settings index delivery = some current) : current ∈ s.outbox := by
  unfold Relay.publishes at h
  split at h
  · split at h
    · rename_i hhandle
      simp only [handleMessage, Tx.bind_ok, fetch_ok, Tx.pure_ok] at hhandle
      obtain ⟨found, db₁, ⟨hfetch, rfl⟩, u, db₂, -, rfl, rfl⟩ := hhandle
      cases h
      exact (mem_of_filter_eq_singleton hfetch).1
    · cases h
  · cases h

/-- A delivery that commits has published its message, and the broker has acknowledged it. -/
theorem publishes_of_delivered {s : Relay} {index : ℕ} {w : RelayWorker} (hw : s.workers[index]? = some w)
    {message : OutboxMessage} {rest : List OutboxMessage} (hphase : w.phase = .relaying (message :: rest))
    {delivery : RelayDelivery} {answer : Except Fault Unit} {db' : Db}
    (h : deliver settings { delivery with published := answer } message s.platform.db = .ok ((), db')) :
    answer = .ok () ∧ ∃ current, s.publishes settings index delivery = some current ∧ current.id = message.id := by
  simp only [deliver, Tx.bind_ok, fetch_ok, Tx.lift_ok] at h
  obtain ⟨current, db₁, ⟨hfetch, rfl⟩, u, db₂, hhandle, v, db₃, ⟨hanswer, rfl⟩, -⟩ := h
  have hrun : handleMessage settings delivery message s.platform.db = .ok (current, db₂) := by
    simp only [handleMessage, Tx.bind_ok, fetch_ok, Tx.pure_ok]
    exact ⟨current, _, ⟨hfetch, rfl⟩, u, db₂, hhandle, rfl, rfl⟩
  refine ⟨hanswer, current, ?_, of_decide_eq_true (mem_of_filter_eq_singleton hfetch).2⟩
  unfold Relay.publishes
  rw [hw, Option.map_some, hphase]
  dsimp only
  rw [hrun]

/-! ### Runs -/

/-- The topic has nothing but copies of events of committed messages, and one of every message that is recorded as
delivered. -/
structure Projection.Faithful (s : Projection) : Prop where
  known : ∀ record ∈ s.topic, ∃ m ∈ s.relay.outbox, record.Projects m
  stored : ∀ m ∈ s.relay.outbox, m.processedAt ≠ none → ∃ record ∈ s.topic, record.Projects m

/-- An event keeps the topic faithful when what it adds is known and what it delivers is on it. -/
theorem Projection.Faithful.extend {s : Projection} (h : s.Faithful) (e : RelayEvent) {topic : List TopicRecord}
    (hgrows : s.topic ⊆ topic) (hknown : ∀ record ∈ topic, ∃ m ∈ s.relay.outbox, record.Projects m)
    (hcopied : ∀ index message rest db, s.relay.act settings e = some (index, .delivered message rest db) →
      ∀ m ∈ s.relay.outbox, m.id = message.id → ∃ record ∈ topic, record.Projects m) :
    Projection.Faithful ⟨relayStep settings s.relay e, topic⟩ := by
  have hkept : ∀ m ∈ s.relay.outbox, m.processedAt ≠ none → ∃ record ∈ topic, record.Projects m := by
    intro m hm hprocessed
    obtain ⟨record, hrecord, hprojects⟩ := h.stored m hm hprocessed
    exact ⟨record, hgrows hrecord, hprojects⟩
  constructor
  · intro record hrecord
    obtain ⟨m, hm, hprojects⟩ := hknown record hrecord
    exact relayStep_projects s.relay e hm hprojects
  · intro m' hm' hprocessed
    change m' ∈ (relayStep settings s.relay e).outbox at hm'
    rcases relayStep_outbox settings s.relay e with ⟨-, new, hrows, hnew⟩ | ⟨index, act, f, hact, hrows, hhandled⟩
    · rw [hrows] at hm'
      rcases List.mem_append.mp hm' with hold | hadded
      · exact hkept m' hold hprocessed
      · exact absurd (hnew m' hadded).processedAt hprocessed
    · rw [hrows] at hm'
      obtain ⟨m, hm, rfl⟩ := List.mem_map.mp hm'
      have hstep := hhandled m hm
      have hcopy : ∃ record ∈ topic, record.Projects m := by
        generalize f m = m' at hstep hprocessed
        cases hstep with
        | kept => exact hkept m hm hprocessed
        | leased => exact hkept m hm hprocessed
        | processed message rest db now hdelivered hid =>
          rw [hdelivered] at hact
          exact hcopied index message rest db hact m hm hid
        | failed => exact hkept m hm hprocessed
      obtain ⟨record, hrecord, hprojects⟩ := hcopy
      exact ⟨record, hrecord, hstep.projects hprojects⟩

/-- Only a delivery delivers. -/
theorem Relay.act_delivered {s : Relay} {e : RelayEvent} {index : ℕ} {message : OutboxMessage} {rest : List OutboxMessage}
    {db' : Db} (hact : s.act settings e = some (index, .delivered message rest db')) : e.delivers = true := by
  cases e with
  | service e => cases hact
  | join workerId => cases hact
  | worker i e =>
    obtain ⟨w, -, hpair⟩ := Option.map_eq_some_iff.mp hact
    obtain ⟨-, delivery, error, rfl, -⟩ := relayOnce_delivered (congrArg Prod.snd hpair)
    rfl

/-- What a delivery leaves on the topic is a copy of the event of a committed message. -/
theorem Projection.appended_known {s : Projection} {index : ℕ} {delivery : RelayDelivery} {publication : Publication} :
    ∀ record ∈ s.appended settings index delivery publication, ∃ m ∈ s.relay.outbox, record.Projects m := by
  intro record hrecord
  unfold Projection.appended at hrecord
  split at hrecord
  · rename_i current hpublishes
    exact ⟨current, Relay.publishes_mem hpublishes, publication.now, List.eq_of_mem_replicate hrecord⟩
  · cases hrecord

/-- A delivery that commits leaves a copy of its event on the topic. -/
theorem Projection.appended_delivered {s : Projection} {index i : ℕ} {delivery : RelayDelivery} {publication : Publication}
    {error : String} {message : OutboxMessage} {rest : List OutboxMessage} {db' : Db}
    (hact : s.relay.act settings (.worker index (.deliver { delivery with published := publication.answer } error)) =
      some (i, .delivered message rest db')) {m : OutboxMessage} (hm : m ∈ s.relay.outbox) (hid : m.id = message.id) :
    ∃ record ∈ s.appended settings index delivery publication, record.Projects m := by
  obtain ⟨w, hw, hpair⟩ := Option.map_eq_some_iff.mp hact
  obtain ⟨hphase, delivery', error', heq, hdeliver⟩ := relayOnce_delivered (congrArg Prod.snd hpair)
  cases heq
  obtain ⟨hanswer, current, hpublishes, hcurrent⟩ := publishes_of_delivered hw hphase hdeliver
  obtain rfl : m = current := message_eq_of_id s.relay.platform.db hm (Relay.publishes_mem hpublishes)
    (hid.trans hcurrent.symm)
  refine ⟨_, ?_, publication.now, rfl⟩
  unfold Projection.appended
  rw [hpublishes]
  exact List.mem_replicate.mpr ⟨Nat.pos_iff_ne_zero.mp (publication.stored hanswer), rfl⟩

/-- Every delivery keeps the topic faithful, whatever the broker does and however the delivery ends. -/
theorem Projection.Faithful.deliver {s : Projection} (h : s.Faithful) (index : ℕ) (delivery : RelayDelivery)
    (publication : Publication) (ending : DeliveryEnd) (error : String) :
    (projectionStep settings s (.deliver index delivery publication ending error)).Faithful := by
  refine h.extend _ (List.subset_append_left _ _) (fun record hrecord => ?_) fun i message rest db hact m hm hid => ?_
  · rcases List.mem_append.mp hrecord with hold | hadded
    · exact h.known record hold
    · exact appended_known record hadded
  · cases ending with
    | commits =>
      obtain ⟨record, hrecord, hprojects⟩ := appended_delivered hact hm hid
      exact ⟨record, List.mem_append_right _ hrecord, hprojects⟩
    | raises => cases Relay.act_delivered hact
    | dies => cases Relay.act_delivered hact

/-- Every event keeps the topic faithful. -/
theorem Projection.Faithful.step (settings : RelaySettings) (s : Projection) (e : ProjectionEvent) (h : s.Faithful) :
    (projectionStep settings s e).Faithful := by
  cases e with
  | relay e =>
    cases hdelivers : e.delivers with
    | true =>
      simp only [projectionStep, hdelivers, if_true]
      exact h
    | false =>
      simp only [projectionStep, hdelivers, Bool.false_eq_true, if_false]
      refine h.extend e (List.Subset.refl _) h.known fun index message rest db hact => ?_
      rw [Relay.act_delivered hact] at hdelivers
      cases hdelivers
  | deliver index delivery publication ending error => exact h.deliver index delivery publication ending error

/-- The relay under the projection runs like the relay: what holds after every run of the relay holds with a publisher. -/
theorem projection_relay (settings : RelaySettings) (companies : Table companySchema) (tariffs : Table tariffSchema)
    (events : List ProjectionEvent) :
    ∃ events', (run (projectionStep settings) (.initial companies tariffs) events).relay =
      run (relayStep settings) (.initial companies tariffs) events' := by
  refine run_simulates Projection.relay (fun s e => ?_) (Projection.initial companies tariffs) events
  cases e with
  | relay e =>
    unfold projectionStep
    dsimp only
    split
    · exact ⟨[], rfl⟩
    · exact ⟨[e], rfl⟩
  | deliver index delivery publication ending error =>
    exact ⟨[.worker index (ending.statement delivery publication error)], rfl⟩

/-- The outbox is projected at least once, and faithfully. In every run of the services and any number of workers with a
publisher, whatever the broker stores and answers and however a delivery ends after its publication: every message that
is recorded as delivered has a record on the topic; every record is the envelope of a message that is in the outbox; and
two records with one event identifier, or with one dedupe key, are copies of one message, which differ at most in the time
of their publication. -/
theorem projection_at_least_once (settings : RelaySettings) (companies : Table companySchema) (tariffs : Table tariffSchema)
    (events : List ProjectionEvent) :
    let s := run (projectionStep settings) (.initial companies tariffs) events
    (∀ m ∈ s.relay.outbox, m.processedAt ≠ none → ∃ record ∈ s.topic, record.Projects m) ∧
      (∀ record ∈ s.topic, ∃ m ∈ s.relay.outbox, record.Projects m) ∧
      ∀ record ∈ s.topic, ∀ record' ∈ s.topic,
        requireStr record.value "event_id" = requireStr record'.value "event_id" ∨
            requireStr record.value "dedupe_key" = requireStr record'.value "dedupe_key" →
          ∃ m ∈ s.relay.outbox, record.Projects m ∧ record'.Projects m := by
  intro s
  have hs : s.Faithful := by
    apply run_invariant Projection.Faithful (fun s e h => h.step settings s e)
    exact ⟨fun _ hrecord => absurd hrecord List.not_mem_nil, fun _ hm => absurd hm List.not_mem_nil⟩
  refine ⟨hs.stored, hs.known, ?_⟩
  intro record hrecord record' hrecord' hsame
  obtain ⟨m, hm, now, rfl⟩ := hs.known record hrecord
  obtain ⟨m', hm', now', rfl⟩ := hs.known record' hrecord'
  have hclash : m.id = m'.id ∨ m.dedupeKey = m'.dedupeKey :=
    hsame.imp (fun hid => Uuid.str_injective (Except.ok.inj hid)) fun hkey => Except.ok.inj hkey
  obtain rfl : m = m' := s.relay.platform.db.outboxMessages.eq_of_clash hm hm' (decide_eq_true hclash)
  exact ⟨m, hm, ⟨now, rfl⟩, now', rfl⟩

end TaxStamp
