import Mathlib.Algebra.Order.BigOperators.Group.List
import TaxStamp.Requests

/-!
# The outbox is worked off

Whatever the workers of the relay have left behind, with leases that nobody will answer and
messages that keep failing, one worker that goes on alone finishes every message. Each of its
passes takes the oldest messages that are due and gives every one of them an outcome, and a
message that is not delivered loses one of its attempts. The measure of the outbox is the
number of attempts that its unfinished messages have left.
-/

namespace TaxStamp

open Lib

/-! ### Passes -/

/-- One turn of the loop over the claimed messages: the delivery, what it raises when it does, and the time at which its
failure is then recorded. -/
structure RelayTurn where
  delivery : RelayDelivery
  error : String
  failedAt : Time

/-- The statements of a turn; the last two do something only after a delivery that raised. -/
def RelayTurn.events (index : ℕ) (turn : RelayTurn) : List RelayEvent :=
  [.worker index (.deliver turn.delivery turn.error), .worker index .readFailed,
    .worker index (.recordFailed turn.failedAt)]

/-- A call of `relay_once`: the time of its claim and the turns that follow. -/
structure RelayPass where
  now : Time
  turns : List RelayTurn

/-- The statements of a pass. -/
def RelayPass.events (index : ℕ) (pass : RelayPass) : List RelayEvent :=
  .worker index (.claim pass.now []) :: pass.turns.flatMap (RelayTurn.events index)

/-- The relay after a pass of a worker. -/
def passStep (settings : RelaySettings) (index : ℕ) (s : Relay) (pass : RelayPass) : Relay :=
  run (relayStep settings) s (pass.events index)

/-- A message with an outcome. -/
def OutboxMessage.finished (m : OutboxMessage) : Bool := m.processedAt.isSome || m.deadLetteredAt.isSome

/-- A failure at this time can be recorded: its text can be stored, and its retry is in the calendar. -/
structure RelayTurn.Recordable (turn : RelayTurn) : Prop where
  error : '\x00' ∉ turn.error.toList
  retry : ∀ delay, 1 ≤ delay → delay ≤ 600 → Time.representable (turn.failedAt + seconds delay) = true

/-- The pass starts when no lease runs any more and every retry is due, it has a turn for every message of a batch, and
nothing that it writes is out of range. -/
structure RelayPass.Timely (settings : RelaySettings) (s : Relay) (pass : RelayPass) : Prop where
  due : ∀ m ∈ s.outbox, m.finished = false → m.due pass.now = true
  lease : Time.representable (pass.now + seconds settings.outboxLeaseSeconds) = true
  turns : settings.outboxBatchSize ≤ pass.turns.length
  recordable : ∀ turn ∈ pass.turns, turn.Recordable
  attempts : ∀ m ∈ s.outbox, m.finished = false → m.attempts + 1 < 2 ^ 31

variable {settings : RelaySettings} {db db' : Db}

/-! ### What is always written -/

/-- Rewriting some messages is accepted when the rewritten ones fit. -/
theorem exists_rewritten (p : OutboxMessage → Bool) (f : OutboxMessage → OutboxMessage) (db : Db)
    (hfits : ∀ m ∈ db.outboxMessages.rows, outboxMessageSchema.fits (f m) = true)
    (hlabel : ∀ m : OutboxMessage, (f m).id = m.id ∧ (f m).dedupeKey = m.dedupeKey) :
    ∃ M : Table outboxMessageSchema, M.rows = db.outboxMessages.rows.map fun m => if p m = true then f m else m := by
  apply Table.exists_map
  · intro m hm
    split
    · rw [hfits m hm, db.outboxMessages.valid.fits m hm]
    · rfl
  · intro m _
    rfl
  · intro a b
    have hsame : ∀ m, (if p m = true then f m else m).id = m.id ∧
        (if p m = true then f m else m).dedupeKey = m.dedupeKey := by
      intro m
      split
      · exact hlabel m
      · exact ⟨rfl, rfl⟩
    simp only [outboxMessageSchema, hsame]

/-- A failure in range is recorded. -/
theorem markFailed_total {messageId : Uuid} {attempts : ℤ} {turn : RelayTurn} (hturn : turn.Recordable)
    (hlow : -2 ^ 31 ≤ attempts + 1) (hhigh : attempts + 1 < 2 ^ 31) (maxAttempts : ℤ) (db : Db) :
    ∃ db', markFailed messageId attempts turn.error turn.failedAt maxAttempts db =
      .ok (decide (maxAttempts ≤ attempts + 1), db') := by
  have hdelay : 1 ≤ backoffSeconds (attempts + 1) ∧ backoffSeconds (attempts + 1) ≤ 600 := by
    have hpow : (1 : ℤ) ≤ 2 ^ (attempts + 1).toNat := one_le_pow₀ (by norm_num)
    unfold backoffSeconds
    omega
  have hretry : Time.add turn.failedAt (seconds (backoffSeconds (attempts + 1))) =
      .ok (turn.failedAt + seconds (backoffSeconds (attempts + 1))) := by
    rw [Time.add, if_pos (hturn.retry _ hdelay.1 hdelay.2)]
  obtain ⟨M, hM⟩ := exists_rewritten (fun m => m.id = messageId) (fun m => m.failed (attempts + 1) turn.error turn.failedAt
    (turn.failedAt + seconds (backoffSeconds (attempts + 1))) (decide (maxAttempts ≤ attempts + 1))) db (by
      intro m hm
      have hfits := db.outboxMessages.valid.fits m hm
      have herror : '\x00' ∉ (String.ofList (turn.error.toList.take 2000)).toList := by
        rw [String.toList_ofList]
        exact fun hmem => hturn.error (List.mem_of_mem_take hmem)
      simp only [outboxMessageSchema, Bool.and_eq_true] at hfits ⊢
      obtain ⟨⟨⟨hrest, -⟩, -⟩, -⟩ := hfits
      refine ⟨⟨⟨hrest, ?_⟩, rfl⟩, ?_⟩
      · simpa [OutboxMessage.failed, integer] using ⟨hlow, hhigh⟩
      · simpa [OutboxMessage.failed] using herror) fun m => ⟨rfl, rfl⟩
  refine ⟨Tables.outboxMessages.set M db, ?_⟩
  simp only [markFailed, Tx.bind_ok, Tx.lift_ok, updateRows_ok, Tx.pure_ok]
  exact ⟨_, db, ⟨hretry, rfl⟩, (), _, ⟨M, hM, rfl⟩, trivial, rfl⟩

/-- The messages of a table have different identifiers. -/
theorem nodup_messageIds (M : Table outboxMessageSchema) : (M.rows.map OutboxMessage.id).Nodup := by
  rw [List.Nodup, List.pairwise_map]
  refine M.valid.distinct.imp fun {a b} hdistinct hid => ?_
  simp [outboxMessageSchema, hid] at hdistinct

/-- A claim in range succeeds, takes no more messages than a batch, and takes one when one is due. -/
theorem claimBatch_total {workerId : String} {now : Time} {leaseSeconds : ℤ} (batchSize : ℕ)
    (hworker : varchar 64 workerId = true) (hlease : Time.representable (now + seconds leaseSeconds) = true) (db : Db) :
    ∃ claimed db', claimBatch workerId now leaseSeconds batchSize [] db = .ok (claimed, db') ∧
      claimed.length ≤ batchSize ∧
      (0 < batchSize → (∃ m ∈ db.outboxMessages.rows, m.due now = true) → claimed ≠ []) := by
  let found := ((db.outboxMessages.rows.filter fun m => m.due now && decide (m.id ∉ ([] : List Uuid))).insertionSort
    fun a b => decide (a.availableAt ≤ b.availableAt) = true).take batchSize
  have hmem : ∀ m ∈ found, m ∈ db.outboxMessages.rows := fun m hm => (mem_of_mem_selectOrdered hm).1
  have hsome : 0 < batchSize → (∃ m ∈ db.outboxMessages.rows, m.due now = true) → found ≠ [] := by
    intro hbatch ⟨m, hm, hdue⟩ hnil
    obtain hzero | hsorted := List.take_eq_nil_iff.mp hnil
    · omega
    · have hin : m ∈ (db.outboxMessages.rows.filter fun m => m.due now && decide (m.id ∉ ([] : List Uuid))).insertionSort
          fun a b => decide (a.availableAt ≤ b.availableAt) = true := by
        rw [List.mem_insertionSort]
        exact List.mem_filter.mpr ⟨hm, by simp [hdue]⟩
      rw [hsorted] at hin
      cases hin
  by_cases hnone : found.map OutboxMessage.id = []
  · refine ⟨[], db, ?_, Nat.zero_le _, fun hbatch hdue => absurd (List.map_eq_nil_iff.mp hnone) (hsome hbatch hdue)⟩
    simp only [claimBatch, Tx.bind_ok, selectOrdered_ok]
    refine ⟨found, db, ⟨rfl, rfl⟩, ?_⟩
    rw [if_pos hnone]
    rfl
  · obtain ⟨M, hM⟩ := exists_rewritten (fun m => decide (m.id ∈ found.map OutboxMessage.id))
      (fun m => { m with lockedBy := some workerId, lockedUntil := some (now + seconds leaseSeconds) }) db (by
        intro m hm
        have hfits := db.outboxMessages.valid.fits m hm
        simp only [outboxMessageSchema, Bool.and_eq_true] at hfits ⊢
        exact ⟨⟨hfits.1.1, hworker⟩, hfits.2⟩) fun m => ⟨rfl, rfl⟩
    have hclaim : claimBatch workerId now leaseSeconds batchSize [] db =
        .ok (M.rows.filter fun m => decide (m.id ∈ found.map OutboxMessage.id), Tables.outboxMessages.set M db) := by
      simp only [claimBatch, Tx.bind_ok, selectOrdered_ok]
      refine ⟨found, db, ⟨rfl, rfl⟩, ?_⟩
      rw [if_neg hnone]
      simp only [Tx.bind_ok, Tx.lift_ok, updateRows_ok, selectAll_ok]
      exact ⟨_, db, ⟨by rw [Time.add, if_pos hlease], rfl⟩, (), _, ⟨M, hM, rfl⟩, rfl, rfl⟩
    have hids : ((M.rows.filter fun m => decide (m.id ∈ found.map OutboxMessage.id)).map OutboxMessage.id).Subperm
        (found.map OutboxMessage.id) := by
      apply List.Nodup.subperm
      · exact (nodup_messageIds M).sublist (List.filter_sublist.map _)
      · intro id hid
        obtain ⟨m, hm, rfl⟩ := List.mem_map.mp hid
        exact of_decide_eq_true (List.mem_filter.mp hm).2
    refine ⟨_, _, hclaim, ?_, fun _ _ hnil => ?_⟩
    · have hlength := hids.length_le
      rw [List.length_map, List.length_map] at hlength
      exact hlength.trans (List.length_take_le _ _)
    · obtain ⟨m, rest, hfound⟩ := List.exists_cons_of_ne_nil fun h : found = [] => hnone (List.map_eq_nil_iff.mpr h)
      have hm : m ∈ found := by
        rw [hfound]
        exact List.mem_cons_self
      have himage := List.mem_map_of_mem (f := fun m => if (decide (m.id ∈ found.map OutboxMessage.id)) = true then
        { m with lockedBy := some workerId, lockedUntil := some (now + seconds leaseSeconds) } else m) (hmem m hm)
      rw [← hM] at himage
      have hid : m.id ∈ found.map OutboxMessage.id := List.mem_map_of_mem hm
      exact List.filter_eq_nil_iff.mp hnil _ himage (by simp [hid])

/-! ### Turns -/

/-- A message has got an outcome: it is delivered, or it has failed once more, and for good when its attempts are used
up. -/
inductive OutboxMessage.Answered (maxAttempts : ℤ) (m : OutboxMessage) : OutboxMessage → Prop
  | delivered (now : Time) : Answered maxAttempts m (m.processed now)
  | failed (error : String) (now retry : Time) : Answered maxAttempts m
      (m.failed (m.attempts + 1) error now retry (decide (maxAttempts ≤ m.attempts + 1)))

/-- An answered message keeps its identifier. -/
theorem OutboxMessage.Answered.id {maxAttempts : ℤ} {m m' : OutboxMessage} (h : m.Answered maxAttempts m') : m'.id = m.id := by
  cases h <;> rfl

/-- The messages with these identifiers are answered, and the others are left alone. -/
def WorksOff (settings : RelaySettings) (ids : List Uuid) (rows rows' : List OutboxMessage) : Prop :=
  ∃ f : OutboxMessage → OutboxMessage, rows' = rows.map f ∧
    ∀ m ∈ rows, (m.id ∈ ids → m.Answered settings.outboxMaxAttempts (f m)) ∧ (m.id ∉ ids → f m = m)

/-- A statement of a worker moves that worker and writes what it amounts to. -/
theorem relayStep_worker {s : Relay} {index : ℕ} {workerId : String} {phase : RelayPhase} {e : RelayWorkerEvent}
    {act : RelayAct} (hw : s.workers[index]? = some ⟨workerId, phase⟩)
    (hact : relayOnce settings s.platform.db ⟨workerId, phase⟩ e = act) :
    (relayStep settings s (.worker index e)).workers[index]? = some ⟨workerId, act.phase⟩ ∧
      (relayStep settings s (.worker index e)).platform.db = act.db s.platform.db := by
  simp only [relayStep, hw, hact, and_true]
  exact (getElem?_set_iff hw).mpr (.inl ⟨rfl, rfl⟩)

/-- A message of the outbox is found under its identifier. -/
theorem fetch_message {current : OutboxMessage} {messageId : Uuid} (hcurrent : current ∈ db.outboxMessages.rows)
    (hid : current.id = messageId) :
    fetch Tables.outboxMessages (fun m => m.id = messageId) .noResultFound db = .ok (current, db) := by
  apply fetch_of_mem hcurrent (by simp [hid])
  intro m hsame
  simp [outboxMessageSchema, of_decide_eq_true hsame, hid]

section Statements

variable {workerId : String} {message : OutboxMessage} {rest : List OutboxMessage}

/-- The statement that delivers. -/
theorem relayOnce_deliver (db : Db) (workerId : String) (message : OutboxMessage) (rest : List OutboxMessage)
    (delivery : RelayDelivery) (error : String) :
    relayOnce settings db ⟨workerId, .relaying (message :: rest)⟩ (.deliver delivery error) =
      match deliver settings delivery message db with
      | .ok (_, db') => .delivered message rest db'
      | .error _ => .moved (.failing message error rest) := rfl

/-- A delivery that commits is answered. -/
theorem relayOnce_of_delivered {delivery : RelayDelivery} (error : String)
    (h : deliver settings delivery message db = .ok ((), db')) :
    relayOnce settings db ⟨workerId, .relaying (message :: rest)⟩ (.deliver delivery error) =
      .delivered message rest db' := by
  rw [relayOnce_deliver, h]

/-- A delivery that raises has its failure read next. -/
theorem relayOnce_of_raised {delivery : RelayDelivery} {fault : Fault} (error : String)
    (h : deliver settings delivery message db = .error fault) :
    relayOnce settings db ⟨workerId, .relaying (message :: rest)⟩ (.deliver delivery error) =
      .moved (.failing message error rest) := by
  rw [relayOnce_deliver, h]

/-- The statement that claims. -/
theorem relayOnce_claim (db : Db) (workerId : String) (now : Time) (locked : List Uuid) :
    relayOnce settings db ⟨workerId, .relaying []⟩ (.claim now locked) =
      match claimBatch workerId now settings.outboxLeaseSeconds settings.outboxBatchSize locked db with
      | .ok (messages, db') => .claimed messages now db'
      | .error _ => .moved (.relaying []) := rfl

/-- A claim that succeeds hands the messages to its worker. -/
theorem relayOnce_of_claimed {now : Time} {locked : List Uuid} {claimed : List OutboxMessage}
    (h : claimBatch workerId now settings.outboxLeaseSeconds settings.outboxBatchSize locked db = .ok (claimed, db')) :
    relayOnce settings db ⟨workerId, .relaying []⟩ (.claim now locked) = .claimed claimed now db' := by
  rw [relayOnce_claim, h]

/-- The statement that reads a message that failed. -/
theorem relayOnce_readFailed (settings : RelaySettings) (db : Db) (workerId : String) (message : OutboxMessage) (error : String)
    (rest : List OutboxMessage) :
    relayOnce settings db ⟨workerId, .failing message error rest⟩ .readFailed =
      match fetch Tables.outboxMessages (fun m => m.id = message.id) .noResultFound db with
      | .ok (current, _) => .moved (.recording message current.attempts error rest)
      | .error _ => .moved (.relaying []) := rfl

/-- A message that failed is read with the attempts that it has by then. -/
theorem relayOnce_of_read (settings : RelaySettings) {current : OutboxMessage} (error : String)
    (hcurrent : current ∈ db.outboxMessages.rows) (hid : current.id = message.id) :
    relayOnce settings db ⟨workerId, .failing message error rest⟩ .readFailed =
      .moved (.recording message current.attempts error rest) := by
  rw [relayOnce_readFailed, fetch_message hcurrent hid]

/-- The statement that records a failure. -/
theorem relayOnce_recordFailed (db : Db) (workerId : String) (message : OutboxMessage) (attempts : ℤ) (error : String)
    (rest : List OutboxMessage) (now : Time) :
    relayOnce settings db ⟨workerId, .recording message attempts error rest⟩ (.recordFailed now) =
      match markFailed message.id attempts error now settings.outboxMaxAttempts db with
      | .ok (dead, db') => .failed message (now + seconds (backoffSeconds (attempts + 1))) dead rest db'
      | .error _ => .moved (.relaying []) := rfl

/-- A recorded failure is an outcome. -/
theorem relayOnce_of_recorded {attempts : ℤ} {error : String} {now : Time} {dead : Bool}
    (h : markFailed message.id attempts error now settings.outboxMaxAttempts db = .ok (dead, db')) :
    relayOnce settings db ⟨workerId, .recording message attempts error rest⟩ (.recordFailed now) =
      .failed message (now + seconds (backoffSeconds (attempts + 1))) dead rest db' := by
  rw [relayOnce_recordFailed, h]

/-- A worker that is not handling a failure passes over the statements that do. -/
theorem relayOnce_passes (settings : RelaySettings) (db : Db) (workerId : String) (rest : List OutboxMessage) {e : RelayWorkerEvent}
    (he : e = .readFailed ∨ ∃ now, e = .recordFailed now) :
    relayOnce settings db ⟨workerId, .relaying rest⟩ e = .moved (.relaying rest) := by
  obtain rfl | ⟨now, rfl⟩ := he <;> cases rest <;> rfl

/-- A worker without messages delivers nothing. -/
theorem relayOnce_idle (settings : RelaySettings) (db : Db) (workerId : String) (delivery : RelayDelivery) (error : String) :
    relayOnce settings db ⟨workerId, .relaying []⟩ (.deliver delivery error) = .moved (.relaying []) := rfl

end Statements

/-- A turn answers the first of the claimed messages. -/
theorem turn_answers (settings : RelaySettings) {turn : RelayTurn} (hturn : turn.Recordable) {s : Relay} {index : ℕ} {workerId : String}
    {message current : OutboxMessage} {rest : List OutboxMessage}
    (hw : s.workers[index]? = some ⟨workerId, .relaying (message :: rest)⟩) (hcurrent : current ∈ s.outbox)
    (hid : current.id = message.id) (hattempts : current.attempts + 1 < 2 ^ 31) :
    (run (relayStep settings) s (turn.events index)).workers[index]? = some ⟨workerId, .relaying rest⟩ ∧
      WorksOff settings [message.id] s.outbox (run (relayStep settings) s (turn.events index)).outbox := by
  simp only [RelayTurn.events, run, List.foldl_cons, List.foldl_nil]
  cases hdeliver : deliver settings turn.delivery message s.platform.db with
  | ok result =>
    -- the delivery has committed, and the other two statements do nothing
    obtain ⟨hw₁, hdb₁⟩ := relayStep_worker hw (relayOnce_of_delivered turn.error hdeliver)
    obtain ⟨hw₂, hdb₂⟩ := relayStep_worker hw₁ (relayOnce_passes settings _ _ _ (.inl rfl))
    obtain ⟨hw₃, hdb₃⟩ := relayStep_worker hw₂ (relayOnce_passes settings _ _ _ (.inr ⟨turn.failedAt, rfl⟩))
    have hdb := hdb₃.trans (hdb₂.trans hdb₁)
    refine ⟨hw₃, ?_⟩
    obtain ⟨db₁, heffect, hmark⟩ := deliver_ok hdeliver
    obtain ⟨M, hM, hset⟩ := markProcessed_ok hmark
    rw [heffect.outbox] at hM
    rw [Relay.outbox, Relay.outbox, hdb]
    change WorksOff _ _ _ result.2.outboxMessages.rows
    rw [hset]
    refine ⟨_, hM, fun m hm => ⟨fun hin => ?_, fun hout => ?_⟩⟩
    · rw [if_pos (List.mem_singleton.mp hin)]
      exact .delivered _
    · rw [if_neg fun h => hout (List.mem_singleton.mpr h)]
  | error fault =>
    -- the failure is read and recorded
    obtain ⟨hw₁, hdb₁⟩ := relayStep_worker hw (relayOnce_of_raised turn.error hdeliver)
    change (relayStep settings s _).platform.db = s.platform.db at hdb₁
    have hcurrent₁ : current ∈ (relayStep settings s (.worker index (.deliver turn.delivery turn.error))).outbox := by
      rw [Relay.outbox, hdb₁]
      exact hcurrent
    obtain ⟨hw₂, hdb₂⟩ := relayStep_worker hw₁ (relayOnce_of_read settings turn.error hcurrent₁ hid)
    have hlow : -2 ^ 31 ≤ current.attempts + 1 := by
      have hfits := s.platform.db.outboxMessages.valid.fits current hcurrent
      simp only [outboxMessageSchema, integer, Bool.and_eq_true, decide_eq_true_eq] at hfits
      omega
    obtain ⟨db', hfailed⟩ := markFailed_total hturn hlow hattempts settings.outboxMaxAttempts _
    obtain ⟨hw₃, hdb₃⟩ := relayStep_worker hw₂ (relayOnce_of_recorded hfailed)
    refine ⟨hw₃, ?_⟩
    rw [Relay.outbox, Relay.outbox, hdb₃]
    obtain ⟨M, hM, -, hset⟩ := markFailed_ok hfailed
    change WorksOff _ _ _ db'.outboxMessages.rows
    rw [hset]
    rw [hdb₂] at hM
    change M.rows = List.map _ (relayStep settings s _).platform.db.outboxMessages.rows at hM
    rw [hdb₁] at hM
    refine ⟨_, hM, fun m hm => ⟨fun hin => ?_, fun hout => ?_⟩⟩
    · have hm_id := List.mem_singleton.mp hin
      rw [if_pos hm_id, message_eq_of_id s.platform.db hm hcurrent (hm_id.trans hid.symm)]
      exact .failed _ _ _
    · rw [if_neg fun h => hout (List.mem_singleton.mpr h)]

/-- Answering some messages and then others answers all of them. -/
theorem WorksOff.trans {id : Uuid} {ids : List Uuid} {rows rows' rows'' : List OutboxMessage} (h : WorksOff settings [id] rows rows')
    (h' : WorksOff settings ids rows' rows'') (hother : id ∉ ids) : WorksOff settings (id :: ids) rows rows'' := by
  obtain ⟨f, rfl, hf⟩ := h
  obtain ⟨f', rfl, hf'⟩ := h'
  refine ⟨f' ∘ f, by rw [List.map_map], fun m hm => ?_⟩
  obtain ⟨hanswered, hkept⟩ := hf m hm
  obtain ⟨hanswered', hkept'⟩ := hf' (f m) (List.mem_map_of_mem hm)
  by_cases hid : m.id = id
  · have hfirst := hanswered (List.mem_singleton.mpr hid)
    have hlater : f' (f m) = f m := hkept' (by rwa [hfirst.id, hid])
    refine ⟨fun _ => ?_, fun hout => absurd (hid ▸ List.mem_cons_self) hout⟩
    rw [Function.comp_apply, hlater]
    exact hfirst
  · have hsame : f m = m := hkept fun hin => hid (List.mem_singleton.mp hin)
    rw [hsame] at hanswered' hkept'
    simp only [Function.comp_apply, hsame, List.mem_cons, hid, false_or]
    exact ⟨hanswered', hkept'⟩

/-- A worker without messages does nothing in a turn. -/
theorem turn_idle (settings : RelaySettings) (turn : RelayTurn) {s : Relay} {index : ℕ} {workerId : String}
    (hw : s.workers[index]? = some ⟨workerId, .relaying []⟩) :
    (run (relayStep settings) s (turn.events index)).workers[index]? = some ⟨workerId, .relaying []⟩ ∧
      (run (relayStep settings) s (turn.events index)).outbox = s.outbox := by
  simp only [RelayTurn.events, run, List.foldl_cons, List.foldl_nil]
  obtain ⟨hw₁, hdb₁⟩ := relayStep_worker hw (relayOnce_idle settings _ _ turn.delivery turn.error)
  obtain ⟨hw₂, hdb₂⟩ := relayStep_worker hw₁ (relayOnce_passes settings _ _ _ (.inl rfl))
  obtain ⟨hw₃, hdb₃⟩ := relayStep_worker hw₂ (relayOnce_passes settings _ _ _ (.inr ⟨turn.failedAt, rfl⟩))
  exact ⟨hw₃, congrArg (fun db : Db => db.outboxMessages.rows) (hdb₃.trans (hdb₂.trans hdb₁))⟩

/-- The turns of a pass answer all of the claimed messages. -/
theorem turns_answer {turns : List RelayTurn} (hturns : ∀ turn ∈ turns, turn.Recordable) {s : Relay} {index : ℕ}
    {workerId : String} {claimed : List OutboxMessage} (hw : s.workers[index]? = some ⟨workerId, .relaying claimed⟩)
    (hclaimed : ∀ message ∈ claimed, ∃ current ∈ s.outbox, current.id = message.id ∧ current.attempts + 1 < 2 ^ 31)
    (hdistinct : (claimed.map OutboxMessage.id).Nodup) (henough : claimed.length ≤ turns.length) :
    (run (relayStep settings) s (turns.flatMap (RelayTurn.events index))).workers[index]? =
        some ⟨workerId, .relaying []⟩ ∧
      WorksOff settings (claimed.map OutboxMessage.id) s.outbox
        (run (relayStep settings) s (turns.flatMap (RelayTurn.events index))).outbox := by
  induction turns generalizing s claimed with
  | nil =>
    obtain rfl := List.eq_nil_of_length_eq_zero (Nat.le_zero.mp henough)
    exact ⟨hw, fun m => m, (List.map_id' _).symm, fun m _ => ⟨fun hin => absurd hin List.not_mem_nil, fun _ => rfl⟩⟩
  | cons turn turns ih =>
    rw [List.flatMap_cons, run_append]
    have hlater : ∀ turn ∈ turns, turn.Recordable := fun turn hturn => hturns turn (List.mem_cons_of_mem _ hturn)
    cases claimed with
    | nil =>
      obtain ⟨hw', houtbox⟩ := turn_idle settings turn hw
      obtain ⟨hw'', hanswers⟩ := ih hlater hw' (fun _ hm => absurd hm List.not_mem_nil) List.nodup_nil (Nat.zero_le _)
      rw [houtbox] at hanswers
      exact ⟨hw'', hanswers⟩
    | cons message rest =>
      obtain ⟨current, hcurrent, hid, hattempts⟩ := hclaimed message List.mem_cons_self
      obtain ⟨hother, hdistinct⟩ := List.nodup_cons.mp hdistinct
      obtain ⟨hw', hanswered⟩ := turn_answers settings (hturns turn List.mem_cons_self) hw hcurrent hid hattempts
      have hstill : ∀ message ∈ rest, ∃ current ∈ (run (relayStep settings) s (turn.events index)).outbox,
          current.id = message.id ∧ current.attempts + 1 < 2 ^ 31 := by
        intro later hlater
        obtain ⟨current, hcurrent, hid, hattempts⟩ := hclaimed later (List.mem_cons_of_mem _ hlater)
        obtain ⟨f, hf, hkept⟩ := hanswered
        have hne : current.id ∉ [message.id] := by
          intro hin
          rw [List.mem_singleton, hid] at hin
          exact hother (hin ▸ List.mem_map_of_mem hlater)
        refine ⟨current, ?_, hid, hattempts⟩
        rw [hf]
        exact List.mem_map.mpr ⟨current, hcurrent, (hkept current hcurrent).2 hne⟩
      obtain ⟨hw'', hanswers⟩ := ih hlater hw' hstill hdistinct (Nat.le_of_succ_le_succ henough)
      exact ⟨hw'', hanswered.trans hanswers hother⟩

/-! ### Passes make progress -/

/-- The attempts that a message has left. -/
def OutboxMessage.attemptsLeft (settings : RelaySettings) (m : OutboxMessage) : ℕ :=
  if m.finished then 0 else (max 1 (settings.outboxMaxAttempts - m.attempts)).toNat

/-- The attempts that the messages of the outbox have left. -/
def Relay.attemptsLeft (settings : RelaySettings) (s : Relay) : ℕ :=
  (s.outbox.map (OutboxMessage.attemptsLeft settings)).sum

/-- An unfinished message has an attempt left. -/
theorem OutboxMessage.attemptsLeft_pos (settings : RelaySettings) {m : OutboxMessage} (h : m.finished = false) : 0 < m.attemptsLeft settings := by
  rw [attemptsLeft, h, if_neg Bool.false_ne_true]
  omega

/-- An answer uses up an attempt. -/
theorem OutboxMessage.Answered.attemptsLeft_lt {m m' : OutboxMessage} (h : m.Answered settings.outboxMaxAttempts m')
    (hunfinished : m.finished = false) : m'.attemptsLeft settings < m.attemptsLeft settings := by
  have hleft := OutboxMessage.attemptsLeft_pos settings hunfinished
  cases h with
  | delivered now => exact hleft
  | failed error now retry =>
    by_cases hdead : settings.outboxMaxAttempts ≤ m.attempts + 1
    · simpa [OutboxMessage.attemptsLeft, OutboxMessage.finished, OutboxMessage.failed, hdead] using hleft
    · have hprocessed : m.processedAt = none := by
        simp only [OutboxMessage.finished, Bool.or_eq_false_iff, Option.isSome_eq_false_iff, Option.isNone_iff_eq_none] at hunfinished
        exact hunfinished.1
      simp only [OutboxMessage.attemptsLeft, hunfinished, Bool.false_eq_true, if_false]
      simp only [OutboxMessage.finished, OutboxMessage.failed, hdead, decide_false, Bool.false_eq_true, if_false, hprocessed,
        Option.isSome_none, Bool.or_self]
      omega

/-- Only unfinished messages are due. -/
theorem OutboxMessage.unfinished_of_due {m : OutboxMessage} {now : Time} (h : m.due now = true) : m.finished = false := by
  simp only [due, Bool.and_eq_true, Option.isNone_iff_eq_none] at h
  simp [finished, h.1.1.1, h.1.1.2]

/-- Answering messages uses up an attempt each. -/
theorem WorksOff.attemptsLeft_le {ids : List Uuid} {rows rows' : List OutboxMessage} (h : WorksOff settings ids rows rows')
    (hunfinished : ∀ m ∈ rows, m.id ∈ ids → m.finished = false) :
    (rows'.map (OutboxMessage.attemptsLeft settings)).sum ≤ (rows.map (OutboxMessage.attemptsLeft settings)).sum ∧
      ((∃ m ∈ rows, m.id ∈ ids) → (rows'.map (OutboxMessage.attemptsLeft settings)).sum <
        (rows.map (OutboxMessage.attemptsLeft settings)).sum) := by
  obtain ⟨f, rfl, hf⟩ := h
  rw [List.map_map]
  have hanswered : ∀ m ∈ rows, m.id ∈ ids → (f m).attemptsLeft settings < m.attemptsLeft settings :=
    fun m hm hin => ((hf m hm).1 hin).attemptsLeft_lt (hunfinished m hm hin)
  have hle : ∀ m ∈ rows, (OutboxMessage.attemptsLeft settings ∘ f) m ≤ m.attemptsLeft settings := by
    intro m hm
    by_cases hin : m.id ∈ ids
    · exact (hanswered m hm hin).le
    · rw [Function.comp_apply, (hf m hm).2 hin]
  refine ⟨List.sum_le_sum hle, ?_⟩
  intro ⟨m, hm, hin⟩
  exact List.sum_lt_sum _ _ hle ⟨m, hm, hanswered m hm hin⟩

/-- A claim rewrites the leases of the messages that it takes, and takes only unfinished ones. -/
theorem claimBatch_leases {workerId : String} {now : Time} {leaseSeconds : ℤ} {batchSize : ℕ} {locked : List Uuid}
    {claimed : List OutboxMessage} (h : claimBatch workerId now leaseSeconds batchSize locked db = .ok (claimed, db')) :
    (∃ lease : OutboxMessage → OutboxMessage, db'.outboxMessages.rows = db.outboxMessages.rows.map lease ∧
      ∀ m, (lease m).attempts = m.attempts ∧ (lease m).finished = m.finished) ∧
      (∀ m ∈ claimed, m ∈ db'.outboxMessages.rows ∧ m.finished = false) ∧ (claimed.map OutboxMessage.id).Nodup := by
  obtain ⟨candidates, M, hdue, hM, rfl, rfl⟩ := claimBatch_ok h
  refine ⟨⟨_, hM, fun m => ?_⟩, fun m hm => ?_, ?_⟩
  · split <;> exact ⟨rfl, rfl⟩
  · obtain ⟨hmem, hcandidate⟩ := List.mem_filter.mp hm
    refine ⟨hmem, ?_⟩
    rw [hM] at hmem
    obtain ⟨old, hold, rfl⟩ := List.mem_map.mp hmem
    split at hcandidate
    · rename_i hin
      obtain ⟨m', hm', hid, hdue⟩ := hdue old.id hin
      rw [message_eq_of_id db hm' hold hid] at hdue
      have hunfinished : old.finished = false := OutboxMessage.unfinished_of_due hdue
      rw [if_pos hin]
      exact hunfinished
    · rename_i hout
      exact absurd (of_decide_eq_true hcandidate) hout
  · exact (nodup_messageIds M).sublist (List.filter_sublist.map _)

/-- A pass that comes in time leaves its worker free and uses up an attempt, unless every message is finished. -/
theorem pass_progress {s : Relay} {index : ℕ} {workerId : String} {pass : RelayPass}
    (hw : s.workers[index]? = some ⟨workerId, .relaying []⟩) (hworker : varchar 64 workerId = true)
    (htimely : pass.Timely settings s) :
    (passStep settings index s pass).workers[index]? = some ⟨workerId, .relaying []⟩ ∧
      (passStep settings index s pass).attemptsLeft settings ≤ s.attemptsLeft settings - 1 := by
  obtain ⟨claimed, db', hclaim, hsize, hsome⟩ := claimBatch_total settings.outboxBatchSize hworker htimely.lease s.platform.db
  obtain ⟨⟨lease, hlease, hsame⟩, htaken, hdistinct⟩ := claimBatch_leases hclaim
  obtain ⟨hw', hdb'⟩ := relayStep_worker hw (relayOnce_of_claimed hclaim)
  have houtbox : (relayStep settings s (.worker index (.claim pass.now []))).outbox = db'.outboxMessages.rows := by
    rw [Relay.outbox, hdb']
    rfl
  have hclaimable : ∀ message ∈ claimed, ∃ current ∈ (relayStep settings s (.worker index (.claim pass.now []))).outbox,
      current.id = message.id ∧ current.attempts + 1 < 2 ^ 31 := by
    intro message hmessage
    obtain ⟨hmem, hunfinished⟩ := htaken message hmessage
    refine ⟨message, by rwa [houtbox], rfl, ?_⟩
    rw [hlease] at hmem
    obtain ⟨old, hold, rfl⟩ := List.mem_map.mp hmem
    obtain ⟨hattempts, hfinished⟩ := hsame old
    rw [hattempts]
    exact htimely.attempts old hold (hfinished.symm.trans hunfinished)
  obtain ⟨hfree, hanswers⟩ := turns_answer htimely.recordable hw' hclaimable hdistinct (hsize.trans htimely.turns)
  refine ⟨hfree, ?_⟩
  change ((run (relayStep settings) _ _).outbox.map _).sum ≤ (s.outbox.map _).sum - 1
  rw [houtbox] at hanswers
  obtain ⟨hle, hlt⟩ := hanswers.attemptsLeft_le fun m hm hin => by
    obtain ⟨message, hmessage, hid⟩ := List.mem_map.mp hin
    rw [← message_eq_of_id db' (htaken message hmessage).1 hm hid]
    exact (htaken message hmessage).2
  have hleased : (db'.outboxMessages.rows.map (OutboxMessage.attemptsLeft settings)).sum =
      (s.outbox.map (OutboxMessage.attemptsLeft settings)).sum := by
    rw [hlease, List.map_map]
    refine congrArg List.sum (List.map_congr_left fun m _ => ?_)
    simp only [Function.comp_apply, OutboxMessage.attemptsLeft, hsame]
  rw [hleased] at hle hlt
  by_cases hunfinished : ∃ m ∈ s.outbox, m.finished = false
  · obtain ⟨m, hm, hunfinished⟩ := hunfinished
    obtain ⟨message, rest, hclaimed⟩ := List.exists_cons_of_ne_nil
      (hsome (by have := settings.batch_range; omega) ⟨m, hm, htimely.due m hm hunfinished⟩)
    have hmessage : message ∈ claimed := hclaimed ▸ List.mem_cons_self
    exact Nat.le_sub_one_of_lt (hlt ⟨message, (htaken message hmessage).1, List.mem_map_of_mem hmessage⟩)
  · have hzero : (s.outbox.map (OutboxMessage.attemptsLeft settings)).sum = 0 := by
      rw [List.sum_eq_zero_iff]
      intro n hn
      obtain ⟨m, hm, rfl⟩ := List.mem_map.mp hn
      have hfinished : m.finished = true := by
        by_contra hnot
        exact hunfinished ⟨m, hm, Bool.eq_false_iff.mpr hnot⟩
      rw [OutboxMessage.attemptsLeft, if_pos hfinished]
    rw [hzero] at hle ⊢
    exact hle

/-- The outbox is worked off. Whatever state the relay is in, a worker that is free goes on alone with passes that come in
time, each after the leases and the delays before it. After as many of them as the unfinished messages have attempts
left, every message of the outbox has been delivered or dead-lettered, whether the deliveries succeed or fail. -/
theorem outbox_worked_off (settings : RelaySettings) (s : Relay) (index : ℕ) (workerId : String)
    (hw : s.workers[index]? = some ⟨workerId, .relaying []⟩) (hworker : varchar 64 workerId = true)
    (passes : List RelayPass)
    (htimely : Along (passStep settings index) (fun s pass => pass.Timely settings s) s passes)
    (henough : s.attemptsLeft settings ≤ passes.length) :
    ∀ m ∈ (run (passStep settings index) s passes).outbox, m.processedAt.isSome ∨ m.deadLetteredAt.isSome := by
  have hleft : (run (passStep settings index) s passes).attemptsLeft settings ≤ s.attemptsLeft settings - passes.length := by
    clear henough
    induction passes generalizing s with
    | nil => exact le_rfl
    | cons pass rest ih =>
      obtain ⟨hfirst, hlater⟩ := htimely
      obtain ⟨hfree, hprogress⟩ := pass_progress hw hworker hfirst
      have hrest := ih (passStep settings index s pass) hfree hlater
      change (run (passStep settings index) (passStep settings index s pass) rest).attemptsLeft settings ≤ _
      rw [List.length_cons]
      omega
  intro m hm
  have hfinished : m.finished = true := by
    by_contra hnot
    have hpos := OutboxMessage.attemptsLeft_pos settings (Bool.eq_false_iff.mpr hnot)
    have hmem := List.le_sum_of_mem (List.mem_map_of_mem (f := OutboxMessage.attemptsLeft settings) hm)
    change m.attemptsLeft settings ≤ (run (passStep settings index) s passes).attemptsLeft settings at hmem
    omega
  simpa [OutboxMessage.finished] using hfinished

/-- A relay that takes two messages at a time and gives up at the second failure. -/
def sampleImpatient : RelaySettings :=
  { sampleRelaySettings with
    outboxBatchSize := 2
    outboxMaxAttempts := 2
    batch_range := by decide
    attempts_range := by decide }

/-- The messages of two orders that await their payments; the second has failed once. -/
def sampleMessages : List OutboxMessage :=
  [.pending ⟨7⟩ "order" ⟨100⟩ "order.awaiting_payment" "order.awaiting_payment:100" [("order_id", .str "100")] sampleNow,
    { OutboxMessage.pending ⟨8⟩ "order" ⟨101⟩ "order.awaiting_payment" "order.awaiting_payment:101"
        [("order_id", .str "101")] sampleNow with attempts := 1 }]

/-- Those messages are all there is; a worker has claimed both of them and died, and another one is free. -/
def sampleCrashed : Relay :=
  run (relayStep sampleImpatient)
    { platform := { samplePlatform with
        db := { samplePlatform.db with outboxMessages := ⟨sampleMessages, by decide +kernel⟩ } }
      workers := [⟨"w0", .relaying []⟩, ⟨"w1", .relaying []⟩]
      leases := [] }
    [.worker 1 (.claim sampleNow []), .worker 1 .die]

/-- A pass a number of seconds later, with what publishing answers. -/
def samplePass (after : ℤ) (published : Except Fault Unit) : RelayPass where
  now := sampleNow + seconds after
  turns := List.replicate 2
    ⟨{ sampleAnchoring id with published := published }, "KafkaException: ", sampleNow + seconds after⟩

/-- The relay after a pass in which nothing can be published. -/
def sampleRetried : Relay := passStep sampleImpatient 0 sampleCrashed (samplePass 61 (.error .osError))

/-- The relay after another pass. -/
def sampleDelivered : Relay := passStep sampleImpatient 0 sampleRetried (samplePass 1000 (.ok ()))

/-- A sample pass on the same day writes nothing that is out of range. -/
theorem samplePass_recordable {after : ℤ} {published : Except Fault Unit} (hafter : 0 ≤ after) (hbefore : after ≤ 80000) :
    ∀ turn ∈ (samplePass after published).turns, turn.Recordable := by
  intro turn hturn
  rw [List.eq_of_mem_replicate hturn]
  refine ⟨(by decide : '\x00' ∉ "KafkaException: ".toList), fun delay hlow hhigh => ?_⟩
  have hday : (1772323200000000 + after * 1000000 + delay * 1000000) / 86400000000 = 20513 := by omega
  change decide (1 ≤ (civilFromDays ((1772323200000000 + after * 1000000 + delay * 1000000) / 86400000000)).1 ∧
    (civilFromDays ((1772323200000000 + after * 1000000 + delay * 1000000) / 86400000000)).1 ≤ 9999) = true
  rw [hday]
  decide +kernel

/-- Both messages are worked off in three passes after the lease of the dead worker: nothing can be published in the
first one, which is the last attempt for one of them. -/
theorem outbox_worked_off_sample :
    let passes := [samplePass 61 (.error .osError), samplePass 1000 (.ok ()), samplePass 2000 (.ok ())]
    (sampleCrashed.outbox.map fun m => (m.lockedBy, m.attempts)) = [(some "w1", 0), (some "w1", 1)] ∧
      ((run (passStep sampleImpatient 0) sampleCrashed passes).outbox.all fun m => m.finished) = true := by
  intro passes
  have hstates : ((sampleCrashed.outbox.map fun m => (m.lockedBy, m.attempts)) = [(some "w1", 0), (some "w1", 1)] ∧
        sampleCrashed.attemptsLeft sampleImpatient ≤ 3) ∧
      (∀ m ∈ sampleCrashed.outbox, m.finished = false →
        m.due (samplePass 61 (.error .osError)).now = true ∧ m.attempts + 1 < 2 ^ 31) ∧
      (∀ m ∈ sampleRetried.outbox, m.finished = false →
        m.due (samplePass 1000 (.ok ())).now = true ∧ m.attempts + 1 < 2 ^ 31) ∧
      ∀ m ∈ sampleDelivered.outbox, m.finished = false →
        m.due (samplePass 2000 (.ok ())).now = true ∧ m.attempts + 1 < 2 ^ 31 := by
    decide +kernel
  obtain ⟨⟨hclaimed, henough⟩, hcrashed, hretried, hdelivered⟩ := hstates
  have hfirst : (samplePass 61 (.error .osError)).Timely sampleImpatient sampleCrashed :=
    ⟨fun m hm h => (hcrashed m hm h).1, by decide, by decide, samplePass_recordable (by decide) (by decide),
      fun m hm h => (hcrashed m hm h).2⟩
  have hsecond : (samplePass 1000 (.ok ())).Timely sampleImpatient sampleRetried :=
    ⟨fun m hm h => (hretried m hm h).1, by decide, by decide, samplePass_recordable (by decide) (by decide),
      fun m hm h => (hretried m hm h).2⟩
  have hthird : (samplePass 2000 (.ok ())).Timely sampleImpatient sampleDelivered :=
    ⟨fun m hm h => (hdelivered m hm h).1, by decide, by decide, samplePass_recordable (by decide) (by decide),
      fun m hm h => (hdelivered m hm h).2⟩
  have hworked := outbox_worked_off sampleImpatient sampleCrashed 0 "w0" rfl (by decide) passes
    ⟨hfirst, hsecond, hthird, trivial⟩ henough
  exact ⟨hclaimed, List.all_eq_true.mpr fun m hm => by simpa [OutboxMessage.finished] using hworked m hm⟩

end TaxStamp
