import TaxStamp.Outcomes

/-!
# Counting failed deliveries

`mark_failed` writes `attempts` and `dead_lettered_at` from a value that an earlier
statement read without a lock. As long as the value is still in the row when it is written
back, `attempts` is the number of recorded failures and a message is dead-lettered exactly
from the configured number of them on. A value that another failure has overtaken loses
that failure, and can take a message out of the dead letters again.
-/

namespace TaxStamp

open Lib

/-- The failure that an event records: the message, and the number of attempts read for it. -/
def Relay.failure (settings : RelaySettings) (s : Relay) : RelayEvent → Option (Uuid × ℤ)
  | .worker index e =>
    match s.workers[index]? with
    | some w =>
      match w.phase, relayOnce settings s.platform.db w e with
      | .recording _ attempts _ _, .failed message _ _ _ _ => some (message.id, attempts)
      | _, _ => none
    | none => none
  | .service _ | .join _ => none

/-- How many failures of a message an event records. -/
def Relay.fails (settings : RelaySettings) (messageId : Uuid) (s : Relay) (e : RelayEvent) : ℕ :=
  if (s.failure settings e).any (fun failure => failure.1 = messageId) then 1 else 0

/-- The number of failures of a message that a run has recorded. -/
def failures (settings : RelaySettings) (s : Relay) (events : List RelayEvent) (messageId : Uuid) : ℕ :=
  total (relayStep settings) (Relay.fails settings messageId) s events

/-- Failures are counted: in every state of the run `attempts` is the number of recorded failures of the
message, which is dead-lettered exactly from the configured number of them on, and no event takes a message out of
the dead letters. -/
def FailuresCounted (settings : RelaySettings) (s : Relay) (events : List RelayEvent) : Prop :=
  (∀ before after, events = before ++ after → ∀ m ∈ (run (relayStep settings) s before).outbox,
    m.attempts = failures settings s before m.id ∧
      (m.deadLetteredAt.isSome = true ↔ settings.outboxMaxAttempts ≤ failures settings s before m.id)) ∧
  ∀ before e after, events = before ++ e :: after → ∀ m ∈ (run (relayStep settings) s before).outbox,
    m.deadLetteredAt.isSome = true → ∃ m' ∈ (run (relayStep settings) s (before ++ [e])).outbox,
      m'.id = m.id ∧ m'.deadLetteredAt.isSome = true

/-- A failure is recorded from a number of attempts that is still the row's. -/
def readsFresh (settings : RelaySettings) (s : Relay) (e : RelayEvent) : Prop :=
  ∀ failure ∈ s.failure settings e, ∀ m ∈ s.outbox, m.id = failure.1 → m.attempts = failure.2

instance (settings : RelaySettings) (s : Relay) (e : RelayEvent) : Decidable (readsFresh settings s e) :=
  inferInstanceAs (Decidable (∀ failure ∈ s.failure settings e, ∀ m ∈ s.outbox, m.id = failure.1 → _))

/-- A recorded failure is the one of the worker's phase. -/
theorem relayOnce_failed {settings : RelaySettings} {db db' : Db} {w : RelayWorker} {e : RelayWorkerEvent}
    {message : OutboxMessage} {retry : Time} {dead : Bool} {rest : List OutboxMessage}
    (h : relayOnce settings db w e = .failed message retry dead rest db') :
    ∃ attempts error now, w.phase = .recording message attempts error rest ∧
      markFailed message.id attempts error now settings.outboxMaxAttempts db = .ok (dead, db') := by
  unfold relayOnce at h
  split at h
  · split at h <;> cases h
  · split at h <;> cases h
  · cases h
  · split at h <;> cases h
  · split at h
    · rename_i attempts error _ now hphase _ _ _ hmark
      cases h
      exact ⟨attempts, error, now, hphase, hmark⟩
    · cases h
  · cases h
  · cases h

/-- A statement that records no failure leaves the counter and the dead letter of every message alone. -/
theorem Handled.sameFailures {settings : RelaySettings} {act : RelayAct} {m m' : OutboxMessage}
    (h : Handled settings act m m') (hact : ∀ message retry dead rest db, act ≠ .failed message retry dead rest db) :
    m'.attempts = m.attempts ∧ m'.deadLetteredAt = m.deadLetteredAt := by
  cases h with
  | kept => exact ⟨rfl, rfl⟩
  | leased => exact ⟨rfl, rfl⟩
  | processed => exact ⟨rfl, rfl⟩
  | failed message rest db attempts error now retry dead heq => exact absurd heq (hact _ _ _ _ _)

/-- What an event does to the failures of the outbox: it records one, or it keeps all and lets the outbox
grow. -/
inductive FailureStep (settings : RelaySettings) (s s' : Relay) : Option (Uuid × ℤ) → Prop
  | grown (new : List OutboxMessage) (hrows : s'.outbox = s.outbox ++ new)
      (hnew : ∀ message ∈ new, message.Untouched) : FailureStep settings s s' none
  | kept (f : OutboxMessage → OutboxMessage) (hrows : s'.outbox = s.outbox.map f)
      (hf : ∀ m ∈ s.outbox, (f m).id = m.id ∧ (f m).attempts = m.attempts ∧
        (f m).deadLetteredAt = m.deadLetteredAt) : FailureStep settings s s' none
  | recorded (messageId : Uuid) (attempts : ℤ) (error : String) (now retry : Time)
      (hrows : s'.outbox = s.outbox.map fun m => if m.id = messageId then
        m.failed (attempts + 1) error now retry (decide (settings.outboxMaxAttempts ≤ attempts + 1)) else m) :
      FailureStep settings s s' (some (messageId, attempts))

/-- Every event is such a step. -/
theorem relayStep_failure (settings : RelaySettings) (s : Relay) (e : RelayEvent) :
    FailureStep settings s (relayStep settings s e) (s.failure settings e) := by
  rcases relayStep_outbox settings s e with ⟨hact, new, hrows, hnew⟩ | ⟨index, act, f, hact, hrows, hhandled⟩
  · have hnone : s.failure settings e = none := by
      cases e with
      | service e => rfl
      | join workerId => rfl
      | worker index e =>
        have hw : s.workers[index]? = none := by simpa [Relay.act] using hact
        simp only [Relay.failure, hw]
    rw [hnone]
    exact .grown new hrows hnew
  · cases e with
    | service e => cases hact
    | join workerId => cases hact
    | worker i e =>
      obtain ⟨w, hw, hpair⟩ := Option.map_eq_some_iff.mp hact
      obtain ⟨-, rfl⟩ := Prod.mk.inj hpair
      simp only [Relay.failure, hw]
      split
      · rename_i message attempts error rest _ retry dead _ db' hphase hfailed
        obtain ⟨attempts', error', now, hphase', hmark⟩ := relayOnce_failed hfailed
        rw [hphase] at hphase'
        cases hphase'
        obtain ⟨M, hM, rfl, rfl⟩ := markFailed_ok hmark
        refine .recorded message.id attempts error now (now + seconds (backoffSeconds (attempts + 1))) ?_
        simp only [relayStep, hw, Relay.outbox, hfailed]
        exact hM
      · rename_i hother
        refine .kept f hrows fun m hm => ?_
        have hkeeps := (hhandled m hm).sameFailures fun message retry dead rest db' hfailed => by
          obtain ⟨attempts, error, now, hphase, -⟩ := relayOnce_failed hfailed
          exact hother _ _ _ _ _ _ _ _ _ hphase hfailed
        exact ⟨(hhandled m hm).id, hkeeps⟩

/-- A worker that is about to record a failure has read the message from the outbox. -/
def Relay.Grounded (s : Relay) : Prop :=
  ∀ w ∈ s.workers, ∀ message attempts error rest, w.phase = .recording message attempts error rest →
    ∃ m ∈ s.outbox, m.id = message.id

/-- A statement that leaves a worker about to record a failure has just read the message, or left the worker where it
stood. -/
theorem relayOnce_recording {settings : RelaySettings} {db : Db} {w : RelayWorker} {e : RelayWorkerEvent}
    {message : OutboxMessage} {attempts : ℤ} {error : String} {rest : List OutboxMessage}
    (h : (relayOnce settings db w e).phase = .recording message attempts error rest) :
    (∃ m ∈ db.outboxMessages.rows, m.id = message.id) ∨ w.phase = .recording message attempts error rest := by
  unfold relayOnce at h
  split at h
  · split at h <;> cases h
  · split at h <;> cases h
  · cases h
  · split at h
    · rename_i hfetch
      cases h
      have hfound := List.mem_filter.mp ((fetch_ok.mp hfetch).1 ▸ List.mem_singleton_self _)
      exact .inl ⟨_, hfound.1, of_decide_eq_true hfound.2⟩
    · cases h
  · split at h <;> cases h
  · cases h
  · exact .inr h

/-- Every event keeps the workers grounded. -/
theorem Relay.Grounded.step {settings : RelaySettings} {s : Relay} (h : s.Grounded) (e : RelayEvent) :
    (relayStep settings s e).Grounded := by
  intro w hw message attempts error rest hphase
  have hkept : (∃ m ∈ s.outbox, m.id = message.id) → ∃ m ∈ (relayStep settings s e).outbox, m.id = message.id := by
    rintro ⟨m, hm, hid⟩
    obtain ⟨m', hm', hid'⟩ := relayStep_kept settings s e hm
    exact ⟨m', hm', hid'.trans hid⟩
  refine hkept ?_
  cases e with
  | service e =>
    have hworkers : (relayStep settings s (.service e)).workers = s.workers := by
      simp only [relayStep]
      split <;> rfl
    rw [hworkers] at hw
    exact h w hw message attempts error rest hphase
  | join workerId =>
    rcases List.mem_append.mp hw with hold | hnew
    · exact h w hold message attempts error rest hphase
    · rw [List.mem_singleton.mp hnew] at hphase
      cases hphase
  | worker index e =>
    cases hindex : s.workers[index]? with
    | none =>
      simp only [relayStep, hindex] at hw
      exact h w hw message attempts error rest hphase
    | some v =>
      simp only [relayStep, hindex] at hw
      rcases List.mem_or_eq_of_mem_set hw with hold | rfl
      · exact h w hold message attempts error rest hphase
      · rcases relayOnce_recording hphase with hread | hbefore
        · exact hread
        · exact h v (List.mem_of_getElem? hindex) message attempts error rest hbefore

/-- A recorded failure is one of a message of the outbox. -/
theorem Relay.Grounded.failure {settings : RelaySettings} {s : Relay} (h : s.Grounded) {e : RelayEvent}
    {messageId : Uuid} {attempts : ℤ} (hfailure : s.failure settings e = some (messageId, attempts)) :
    ∃ m ∈ s.outbox, m.id = messageId := by
  cases e with
  | service e => cases hfailure
  | join workerId => cases hfailure
  | worker index e =>
    simp only [Relay.failure] at hfailure
    split at hfailure
    · rename_i w hw
      split at hfailure
      · rename_i hphase hfailed
        cases hfailure
        obtain ⟨attempts', error, now, hphase', -⟩ := relayOnce_failed hfailed
        exact h w (List.mem_of_getElem? hw) _ _ _ _ hphase'
      · cases hfailure
    · cases hfailure

/-- The counters and the dead letters of the outbox agree with a count of failures. -/
structure Relay.Counted (settings : RelaySettings) (n : Uuid → ℕ) (s : Relay) : Prop where
  grounded : s.Grounded
  known : ∀ messageId, 0 < n messageId → ∃ m ∈ s.outbox, m.id = messageId
  attempts : ∀ m ∈ s.outbox, m.attempts = n m.id
  dead : ∀ m ∈ s.outbox, (m.deadLetteredAt.isSome = true ↔ settings.outboxMaxAttempts ≤ n m.id)

section Step

variable {settings : RelaySettings} {n : Uuid → ℕ} {s : Relay} (h : s.Counted settings n)
include h

/-- A message that no worker has touched has no failures to its identifier. -/
theorem Relay.Counted.untouched {m : OutboxMessage} (hm : m.Untouched) (hnew : ∀ old ∈ s.outbox, old.id ≠ m.id) :
    m.attempts = n m.id ∧ (m.deadLetteredAt.isSome = true ↔ settings.outboxMaxAttempts ≤ n m.id) := by
  have hzero : n m.id = 0 := by
    by_contra hne
    obtain ⟨old, hold, hid⟩ := h.known m.id (Nat.pos_of_ne_zero hne)
    exact hnew old hold hid
  have hpositive := settings.attempts_range.1
  rw [hzero, hm.attempts, hm.deadLetteredAt]
  refine ⟨rfl, ⟨fun hsome => (by cases hsome), fun hmax => ?_⟩⟩
  have hnonpositive : settings.outboxMaxAttempts ≤ 0 := hmax
  omega

/-- An event that records failures from fresh readings only keeps the count. -/
theorem Relay.Counted.step (e : RelayEvent) (hfresh : readsFresh settings s e) :
    (relayStep settings s e).Counted settings fun messageId => n messageId + Relay.fails settings messageId s e := by
  have hgrounded : (relayStep settings s e).Grounded := h.grounded.step e
  have hstep := relayStep_failure settings s e
  have hkept : ∀ messageId, (∃ m ∈ s.outbox, m.id = messageId) →
      ∃ m ∈ (relayStep settings s e).outbox, m.id = messageId := by
    rintro messageId ⟨m, hm, hid⟩
    obtain ⟨m', hm', hid'⟩ := relayStep_kept settings s e hm
    exact ⟨m', hm', hid'.trans hid⟩
  have hunique : ∀ m ∈ (relayStep settings s e).outbox, ∀ m' ∈ (relayStep settings s e).outbox, m.id = m'.id → m = m' :=
    fun m hm m' hm' hid => message_eq_of_id (relayStep settings s e).platform.db hm hm' hid
  unfold readsFresh at hfresh
  unfold Relay.fails
  cases hfailure : s.failure settings e with
  | none =>
    rw [hfailure] at hstep
    simp only [Option.any_none, Bool.false_eq_true, if_false, Nat.add_zero]
    have hmessages : ∀ m ∈ (relayStep settings s e).outbox, m.attempts = n m.id ∧
        (m.deadLetteredAt.isSome = true ↔ settings.outboxMaxAttempts ≤ n m.id) := by
      intro m hm
      cases hstep with
      | grown new hrows hnew =>
        rw [hrows] at hm hunique
        by_cases hold : ∃ old ∈ s.outbox, old.id = m.id
        · obtain ⟨old, hmem, hid⟩ := hold
          obtain rfl := hunique old (List.mem_append_left _ hmem) m hm hid
          exact ⟨h.attempts old hmem, h.dead old hmem⟩
        · rcases List.mem_append.mp hm with hmem | hmem
          · exact ⟨h.attempts m hmem, h.dead m hmem⟩
          · exact h.untouched (hnew m hmem) fun old hmem hid => hold ⟨old, hmem, hid⟩
      | kept f hrows hf =>
        rw [hrows] at hm
        obtain ⟨old, hmem, rfl⟩ := List.mem_map.mp hm
        obtain ⟨hid, hattempts, hdead⟩ := hf old hmem
        rw [hid, hattempts, hdead]
        exact ⟨h.attempts old hmem, h.dead old hmem⟩
    exact ⟨hgrounded, fun messageId hpos => hkept messageId (h.known messageId hpos),
      fun m hm => (hmessages m hm).1, fun m hm => (hmessages m hm).2⟩
  | some failure =>
    obtain ⟨failed, read⟩ := failure
    rw [hfailure] at hstep hfresh
    simp only [Option.any_some, decide_eq_true_eq]
    have hmessages : ∀ m ∈ (relayStep settings s e).outbox,
        m.attempts = ↑(n m.id + if failed = m.id then 1 else 0) ∧ (m.deadLetteredAt.isSome = true ↔
          settings.outboxMaxAttempts ≤ ↑(n m.id + if failed = m.id then 1 else 0)) := by
      intro m hm
      cases hstep with
      | recorded _ _ error now retry hrows =>
        rw [hrows] at hm
        obtain ⟨old, hmem, rfl⟩ := List.mem_map.mp hm
        split
        · rename_i hid
          have hread : read = n old.id := (hfresh _ rfl old hmem hid).symm.trans (h.attempts old hmem)
          have hcount : ((n old.id + if failed = old.id then 1 else 0 : ℕ) : ℤ) = read + 1 := by
            rw [if_pos hid.symm, hread]
            rfl
          refine ⟨hcount.symm, ?_⟩
          change (if decide (settings.outboxMaxAttempts ≤ read + 1) = true then some now else none).isSome = true ↔
            settings.outboxMaxAttempts ≤ ((n old.id + if failed = old.id then 1 else 0 : ℕ) : ℤ)
          rw [hcount]
          split
          · rename_i hmax
            exact ⟨fun _ => of_decide_eq_true hmax, fun _ => rfl⟩
          · rename_i hless
            exact ⟨fun hsome => (by cases hsome), fun hmax => absurd (decide_eq_true hmax) hless⟩
        · rename_i hother
          rw [if_neg fun heq => hother heq.symm, Nat.add_zero]
          exact ⟨h.attempts old hmem, h.dead old hmem⟩
    refine ⟨hgrounded, fun messageId hpos => hkept messageId ?_, fun m hm => (hmessages m hm).1,
      fun m hm => (hmessages m hm).2⟩
    by_cases heq : failed = messageId
    · subst heq
      exact h.grounded.failure hfailure
    · rw [if_neg heq, Nat.add_zero] at hpos
      exact h.known messageId hpos

end Step

/-- A run in which every failure is recorded from a fresh reading keeps the count. -/
theorem run_counted (settings : RelaySettings) (companies : Table companySchema) (tariffs : Table tariffSchema)
    (events : List RelayEvent) (halong : Along (relayStep settings) (readsFresh settings) (.initial companies tariffs) events) :
    (run (relayStep settings) (.initial companies tariffs) events).Counted settings
      (failures settings (.initial companies tariffs) events) := by
  refine run_history (fun past (s : Relay) => Along (relayStep settings) (readsFresh settings) (.initial companies tariffs) past →
    s.Counted settings (failures settings (.initial companies tariffs) past)) _ ?_ ?_ events halong
  · intro _
    exact ⟨fun w hw => (by cases hw), fun _ hpos => absurd hpos (Nat.lt_irrefl 0), fun m hm => (by cases hm),
      fun m hm => (by cases hm)⟩
  · intro past e ih hnext
    rw [along_append] at hnext
    have hcount : failures settings (.initial companies tariffs) (past ++ [e]) = fun messageId =>
        failures settings (.initial companies tariffs) past messageId +
          Relay.fails settings messageId (run (relayStep settings) (.initial companies tariffs) past) e := by
      funext messageId
      exact total_concat _ _ _ _
    rw [hcount]
    exact (ih hnext.1).step e hnext.2.1

/-- Failures are counted in every run in which each of them is recorded from a number of attempts that is
still the row's. -/
theorem failures_counted_of_readsFresh (settings : RelaySettings) (companies : Table companySchema)
    (tariffs : Table tariffSchema) (events : List RelayEvent)
    (halong : Along (relayStep settings) (readsFresh settings) (.initial companies tariffs) events) :
    FailuresCounted settings (.initial companies tariffs) events := by
  constructor
  · rintro before after rfl m hm
    rw [along_append] at halong
    have hcounted := run_counted settings companies tariffs before halong.1
    exact ⟨hcounted.attempts m hm, hcounted.dead m hm⟩
  · rintro before e after rfl m hm hdead
    rw [← List.singleton_append, ← List.append_assoc, along_append] at halong
    have hbefore := run_counted settings companies tariffs before ((along_append ..).mp halong.1).1
    have hafter := run_counted settings companies tariffs (before ++ [e]) halong.1
    obtain ⟨m', hm', hid⟩ := relayStep_kept settings _ e hm
    have hconcat := @run_concat _ _ (relayStep settings) (.initial companies tariffs) before e
    rw [← hconcat] at hm'
    refine ⟨m', hm', hid, (hafter.dead m' hm').mpr ?_⟩
    have hmax := (hbefore.dead m hm).mp hdead
    have hgrows : failures settings (.initial companies tariffs) before m.id ≤
        failures settings (.initial companies tariffs) (before ++ [e]) m.id := by
      unfold failures
      rw [total_concat]
      exact Nat.le_add_right _ _
    rw [hid]
    exact hmax.trans (Int.ofNat_le.mpr hgrows)

/-- A worker's delivery raises. -/
def sampleRaise (index : ℕ) : RelayEvent := .worker index (.raise "TimeoutError: ")

/-- A worker reads the message whose delivery raised. -/
def sampleRead (index : ℕ) : RelayEvent := .worker index .readFailed

/-- A worker records the failure of its message a number of seconds after the announcement. -/
def sampleRecord (index : ℕ) (after : ℤ) : RelayEvent := .worker index (.recordFailed (sampleNow + seconds after))

/-- The failures of two runs: in the first each worker reads `attempts` after the other has recorded, in the second
both read first. -/
theorem sampleFailures :
    Along (relayStep sampleRelaySettings) (readsFresh sampleRelaySettings) (.initial sampleCompanies sampleTariffs)
        (sampleAnnounced ++ [sampleClaim 0 0, sampleRaise 0, sampleClaim 1 61, sampleRaise 1, sampleRead 0,
          sampleRecord 0 62, sampleRead 1, sampleRecord 1 63]) ∧
      ∃ m ∈ (run (relayStep sampleRelaySettings) (.initial sampleCompanies sampleTariffs)
          (sampleAnnounced ++ [sampleClaim 0 0, sampleRaise 0, sampleClaim 1 61, sampleRaise 1, sampleRead 0,
            sampleRead 1, sampleRecord 0 62, sampleRecord 1 63])).outbox,
        m.attempts ≠ failures sampleRelaySettings (.initial sampleCompanies sampleTariffs)
          (sampleAnnounced ++ [sampleClaim 0 0, sampleRaise 0, sampleClaim 1 61, sampleRaise 1, sampleRead 0,
            sampleRead 1, sampleRecord 0 62, sampleRecord 1 63]) m.id := by
  decide +kernel

/-- Two failures, each read and recorded before the other is read. -/
theorem failures_counted_sample :
    Along (relayStep sampleRelaySettings) (readsFresh sampleRelaySettings) (.initial sampleCompanies sampleTariffs)
        (sampleAnnounced ++ [sampleClaim 0 0, sampleRaise 0, sampleClaim 1 61, sampleRaise 1, sampleRead 0,
          sampleRecord 0 62, sampleRead 1, sampleRecord 1 63]) ∧
      FailuresCounted sampleRelaySettings (.initial sampleCompanies sampleTariffs)
        (sampleAnnounced ++ [sampleClaim 0 0, sampleRaise 0, sampleClaim 1 61, sampleRaise 1, sampleRead 0,
          sampleRecord 0 62, sampleRead 1, sampleRecord 1 63]) := by
  obtain ⟨halong, -⟩ := sampleFailures
  exact ⟨halong, failures_counted_of_readsFresh sampleRelaySettings sampleCompanies sampleTariffs _ halong⟩

/-- The second worker claims the message after the first has outlived its lease. Both deliveries raise, both
workers read no attempts, and both record the first one: after two failures `attempts` is one. -/
theorem not_failures_counted :
    ¬FailuresCounted sampleRelaySettings (.initial sampleCompanies sampleTariffs)
      (sampleAnnounced ++ [sampleClaim 0 0, sampleRaise 0, sampleClaim 1 61, sampleRaise 1, sampleRead 0,
        sampleRead 1, sampleRecord 0 62, sampleRecord 1 63]) := by
  rintro ⟨hcounted, -⟩
  obtain ⟨-, m, hm, hne⟩ := sampleFailures
  exact hne (hcounted _ [] (List.append_nil _).symm m hm).1

end TaxStamp
