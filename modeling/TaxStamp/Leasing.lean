import TaxStamp.Relay

/-!
# Lease exclusivity

A claim leases a message until the lease runs out or its worker records an outcome. The
failure of a worker whose own lease has run out releases whatever lease the message is
under, so exclusivity holds exactly as long as such a late failure does not schedule the
next attempt inside the lease of another worker.
-/

namespace TaxStamp

open Lib

/-- If a worker claims a message, no other worker's claim returns it up to the end of the lease unless the
first worker has committed an outcome of the message since. -/
def LeasesExclusive (settings : RelaySettings) (s : Relay) (events : List RelayEvent) : Prop :=
  ∀ (before mid after : List RelayEvent) (e e' : RelayEvent) (index index' : ℕ) (t t' : Time) (ids ids' : List Uuid)
    (messageId : Uuid), events = before ++ e :: (mid ++ e' :: after) →
    (run (relayStep settings) s before).claims settings e = some (index, t, ids) → messageId ∈ ids →
    (run (relayStep settings) s (before ++ e :: mid)).claims settings e' = some (index', t', ids') →
    messageId ∈ ids' → index' ≠ index → t ≤ t' → t' ≤ t + seconds settings.outboxLeaseSeconds →
    ∃ pre a post, mid = pre ++ a :: post ∧
      (run (relayStep settings) s (before ++ e :: pre)).outcome settings a = some (index, messageId)

/-- A recorded failure dead-letters the message or schedules its next attempt beyond every lease of another
worker that has not recorded an outcome. -/
def keepsLeases (settings : RelaySettings) (s : Relay) (e : RelayEvent) : Prop :=
  match s.act settings e with
  | some (index, .failed message retry dead _ _) =>
    dead = true ∨ ∀ l ∈ s.leases, l.messageId = message.id → l.worker ≠ index →
      l.since + seconds settings.outboxLeaseSeconds < retry
  | _ => True

instance (settings : RelaySettings) (s : Relay) (e : RelayEvent) : Decidable (keepsLeases settings s e) := by
  unfold keepsLeases
  split <;> infer_instance

/-- The message cannot be claimed before the lease has run out. -/
def Lease.Guards (settings : RelaySettings) (l : Lease) (m : OutboxMessage) : Prop :=
  m.processedAt.isSome = true ∨ m.deadLetteredAt.isSome = true ∨
    (∃ until' ∈ m.lockedUntil, l.since + seconds settings.outboxLeaseSeconds ≤ until') ∨
    l.since + seconds settings.outboxLeaseSeconds < m.availableAt

/-- A message that is due has outlived every lease that guards it. -/
theorem Lease.Guards.lt_of_due {settings : RelaySettings} {l : Lease} {m : OutboxMessage} {now : Time}
    (h : l.Guards settings m) (hdue : m.due now = true) :
    l.since + seconds settings.outboxLeaseSeconds < now := by
  simp only [OutboxMessage.due, Bool.and_eq_true, decide_eq_true_eq] at hdue
  obtain ⟨⟨⟨hprocessed, hdead⟩, havailable⟩, hlocked⟩ := hdue
  rcases h with h | h | ⟨until', huntil, hle⟩ | h
  · rw [Option.isNone_iff_eq_none.mp hprocessed] at h
    cases h
  · rw [Option.isNone_iff_eq_none.mp hdead] at h
    cases h
  · rw [huntil] at hlocked
    have hlt : until' < now := by simpa using hlocked
    exact lt_of_le_of_lt hle hlt
  · exact lt_of_lt_of_le h havailable

/-- Every unanswered claim is of a message of the outbox and guards it. -/
def Relay.Guarded (settings : RelaySettings) (s : Relay) : Prop :=
  ∀ l ∈ s.leases, ∃ m ∈ s.outbox, m.id = l.messageId ∧ l.Guards settings m

/-- A statement that does not break a lease leaves its message guarded. -/
theorem Lease.Guards.handled {settings : RelaySettings} {l : Lease} {act : RelayAct} {m m' : OutboxMessage}
    (h : l.Guards settings m) (hhandled : Handled settings act m m')
    (hretry : ∀ message retry dead rest db, act = .failed message retry dead rest db → m.id = message.id →
      dead = true ∨ l.since + seconds settings.outboxLeaseSeconds < retry) : l.Guards settings m' := by
  cases hhandled with
  | kept => exact h
  | leased messages now db workerId hact hdue =>
    refine .inr (.inr (.inl ⟨_, rfl, ?_⟩))
    have hlease : 0 ≤ seconds settings.outboxLeaseSeconds := by
      have hrange := settings.lease_range.1
      unfold seconds
      omega
    exact (h.lt_of_due hdue).le.trans (Int.le_add_of_nonneg_right hlease)
  | processed => exact .inl rfl
  | failed message rest db attempts error now retry dead hact hid =>
    rcases hretry message retry dead rest db hact hid with rfl | hlt
    · exact .inr (.inl rfl)
    · exact .inr (.inr (.inr hlt))

/-- An event that breaks no lease keeps the relay guarded. -/
theorem Relay.Guarded.step {settings : RelaySettings} {s : Relay} (h : s.Guarded settings) (e : RelayEvent)
    (hkeeps : keepsLeases settings s e) : (relayStep settings s e).Guarded settings := by
  intro l hl
  rw [relayStep_leases] at hl
  rcases relayStep_outbox settings s e with ⟨hact, new, hrows, -⟩ | ⟨index, act, f, hact, hrows, hhandled⟩
  · rw [hact] at hl
    obtain ⟨m, hm, hid, hguards⟩ := h l hl
    rw [hrows]
    exact ⟨m, List.mem_append_left _ hm, hid, hguards⟩
  · rw [hact] at hl
    unfold keepsLeases at hkeeps
    rw [hact] at hkeeps
    -- A lease from before is kept by every statement that does not answer it.
    have hold : l ∈ s.leases → (∀ message retry dead rest db, act = .failed message retry dead rest db →
        l.messageId = message.id → l.worker ≠ index) →
        ∃ m ∈ (relayStep settings s e).outbox, m.id = l.messageId ∧ l.Guards settings m := by
      intro hmem hother
      obtain ⟨m, hm, hid, hguards⟩ := h l hmem
      rw [hrows]
      refine ⟨f m, List.mem_map_of_mem hm, (hhandled m hm).id.trans hid, hguards.handled (hhandled m hm) ?_⟩
      rintro message retry dead rest db rfl hmessage
      have hmessage : l.messageId = message.id := hid.symm.trans hmessage
      exact hkeeps.imp_right fun hretry => hretry l hmem hmessage (hother message retry dead rest db rfl hmessage)
    cases act with
    | moved phase => exact hold hl (by simp)
    | claimed messages now db =>
      rcases List.mem_append.mp hl with hmem | hnew
      · exact hold hmem (by simp)
      · obtain ⟨m, hm, rfl⟩ := List.mem_map.mp hnew
        obtain ⟨-, hrow, hlocked⟩ := Relay.claimed_due hact hm
        exact ⟨m, hrow, rfl, .inr (.inr (.inl ⟨_, hlocked, le_refl _⟩))⟩
    | delivered message rest db => exact hold (List.mem_of_mem_filter hl) (by simp)
    | failed message retry dead rest db =>
      obtain ⟨hmem, hother⟩ := List.mem_filter.mp hl
      refine hold hmem ?_
      rintro message retry dead rest db ⟨⟩ hmessage hworker
      simp [hmessage, hworker] at hother

/-- The relay stays guarded along every run that breaks no lease. -/
theorem guarded_run (settings : RelaySettings) (companies : Table companySchema) (tariffs : Table tariffSchema)
    (events : List RelayEvent)
    (halong : Along (relayStep settings) (keepsLeases settings) (.initial companies tariffs) events) :
    (run (relayStep settings) (.initial companies tariffs) events).Guarded settings :=
  run_invariant_along (Relay.Guarded settings) (fun _ e h hkeeps => h.step e hkeeps) _
    (fun l hl => by cases hl) events halong

/-- A claim stays unanswered until its worker commits an outcome of the message. -/
theorem lease_kept (settings : RelaySettings) (s : Relay) (e : RelayEvent) {l : Lease} (hl : l ∈ s.leases) :
    l ∈ (relayStep settings s e).leases ∨ s.outcome settings e = some (l.worker, l.messageId) := by
  rw [relayStep_leases, Relay.outcome_some]
  cases hact : s.act settings e with
  | none => exact .inl hl
  | some pair =>
    obtain ⟨index, act⟩ := pair
    have hanswer : ∀ {message : OutboxMessage}, act.outcome = some message.id →
        l ∈ s.leases.filter (fun l => ¬(l.worker = index ∧ l.messageId = message.id)) ∨
          ∃ act', some (index, act) = some (l.worker, act') ∧ act'.outcome = some l.messageId := by
      intro message houtcome
      by_cases hown : l.worker = index ∧ l.messageId = message.id
      · refine .inr ⟨act, by rw [hown.1], ?_⟩
        rw [hown.2]
        exact houtcome
      · exact .inl (List.mem_filter.mpr ⟨hl, decide_eq_true hown⟩)
    cases act with
    | moved phase => exact .inl hl
    | claimed messages now db => exact .inl (List.mem_append_left _ hl)
    | delivered message rest db => exact hanswer rfl
    | failed message retry dead rest db => exact hanswer rfl

/-- Over a run, a claim stays unanswered or some event of the run answers it. -/
theorem lease_run (settings : RelaySettings) (s : Relay) (events : List RelayEvent) {l : Lease}
    (hl : l ∈ s.leases) :
    l ∈ (run (relayStep settings) s events).leases ∨
      ∃ pre a post, events = pre ++ a :: post ∧
        (run (relayStep settings) s pre).outcome settings a = some (l.worker, l.messageId) := by
  induction events generalizing s with
  | nil => exact .inl hl
  | cons e rest ih =>
    rcases lease_kept settings s e hl with hkept | houtcome
    · rcases ih (relayStep settings s e) hkept with hend | ⟨pre, a, post, hrest, houtcome⟩
      · exact .inl hend
      · exact .inr ⟨e :: pre, a, post, by rw [hrest, List.cons_append], houtcome⟩
    · exact .inr ⟨[], e, rest, rfl, houtcome⟩

/-- Leases are exclusive in every run in which no recorded failure schedules the next attempt inside the
lease of another worker. -/
theorem leases_exclusive_of_keepsLeases (settings : RelaySettings) (companies : Table companySchema)
    (tariffs : Table tariffSchema) (events : List RelayEvent)
    (halong : Along (relayStep settings) (keepsLeases settings) (.initial companies tariffs) events) :
    LeasesExclusive settings (.initial companies tariffs) events := by
  rintro before mid after e e' index index' t t' ids ids' messageId rfl hclaim hmem hclaim' hmem' - - hle
  obtain ⟨messages, db, hact, rfl⟩ := Relay.claims_some hclaim
  obtain ⟨messages', db', hact', rfl⟩ := Relay.claims_some hclaim'
  have hguarded : (run (relayStep settings) (.initial companies tariffs) (before ++ e :: mid)).Guarded settings := by
    rw [← List.cons_append, ← List.append_assoc, along_append] at halong
    exact guarded_run settings companies tariffs _ halong.1
  have hlease : (⟨index, messageId, t⟩ : Lease) ∈
      (relayStep settings (run (relayStep settings) (.initial companies tariffs) before) e).leases := by
    rw [relayStep_leases, hact]
    obtain ⟨m, hm, rfl⟩ := List.mem_map.mp hmem
    exact List.mem_append_right _ (List.mem_map.mpr ⟨m, hm, rfl⟩)
  have hrun : ∀ rest, run (relayStep settings) (.initial companies tariffs) (before ++ e :: rest) =
      run (relayStep settings) (relayStep settings (run (relayStep settings) (.initial companies tariffs) before) e)
        rest := fun rest => run_append _ before (e :: rest)
  rcases lease_run settings _ mid hlease with hend | ⟨pre, a, post, hmid, houtcome⟩
  · -- The lease still guards the message, so the second claim comes after it has run out.
    rw [← hrun] at hend
    obtain ⟨m, hm, hid, hguards⟩ := hguarded _ hend
    obtain ⟨m', hm', hid'⟩ := List.mem_map.mp hmem'
    obtain ⟨⟨old, hold, hsame, hdue⟩, -⟩ := Relay.claimed_due hact' hm'
    obtain rfl := message_eq_of_id _ hm hold (hid.trans (hid'.symm.trans hsame.symm))
    exact absurd (hguards.lt_of_due hdue) (not_lt.mpr hle)
  · rw [← hrun] at houtcome
    exact ⟨pre, a, post, hmid, houtcome⟩

/-- The sample settings with a lease of a minute and eight attempts. -/
def sampleRelaySettings : RelaySettings :=
  { sampleSettings with
    outboxLeaseSeconds := 60
    outboxBatchSize := 100
    outboxMaxAttempts := 8
    lease_range := by decide
    batch_range := by decide
    attempts_range := by decide }

/-- The sample order is approved, which announces one message, and three workers start. -/
def sampleAnnounced : List RelayEvent := sampleApproved.map .service ++ [.join "w0", .join "w1", .join "w2"]

/-- The claim of a worker a number of seconds after the announcement. -/
def sampleClaim (index : ℕ) (after : ℤ) : RelayEvent := .worker index (.claim (sampleNow + seconds after) [])

/-- The first worker's delivery raises and it records the failure 62 seconds after the announcement. -/
def sampleLateFailure : List RelayEvent :=
  [.worker 0 (.raise "TimeoutError: "), .worker 0 .readFailed, .worker 0 (.recordFailed (sampleNow + seconds 62))]

/-- The claims of two runs: one whose worker keeps its lease and one whose worker outlives it. -/
theorem sampleClaims :
    Along (relayStep sampleRelaySettings) (keepsLeases sampleRelaySettings) (.initial sampleCompanies sampleTariffs)
        (sampleAnnounced ++ sampleClaim 0 57 :: sampleLateFailure ++ [sampleClaim 1 64]) ∧
      (run (relayStep sampleRelaySettings) (.initial sampleCompanies sampleTariffs)
        (sampleAnnounced ++ [sampleClaim 0 0])).claims sampleRelaySettings (sampleClaim 1 61) =
        some (1, sampleNow + seconds 61, [⟨201⟩]) ∧
      (run (relayStep sampleRelaySettings) (.initial sampleCompanies sampleTariffs)
        (sampleAnnounced ++ [sampleClaim 0 0] ++ sampleClaim 1 61 :: sampleLateFailure)).claims sampleRelaySettings
        (sampleClaim 2 64) = some (2, sampleNow + seconds 64, [⟨201⟩]) := by
  decide +kernel

/-- A worker whose delivery raises in time releases its lease, and another claims the message. -/
theorem leases_exclusive_sample :
    Along (relayStep sampleRelaySettings) (keepsLeases sampleRelaySettings) (.initial sampleCompanies sampleTariffs)
        (sampleAnnounced ++ sampleClaim 0 57 :: sampleLateFailure ++ [sampleClaim 1 64]) ∧
      LeasesExclusive sampleRelaySettings (.initial sampleCompanies sampleTariffs)
        (sampleAnnounced ++ sampleClaim 0 57 :: sampleLateFailure ++ [sampleClaim 1 64]) := by
  obtain ⟨halong, -⟩ := sampleClaims
  exact ⟨halong, leases_exclusive_of_keepsLeases sampleRelaySettings sampleCompanies sampleTariffs _ halong⟩

/-- The first worker claims the message and outlives its lease. The second claims it after 61 seconds, the
first records its failure, and the third claims the message after 64 seconds, inside the second's lease. -/
theorem not_leases_exclusive :
    ¬LeasesExclusive sampleRelaySettings (.initial sampleCompanies sampleTariffs)
      (sampleAnnounced ++ [sampleClaim 0 0, sampleClaim 1 61] ++ sampleLateFailure ++ [sampleClaim 2 64]) := by
  intro h
  obtain ⟨-, hclaims⟩ := sampleClaims
  obtain ⟨pre, a, post, hmid, houtcome⟩ := h (sampleAnnounced ++ [sampleClaim 0 0]) sampleLateFailure []
    (sampleClaim 1 61) (sampleClaim 2 64) 1 2 _ _ _ _ ⟨201⟩ (by simp) hclaims.1 (List.mem_singleton_self _) hclaims.2
    (List.mem_singleton_self _) (by decide) (by decide) (by decide)
  have ha : a ∈ sampleLateFailure := by
    rw [hmid]
    exact List.mem_append_right _ (List.mem_cons_self ..)
  simp only [sampleLateFailure, List.mem_cons, List.not_mem_nil, or_false] at ha
  rcases ha with rfl | rfl | rfl <;> exact absurd (Relay.outcome_worker houtcome) (by decide)

end TaxStamp
