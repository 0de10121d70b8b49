import TaxStamp.Leasing

/-!
# One final outcome per message

A delivery commits the handler's effects and `processed_at` together, but looks neither at
the lock nor at an outcome recorded by somebody else. As long as every outcome is
committed while the message is locked, the first outcome after a claim is the only one,
and a processed message is final.
-/

namespace TaxStamp

open Lib

/-- No message is both processed and dead-lettered, and once a message is processed no event commits an
outcome of it or changes it. -/
def OutcomesFinal (settings : RelaySettings) (s : Relay) (events : List RelayEvent) : Prop :=
  (∀ before after, events = before ++ after → ∀ m ∈ (run (relayStep settings) s before).outbox,
    ¬(m.processedAt.isSome = true ∧ m.deadLetteredAt.isSome = true)) ∧
  ∀ before e after, events = before ++ e :: after → ∀ m ∈ (run (relayStep settings) s before).outbox,
    m.processedAt.isSome = true →
    m ∈ (run (relayStep settings) s (before ++ [e])).outbox ∧
      ∀ index, (run (relayStep settings) s before).outcome settings e ≠ some (index, m.id)

/-- An outcome is committed while the message is locked: no outcome has released it since its last claim. -/
def underLock (settings : RelaySettings) (s : Relay) (e : RelayEvent) : Prop :=
  ∀ pair ∈ s.outcome settings e, ∀ m ∈ s.outbox, m.id = pair.2 → m.lockedBy.isSome = true

instance (settings : RelaySettings) (s : Relay) (e : RelayEvent) : Decidable (underLock settings s e) :=
  inferInstanceAs (Decidable (∀ pair ∈ s.outcome settings e, ∀ m ∈ s.outbox, m.id = pair.2 → _))

/-- A locked message has no final outcome, and no message has two. -/
structure OutboxMessage.Undecided (m : OutboxMessage) : Prop where
  locked : m.lockedBy.isSome = true → m.processedAt = none ∧ m.deadLetteredAt = none
  single : m.processedAt = none ∨ m.deadLetteredAt = none

/-- A message that no worker has touched has no outcome. -/
theorem OutboxMessage.Untouched.undecided {m : OutboxMessage} (h : m.Untouched) : m.Undecided :=
  ⟨fun _ => ⟨h.processedAt, h.deadLetteredAt⟩, .inl h.processedAt⟩

/-- A message that is due has no final outcome. -/
theorem OutboxMessage.open_of_due {m : OutboxMessage} {now : Time} (h : m.due now = true) :
    m.processedAt = none ∧ m.deadLetteredAt = none := by
  simp only [OutboxMessage.due, Bool.and_eq_true] at h
  exact ⟨Option.isNone_iff_eq_none.mp h.1.1.1, Option.isNone_iff_eq_none.mp h.1.1.2⟩

/-- A statement that respects the lock gives a message at most one final outcome. -/
theorem OutboxMessage.Undecided.handled {settings : RelaySettings} {act : RelayAct} {m m' : OutboxMessage}
    (h : m.Undecided) (hhandled : Handled settings act m m')
    (hlock : act.outcome = some m.id → m.lockedBy.isSome = true) : m'.Undecided := by
  cases hhandled with
  | kept => exact h
  | leased messages now db workerId hact hdue =>
    obtain ⟨hprocessed, hdead⟩ := OutboxMessage.open_of_due hdue
    exact ⟨fun _ => ⟨hprocessed, hdead⟩, .inl hprocessed⟩
  | processed message rest db now hact hid =>
    have hlocked := hlock (by rw [hact, hid]; rfl)
    exact ⟨fun hnone => (by cases hnone), .inr (h.locked hlocked).2⟩
  | failed message rest db attempts error now retry dead hact hid =>
    have hlocked := hlock (by rw [hact, hid]; rfl)
    exact ⟨fun hnone => (by cases hnone), .inl (h.locked hlocked).1⟩

/-- A statement that commits no outcome of a processed message leaves it alone. -/
theorem Handled.eq_of_processed {settings : RelaySettings} {act : RelayAct} {m m' : OutboxMessage}
    (h : Handled settings act m m') (hprocessed : m.processedAt.isSome = true)
    (hother : act.outcome ≠ some m.id) : m' = m := by
  cases h with
  | kept => rfl
  | leased messages now db workerId hact hdue =>
    rw [(OutboxMessage.open_of_due hdue).1] at hprocessed
    cases hprocessed
  | processed message rest db now hact hid =>
    rw [hact, hid] at hother
    exact absurd rfl hother
  | failed message rest db attempts error now retry dead hact hid =>
    rw [hact, hid] at hother
    exact absurd rfl hother

/-- No message of the outbox has two final outcomes or is locked with one. -/
def Relay.Undecided (s : Relay) : Prop := ∀ m ∈ s.outbox, m.Undecided

section Step

variable {settings : RelaySettings} {s : Relay} (h : s.Undecided) (e : RelayEvent) (hlock : underLock settings s e)
include h hlock

/-- An event that respects the locks keeps the outcomes single. -/
theorem Relay.Undecided.step : (relayStep settings s e).Undecided := by
  intro m hm
  rcases relayStep_outbox settings s e with ⟨-, new, hrows, hnew⟩ | ⟨index, act, f, hact, hrows, hhandled⟩
  · rw [hrows] at hm
    rcases List.mem_append.mp hm with hold | hmem
    · exact h m hold
    · exact (hnew m hmem).undecided
  · rw [hrows] at hm
    obtain ⟨old, hold, rfl⟩ := List.mem_map.mp hm
    refine (h old hold).handled (hhandled old hold) fun houtcome => ?_
    exact hlock (index, old.id) (Relay.outcome_some.mpr ⟨act, hact, houtcome⟩) old hold rfl

/-- An event that respects the locks does not touch a processed message. -/
theorem Relay.Undecided.final {m : OutboxMessage} (hm : m ∈ s.outbox) (hprocessed : m.processedAt.isSome = true) :
    m ∈ (relayStep settings s e).outbox ∧ ∀ index, s.outcome settings e ≠ some (index, m.id) := by
  have hunlocked : ¬m.lockedBy.isSome = true := by
    intro hlocked
    rw [((h m hm).locked hlocked).1] at hprocessed
    cases hprocessed
  have hno : ∀ index, s.outcome settings e ≠ some (index, m.id) := fun index houtcome =>
    hunlocked (hlock (index, m.id) houtcome m hm rfl)
  refine ⟨?_, hno⟩
  rcases relayStep_outbox settings s e with ⟨-, new, hrows, -⟩ | ⟨index, act, f, hact, hrows, hhandled⟩
  · rw [hrows]
    exact List.mem_append_left _ hm
  · have hkept : f m = m := (hhandled m hm).eq_of_processed hprocessed fun houtcome =>
      hno index (Relay.outcome_some.mpr ⟨act, hact, houtcome⟩)
    rw [hrows, ← hkept]
    exact List.mem_map_of_mem hm

end Step

/-- Outcomes are final in every run in which each of them is committed while the message is locked. -/
theorem outcomes_final_of_underLock (settings : RelaySettings) (companies : Table companySchema)
    (tariffs : Table tariffSchema) (events : List RelayEvent)
    (halong : Along (relayStep settings) (underLock settings) (.initial companies tariffs) events) :
    OutcomesFinal settings (.initial companies tariffs) events := by
  have hundecided : ∀ before, Along (relayStep settings) (underLock settings) (.initial companies tariffs) before →
      (run (relayStep settings) (.initial companies tariffs) before).Undecided := fun before hbefore =>
    run_invariant_along Relay.Undecided (fun _ e h hlock => h.step e hlock) _ (fun m hm => by cases hm) before hbefore
  constructor
  · rintro before after rfl m hm ⟨hprocessed, hdead⟩
    rw [along_append] at halong
    rcases (hundecided before halong.1 m hm).single with hnone | hnone
    · rw [hnone] at hprocessed
      cases hprocessed
    · rw [hnone] at hdead
      cases hdead
  · rintro before e after rfl m hm hprocessed
    rw [along_append] at halong
    rw [run_concat]
    exact (hundecided before halong.1).final e halong.2.1 hm hprocessed

/-- The delivery of a worker's message in the transaction with a number. -/
def sampleDeliver (index n : ℕ) : RelayEvent :=
  .worker index (.deliver
    ⟨⟨"anchor", false, fun _ _ => .transportError⟩, .ok (), .ok (), sampleDraws n, fun _ => sampleNow + seconds 62⟩ "")

/-- The deliveries of two runs: one under its worker's lease and one after it. -/
theorem sampleDeliveries :
    Along (relayStep sampleRelaySettings) (underLock sampleRelaySettings) (.initial sampleCompanies sampleTariffs)
        (sampleAnnounced ++ [sampleClaim 0 0, sampleDeliver 0 5, sampleClaim 1 61]) ∧
      ∃ m ∈ (run (relayStep sampleRelaySettings) (.initial sampleCompanies sampleTariffs)
          (sampleAnnounced ++ [sampleClaim 0 0, sampleClaim 1 61, sampleDeliver 1 5])).outbox,
        m.processedAt.isSome = true ∧
          (run (relayStep sampleRelaySettings) (.initial sampleCompanies sampleTariffs)
            (sampleAnnounced ++ [sampleClaim 0 0, sampleClaim 1 61, sampleDeliver 1 5])).outcome sampleRelaySettings
            (sampleDeliver 0 6) = some (0, m.id) := by
  decide +kernel

/-- A delivery within the lease is final: a later claim does not return the message. -/
theorem outcomes_final_sample :
    Along (relayStep sampleRelaySettings) (underLock sampleRelaySettings) (.initial sampleCompanies sampleTariffs)
        (sampleAnnounced ++ [sampleClaim 0 0, sampleDeliver 0 5, sampleClaim 1 61]) ∧
      OutcomesFinal sampleRelaySettings (.initial sampleCompanies sampleTariffs)
        (sampleAnnounced ++ [sampleClaim 0 0, sampleDeliver 0 5, sampleClaim 1 61]) := by
  obtain ⟨halong, -⟩ := sampleDeliveries
  exact ⟨halong, outcomes_final_of_underLock sampleRelaySettings sampleCompanies sampleTariffs _ halong⟩

/-- The first worker outlives its lease and the second claims and delivers the message; then the first
delivers it again. -/
theorem not_outcomes_final :
    ¬OutcomesFinal sampleRelaySettings (.initial sampleCompanies sampleTariffs)
      (sampleAnnounced ++ [sampleClaim 0 0, sampleClaim 1 61, sampleDeliver 1 5, sampleDeliver 0 6]) := by
  rintro ⟨-, hfinal⟩
  obtain ⟨-, m, hm, hprocessed, houtcome⟩ := sampleDeliveries
  exact (hfinal (sampleAnnounced ++ [sampleClaim 0 0, sampleClaim 1 61, sampleDeliver 1 5]) (sampleDeliver 0 6) []
    (by simp) m hm hprocessed).2 0 houtcome

end TaxStamp
