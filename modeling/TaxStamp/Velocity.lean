import Mathlib.Data.List.Perm.Subperm
import TaxStamp.Verification

/-!
# The velocity bound

A verification is valid only if fewer than three other devices have verified its stamp in
the last 24 hours, but it counts them before it records itself, without a lock on the
stamp. Devices that count at the same time do not see each other, and any number of them
can be recorded as valid. In runs where the count still holds when an attempt is recorded,
no 24 hours have valid verifications of a stamp from more than three devices.
-/

namespace TaxStamp

open Lib

/-- The valid verifications of a stamp in the 24 hours that begin at a time. -/
def validWithin (verifications : List Verification) (stampId : Uuid) (start : Time) : List Verification :=
  verifications.filter fun v =>
    v.stampId = some stampId && v.outcome = .valid && start ≤ v.occurredAt && v.occurredAt ≤ start + velocityWindow

/-- The devices behind them. -/
def devicesWithin (verifications : List Verification) (stampId : Uuid) (start : Time) : List String :=
  ((validWithin verifications stampId start).map Verification.deviceId).dedup

/-- In any 24 hours the valid verifications of a stamp come from at most three devices. -/
def VelocityBounded (verifications : List Verification) : Prop :=
  ∀ stampId start, (devicesWithin verifications stampId start).length ≤ velocityDistinctDeviceThreshold

/-- When a valid attempt is recorded, its count of other devices is still below the threshold. -/
def countsAnew (g : Register) : RegisterEvent → Prop
  | .record index _ => ∀ attempt ∈ g.pending[index]?, ∀ stamp ∈ attempt.stamp, attempt.outcome = .valid →
      distinctRecentDevices g.verifications.rows stamp.id (attempt.now - velocityWindow) attempt.request.deviceId <
        velocityDistinctDeviceThreshold
  | _ => True

instance (g : Register) (e : RegisterEvent) : Decidable (countsAnew g e) := by
  cases e <;> unfold countsAnew <;> infer_instance

/-- A recorded row keeps the bound if its device is one of at most three that it is counted with. -/
theorem VelocityBounded.append {verifications : List Verification} (h : VelocityBounded verifications)
    {v : Verification} (hcount : ∀ stampId, v.stampId = some stampId → v.outcome = .valid →
      distinctRecentDevices verifications stampId (v.occurredAt - velocityWindow) v.deviceId <
        velocityDistinctDeviceThreshold) :
    VelocityBounded (verifications ++ [v]) := by
  intro stampId start
  have hbound := h stampId start
  by_cases hwithin : v.stampId = some stampId ∧ v.outcome = .valid ∧ start ≤ v.occurredAt ∧
      v.occurredAt ≤ start + velocityWindow
  · obtain ⟨hstamp, hvalid, hlow, hhigh⟩ := hwithin
    -- the row's own window begins no later than the interval
    have hsince : v.occurredAt - velocityWindow ≤ start := Int.sub_right_le_of_le_add hhigh
    have hdevices : devicesWithin (verifications ++ [v]) stampId start ⊆
        v.deviceId :: ((recentByOthers verifications stampId (v.occurredAt - velocityWindow) v.deviceId).map
          Verification.deviceId).dedup := by
      intro device hdevice
      rw [devicesWithin, List.mem_dedup, List.mem_map] at hdevice
      obtain ⟨w, hw, rfl⟩ := hdevice
      by_cases hsame : w.deviceId = v.deviceId
      · rw [hsame]
        exact List.mem_cons_self
      · refine List.mem_cons_of_mem _ (List.mem_dedup.mpr (List.mem_map_of_mem ?_))
        simp only [validWithin, List.mem_filter, List.mem_append, List.mem_singleton, Bool.and_eq_true,
          decide_eq_true_eq] at hw
        obtain ⟨hold | rfl, ⟨⟨hwstamp, hwvalid⟩, hwlow⟩, -⟩ := hw
        · simp only [recentByOthers, List.mem_filter, Bool.and_eq_true, decide_eq_true_eq]
          exact ⟨hold, ⟨⟨hwstamp, hwvalid⟩, Int.le_trans hsince hwlow⟩, hsame⟩
        · exact absurd rfl hsame
    have hlength := ((List.nodup_dedup _).subperm hdevices).length_le
    have hless := hcount stampId hstamp hvalid
    rw [List.length_cons] at hlength
    exact hlength.trans hless
  · have hsame : validWithin (verifications ++ [v]) stampId start = validWithin verifications stampId start := by
      rw [validWithin, List.filter_append, List.filter_cons_of_neg, List.filter_nil, List.append_nil]
      · rfl
      · simpa [and_assoc] using hwithin
    rw [devicesWithin, hsame]
    exact hbound

/-- Every event whose count still holds keeps the bound. -/
theorem VelocityBounded.step (settings : Settings) (g : Register) (e : RegisterEvent)
    (h : VelocityBounded g.verifications.rows) (hcounts : countsAnew g e) :
    VelocityBounded (registerStep settings g e).verifications.rows := by
  cases e with
  | service e => exact h
  | assess actor request now =>
    unfold registerStep
    dsimp only
    split <;> exact h
  | record index draws =>
    unfold registerStep
    dsimp only
    split
    · exact h
    · rename_i attempt hattempt
      refine Tx.commit_induction (fun r : Records => VelocityBounded r.verifications.rows) h fun u r hrecord => ?_
      obtain ⟨V, event, db', hV, -, rfl⟩ := recordAttempt_ok.mp hrecord
      rw [hV]
      refine h.append fun stampId hstamp hvalid => ?_
      obtain ⟨stamp, hpresented, rfl⟩ := Option.map_eq_some_iff.mp hstamp
      exact hcounts attempt hattempt stamp hpresented hvalid

/-- In every run in which the count of every valid attempt still holds when it is recorded, the valid
verifications of a stamp in any 24 hours come from at most three devices. -/
theorem velocity_bounded_of_countsAnew (settings : Settings) (companies : Table companySchema)
    (tariffs : Table tariffSchema) (events : List RegisterEvent)
    (halong : Along (registerStep settings) countsAnew (.initial companies tariffs) events) :
    VelocityBounded (run (registerStep settings) (.initial companies tariffs) events).verifications.rows := by
  refine run_invariant_along (fun g => VelocityBounded g.verifications.rows)
    (fun g e h hcounts => h.step settings g e hcounts) _ ?_ events halong
  exact fun _ _ => Nat.zero_le _

/-- The stamp of the sample order is printed and activated. -/
def sampleActive : List RegisterEvent :=
  (sampleIssued ++ [Event.readStatuses ["NG-BEV-2026-0000000001-W"],
    Event.activateStamps 0 (sampleDraws 5) ⟨⟨13⟩, "ops", .operator, none, none⟩ sampleNow none]).map .service

/-- A device presents the sample stamp. -/
def sampleScan (deviceId : String) : RegisterEvent :=
  .assess ⟨⟨14⟩, deviceId, .device, none, none⟩
    { serial := "NG-BEV-2026-0000000001-W"
      secureCode := deriveSecureCode sampleSettings.crypto "NG-BEV-2026-0000000001-W" sampleSettings.deviceHmacSecret
      deviceId := deviceId
      nonce := "nonce" } sampleNow

/-- Three devices verify the sample stamp one after the other, and then a fourth. -/
def sampleQueue : List RegisterEvent :=
  sampleActive ++ [sampleScan "d1", .record 0 (sampleDraws 6), sampleScan "d2", .record 0 (sampleDraws 7),
    sampleScan "d3", .record 0 (sampleDraws 8), sampleScan "d4", .record 0 (sampleDraws 9)]

/-- The same four devices count before any of them is recorded. -/
def sampleSimultaneous : List RegisterEvent :=
  sampleActive ++ [sampleScan "d1", sampleScan "d2", sampleScan "d3", sampleScan "d4", .record 0 (sampleDraws 6),
    .record 0 (sampleDraws 7), .record 0 (sampleDraws 8), .record 0 (sampleDraws 9)]

/-- One after the other three of the devices are recorded as valid, at the same time all four of them. -/
theorem sampleScans :
    (Along (registerStep sampleSettings) countsAnew (.initial sampleCompanies sampleTariffs) sampleQueue ∧
      (devicesWithin (run (registerStep sampleSettings) (.initial sampleCompanies sampleTariffs)
        sampleQueue).verifications.rows ⟨403⟩ sampleNow).length = 3) ∧
    (devicesWithin (run (registerStep sampleSettings) (.initial sampleCompanies sampleTariffs)
      sampleSimultaneous).verifications.rows ⟨403⟩ sampleNow).length = 4 := by
  decide +kernel

/-- Three of four devices that verify one after the other are recorded as valid. -/
theorem velocity_bounded_sample :
    (devicesWithin (run (registerStep sampleSettings) (.initial sampleCompanies sampleTariffs)
      sampleQueue).verifications.rows ⟨403⟩ sampleNow).length = 3 ∧
    VelocityBounded (run (registerStep sampleSettings) (.initial sampleCompanies sampleTariffs)
      sampleQueue).verifications.rows :=
  ⟨sampleScans.1.2, velocity_bounded_of_countsAnew sampleSettings sampleCompanies sampleTariffs sampleQueue
    sampleScans.1.1⟩

/-- Four devices that count at the same time are all recorded as valid. -/
theorem not_velocity_bounded :
    ¬VelocityBounded (run (registerStep sampleSettings) (.initial sampleCompanies sampleTariffs)
      sampleSimultaneous).verifications.rows := by
  intro h
  have hbound := h ⟨403⟩ sampleNow
  rw [sampleScans.2] at hbound
  exact absurd hbound (by decide)

end TaxStamp
