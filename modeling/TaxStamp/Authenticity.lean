import TaxStamp.AuditChain
import TaxStamp.SerialCodec
import TaxStamp.StampLog
import TaxStamp.Velocity

/-!
# Authenticity

Issuance and verification share two encodings: the serial with its check character, and
the keyed hash of the serial and the secure code. No other service prints stamps or
changes what is printed, so under an injective keyed hash the stored hash matches the
derived code and no other. With the history of the stamps this decides every verification:
it is valid exactly for a stamp that issuance inserted, that has been activated and neither
voided nor expired, and that not too many other devices have verified lately.
-/

namespace TaxStamp

open Lib

/-- The serial is well formed and the stored hash is that of the derived code. -/
structure Stamp.Genuine (settings : Settings) (stamp : Stamp) : Prop where
  serial : isValidSerial stamp.serial = true
  secureCodeHash : stamp.secureCodeHash = hashSecureCode settings.crypto stamp.serial
    (deriveSecureCode settings.crypto stamp.serial settings.deviceHmacSecret) settings.deviceHmacSecret

/-- A stamp stays genuine, and a printed stamp is. -/
theorem StampStep.genuine {settings : Settings} {db db' : Db} (h : StampStep settings db db')
    (hgenuine : ∀ s ∈ db.stamps.rows, s.Genuine settings) : ∀ s ∈ db'.stamps.rows, s.Genuine settings := by
  intro s' hs'
  rcases h.origin hs' with ⟨s, hs, hprint⟩ | ⟨order, batchId, now, sequence, ⟨stampId, hprinted⟩, hformat⟩
  · obtain ⟨hserial, hhash⟩ := hgenuine s hs
    refine ⟨?_, ?_⟩
    · rw [hprint.serial]
      exact hserial
    · rw [hprint.secureCodeHash, hprint.serial]
      exact hhash
  · refine ⟨isValidSerial_formatSerial hformat, ?_⟩
    rw [hprinted]
    rfl

/-- A presented serial finds the stamp that has it, for the check character refuses no genuine stamp. -/
theorem presentedStamp_iff {settings : Settings} {db : Db} (hgenuine : ∀ s ∈ db.stamps.rows, s.Genuine settings)
    {serial : String} {stamp : Stamp} :
    presentedStamp db serial = some stamp ↔ stamp ∈ db.stamps.rows ∧ stamp.serial = serial := by
  unfold presentedStamp
  constructor
  · intro h
    split at h
    · exact ⟨List.mem_of_find?_eq_some h, by simpa using List.find?_some h⟩
    · cases h
  · rintro ⟨hstamp, rfl⟩
    rw [if_pos (hgenuine stamp hstamp).serial]
    cases hfind : db.stamps.rows.find? fun s => s.serial = stamp.serial with
    | none =>
      have hnone := List.find?_eq_none.mp hfind stamp hstamp
      exact absurd (decide_eq_true rfl) hnone
    | some found =>
      have hfound := List.mem_of_find?_eq_some hfind
      have hserial : found.serial = stamp.serial := by simpa using List.find?_some hfind
      exact congrArg some (List.inj_on_of_nodup_map (serials_nodup db.stamps) hfound hstamp hserial)

/-- The log of an active stamp. -/
theorem Replays.active_iff {log : List StampEventType} {stamp : Stamp} (h : Replays log stamp) :
    stamp.status = .active ↔ .activated ∈ log ∧ .voided ∉ log ∧ .expired ∉ log := by
  obtain ⟨horder, hstatus, -, -⟩ := h
  have hlogs : log ∈ List.sublists [StampEventType.activated, .expired, .voided] := List.mem_sublists.mpr horder
  rw [hstatus]
  clear horder hstatus
  revert log
  decide

/-- What makes a presented stamp authentic. -/
structure Authentic (settings : Settings) (r : Records) (request : VerificationRequest) (now : Time) (stamp : Stamp) :
    Prop where
  inserted : stamp ∈ r.db.stamps.rows
  serial : stamp.serial = request.serial
  activated : .activated ∈ stampLog r.db.stampEvents.rows stamp.id
  unvoided : .voided ∉ stampLog r.db.stampEvents.rows stamp.id
  unexpired : .expired ∉ stampLog r.db.stampEvents.rows stamp.id
  timely : now < stamp.expiresAt
  code : request.secureCode = deriveSecureCode settings.crypto request.serial settings.deviceHmacSecret
  devices : distinctRecentDevices r.verifications.rows stamp.id (now - velocityWindow) request.deviceId <
    velocityDistinctDeviceThreshold

/-- The start of the window can be represented, and the attempt and its audit event are accepted. -/
def Recordable (settings : Settings) (draws : Draws) (attempt : VerificationAttempt) (r : Records) : Prop :=
  (∃ since, Time.add attempt.now (-velocityWindow) = .ok since) ∧
    ∃ r', recordAttempt settings draws attempt r = .ok ((), r')

section Injective

variable {settings : Settings}
  (hinjective : Function.Injective (settings.crypto.hmacSha256 (utf8 settings.deviceHmacSecret)))

include hinjective

/-- A genuine stamp matches its derived code and no other. -/
theorem Stamp.Genuine.compareDigest {stamp : Stamp} (h : stamp.Genuine settings) (code : String) :
    compareDigest (hashSecureCode settings.crypto stamp.serial code settings.deviceHmacSecret) stamp.secureCodeHash =
      .ok (code = deriveSecureCode settings.crypto stamp.serial settings.deviceHmacSecret) := by
  rw [h.secureCodeHash]
  refine (compareDigest_ascii (isAscii_hexText _).1 (isAscii_hexText _).1).trans (congrArg _ (decide_eq_decide.mpr ?_))
  constructor
  · intro hhash
    have hmessage := congrArg String.toList (utf8_injective (hinjective (hexText_injective hhash)))
    simp only [String.toList_append] at hmessage
    exact String.toList_inj.mp (List.append_cancel_left hmessage)
  · rintro rfl
    rfl

/-- A stamp that is judged valid is authentic. -/
theorem Authentic.of_judge {r : Records} {request : VerificationRequest} {now : Time} {stamp : Stamp}
    (hgenuine : stamp.Genuine settings) (hreplays : Replays (stampLog r.db.stampEvents.rows stamp.id) stamp)
    (hstamp : stamp ∈ r.db.stamps.rows) (hserial : stamp.serial = request.serial)
    (h : judge settings r.verifications.rows stamp request now = .ok .valid) :
    Authentic settings r request now stamp := by
  simp only [judge, hgenuine.compareDigest hinjective, bind, Except.bind, decide_eq_true_eq] at h
  split at h
  · cases h
  · rename_i hcode
    split at h
    · cases h
    · split at h
      · cases h
      · rename_i hlive
        split at h
        · cases h
        · rename_i hactive
          obtain ⟨hlive, -⟩ := not_or.mp hlive
          obtain ⟨hactivated, hunvoided, hunexpired⟩ := hreplays.active_iff.mp (not_not.mp hactive)
          split at h
          · cases h
          · rename_i since hsince
            split at h
            · cases h
            · rename_i hdevices
              rw [Time.add_ok hsince] at hdevices
              refine ⟨hstamp, hserial, hactivated, hunvoided, hunexpired, not_le.mp hlive, ?_, not_le.mp hdevices⟩
              rw [← hserial]
              exact not_not.mp hcode

/-- An authentic stamp is judged valid, unless the start of the window cannot be represented. -/
theorem Authentic.judge {r : Records} {request : VerificationRequest} {now : Time} {stamp : Stamp}
    (h : Authentic settings r request now stamp) (hgenuine : stamp.Genuine settings)
    (hreplays : Replays (stampLog r.db.stampEvents.rows stamp.id) stamp) :
    judge settings r.verifications.rows stamp request now =
      (Time.add now (-velocityWindow)).map fun _ => .valid := by
  have hcode : request.secureCode = deriveSecureCode settings.crypto stamp.serial settings.deviceHmacSecret := by
    rw [h.serial]
    exact h.code
  have hactive := hreplays.active_iff.mpr ⟨h.activated, h.unvoided, h.unexpired⟩
  have hlive : ¬(stamp.expiresAt ≤ now ∨ stamp.status = .expired) := by
    rw [hactive]
    exact not_or.mpr ⟨not_le.mpr h.timely, by decide⟩
  rw [TaxStamp.judge, hgenuine.compareDigest hinjective, decide_eq_true hcode]
  dsimp only [bind, Except.bind]
  rw [if_neg (not_not.mpr rfl), if_neg (by rw [hactive]; decide), if_neg hlive, if_neg (not_not.mpr hactive)]
  cases hsince : Time.add now (-velocityWindow) with
  | error fault => rfl
  | ok since =>
    rw [Time.add_ok hsince]
    exact if_neg (not_le.mpr h.devices)

variable {r : Records} {request : VerificationRequest} {now : Time} {draws : Draws} {actor : Actor}

/-- A request for an authentic stamp is judged valid, unless the start of the window cannot be represented. -/
theorem Authentic.assess {stamp : Stamp} (h : Authentic settings r request now stamp)
    (hgenuine : ∀ s ∈ r.db.stamps.rows, s.Genuine settings) (hlogged : StampsLogged r.db) :
    assess settings r request now = (Time.add now (-velocityWindow)).map fun _ => (.valid, some stamp) := by
  have hpresented := (presentedStamp_iff hgenuine).mpr ⟨h.inserted, h.serial⟩
  have hjudge := h.judge hinjective (hgenuine stamp h.inserted) (hlogged.replays stamp h.inserted)
  rw [TaxStamp.assess, hpresented]
  dsimp only
  rw [hjudge]
  cases Time.add now (-velocityWindow) <;> rfl

/-- A request is judged valid only for an authentic stamp. -/
theorem Authentic.of_assess {found : Option Stamp} (hgenuine : ∀ s ∈ r.db.stamps.rows, s.Genuine settings)
    (hlogged : StampsLogged r.db) (h : TaxStamp.assess settings r request now = .ok (.valid, found)) :
    ∃ stamp, found = some stamp ∧ Authentic settings r request now stamp := by
  unfold TaxStamp.assess at h
  split at h
  · cases h
  · rename_i stamp hpresented
    obtain ⟨hstamp, hserial⟩ := (presentedStamp_iff hgenuine).mp hpresented
    simp only [Except.bind_ok] at h
    obtain ⟨outcome, hjudge, hpair⟩ := h
    obtain ⟨rfl, rfl⟩ := Prod.mk.inj (Except.ok.inj hpair)
    exact ⟨stamp, rfl, .of_judge hinjective (hgenuine stamp hstamp) (hlogged.replays stamp hstamp) hstamp hserial
      hjudge⟩

/-- A verification that returns is valid exactly for an authentic stamp. -/
theorem verify_outcome (hgenuine : ∀ s ∈ r.db.stamps.rows, s.Genuine settings) (hlogged : StampsLogged r.db)
    {result : VerificationResult} {r' : Records}
    (h : verify settings draws actor request now r = .ok (result, r')) :
    result.outcome = .valid ↔ ∃ stamp, Authentic settings r request now stamp := by
  obtain ⟨outcome, found, hassess, -, rfl⟩ := verify_ok.mp h
  constructor
  · intro hvalid
    change outcome = .valid at hvalid
    rw [hvalid] at hassess
    obtain ⟨stamp, -, hauthentic⟩ := Authentic.of_assess hinjective hgenuine hlogged hassess
    exact ⟨stamp, hauthentic⟩
  · rintro ⟨stamp, hauthentic⟩
    rw [hauthentic.assess hinjective hgenuine hlogged] at hassess
    cases hsince : Time.add now (-velocityWindow) with
    | error fault =>
      rw [hsince] at hassess
      cases hassess
    | ok since =>
      rw [hsince] at hassess
      exact (Prod.mk.inj (Except.ok.inj hassess)).1.symm

/-- A verification returns a valid outcome exactly for an authentic stamp whose attempt can be recorded. -/
theorem verify_valid_iff (hgenuine : ∀ s ∈ r.db.stamps.rows, s.Genuine settings) (hlogged : StampsLogged r.db) :
    (∃ result r', verify settings draws actor request now r = .ok (result, r') ∧ result.outcome = .valid) ↔
      ∃ stamp, Authentic settings r request now stamp ∧
        Recordable settings draws ⟨actor, request, now, .valid, some stamp⟩ r := by
  constructor
  · rintro ⟨result, r', hverify, hvalid⟩
    obtain ⟨outcome, found, hassess, hrecord, rfl⟩ := verify_ok.mp hverify
    change outcome = .valid at hvalid
    subst hvalid
    obtain ⟨stamp, rfl, hauthentic⟩ := Authentic.of_assess hinjective hgenuine hlogged hassess
    rw [hauthentic.assess hinjective hgenuine hlogged] at hassess
    cases hsince : Time.add now (-velocityWindow) with
    | error fault =>
      rw [hsince] at hassess
      cases hassess
    | ok since => exact ⟨stamp, hauthentic, ⟨since, hsince⟩, r', hrecord⟩
  · rintro ⟨stamp, hauthentic, ⟨since, hsince⟩, r', hrecord⟩
    have hassess := hauthentic.assess hinjective hgenuine hlogged
    change Time.add now (-velocityWindow) = .ok since at hsince
    rw [hsince] at hassess
    exact ⟨_, r', verify_ok.mpr ⟨.valid, some stamp, hassess, hrecord, rfl⟩, rfl⟩

end Injective

/-! ### Runs -/

/-- Every event of the register does to the stamps what a transaction does. -/
theorem registerStep_stampStep (settings : Settings) (g : Register) (e : RegisterEvent) :
    StampStep settings g.platform.db (registerStep settings g e).platform.db := by
  rcases registerStep_platform settings g e with hsame | ⟨e', hstep, -⟩
  · rw [hsame]
    exact .same rfl rfl rfl
  · rw [hstep]
    exact (step_change settings g.platform e').stampStep

/-- After every run the stamps are genuine and are what their logs say. -/
theorem stamps_genuine (settings : Settings) (companies : Table companySchema) (tariffs : Table tariffSchema)
    (events : List RegisterEvent) :
    let db := (run (registerStep settings) (.initial companies tariffs) events).platform.db
    (∀ s ∈ db.stamps.rows, s.Genuine settings) ∧ StampsLogged db := by
  refine run_invariant (fun g : Register => (∀ s ∈ g.platform.db.stamps.rows, s.Genuine settings) ∧
    StampsLogged g.platform.db) (fun g e h => ?_) _ ⟨?_, ?_, ?_⟩ events
  · have hstep := registerStep_stampStep settings g e
    exact ⟨hstep.genuine h.1, h.2.step hstep⟩
  · exact fun _ hs => absurd hs List.not_mem_nil
  · exact fun _ hv => absurd hv List.not_mem_nil
  · exact fun _ hs => absurd hs List.not_mem_nil

/-- The serials in the register. -/
def Register.serials (g : Register) : List String := g.platform.db.stamps.rows.map Stamp.serial

/-- An issuance of the run has inserted the stamp with the serial. -/
def InsertedByChunk (settings : Settings) (g : Register) (events : List RegisterEvent) (serial : String) : Prop :=
  ∃ before draws orderId chunkSize now after,
    events = before ++ .service (.issueChunk draws orderId chunkSize now) :: after ∧
    serial ∉ (run (registerStep settings) g before).serials ∧
    serial ∈ (run (registerStep settings) g
      (before ++ [.service (.issueChunk draws orderId chunkSize now)])).serials

/-- A stamp with a new serial comes from an issuance. -/
theorem registerStep_inserts {settings : Settings} {g : Register} {e : RegisterEvent} {s : Stamp}
    (hs : s ∈ (registerStep settings g e).platform.db.stamps.rows) (hnew : s.serial ∉ g.serials) :
    ∃ draws orderId chunkSize now, e = .service (.issueChunk draws orderId chunkSize now) := by
  rcases registerStep_platform settings g e with hsame | ⟨e', hstep, hevent⟩
  · rw [hsame] at hs
    exact absurd (List.mem_map_of_mem hs) hnew
  · rw [hstep] at hs
    rcases (step_change settings g.platform e').inserts with ⟨draws, orderId, chunkSize, now, rfl⟩ | hkept
    · -- the audit event of an attempt is no issuance
      rcases hevent with rfl | ⟨_, _, _, _, _, h⟩
      · exact ⟨draws, orderId, chunkSize, now, rfl⟩
      · cases h
    · obtain ⟨s', hs', hprint⟩ := hkept s hs
      rw [hprint.serial] at hnew
      exact absurd (List.mem_map_of_mem hs') hnew

/-- Every stamp was inserted by an issuance. -/
theorem inserted_by_chunk (settings : Settings) (companies : Table companySchema) (tariffs : Table tariffSchema)
    (events : List RegisterEvent) :
    ∀ s ∈ (run (registerStep settings) (.initial companies tariffs) events).platform.db.stamps.rows,
      InsertedByChunk settings (.initial companies tariffs) events s.serial := by
  refine run_history (fun past (g : Register) => ∀ s ∈ g.platform.db.stamps.rows,
    InsertedByChunk settings (.initial companies tariffs) past s.serial) (Register.initial companies tariffs)
    (fun s hs => absurd hs List.not_mem_nil) (fun past e ih s hs => ?_) events
  by_cases hknown : s.serial ∈ (run (registerStep settings) (.initial companies tariffs) past).serials
  · obtain ⟨s', hs', hserial⟩ := List.mem_map.mp hknown
    obtain ⟨before, draws, orderId, chunkSize, now, after, rfl, habsent, hpresent⟩ := ih s' hs'
    rw [← hserial]
    exact ⟨before, draws, orderId, chunkSize, now, after ++ [e], by simp, habsent, hpresent⟩
  · obtain ⟨draws, orderId, chunkSize, now, rfl⟩ := registerStep_inserts hs hknown
    refine ⟨past, draws, orderId, chunkSize, now, [], rfl, hknown, ?_⟩
    rw [run_concat]
    exact List.mem_map_of_mem hs

/-- The stamp with a serial has been voided. -/
def Voided (db : Db) (serial : String) : Prop :=
  ∃ s ∈ db.stamps.rows, s.serial = serial ∧ .voided ∈ stampLog db.stampEvents.rows s.id

/-- A voided stamp stays voided. -/
theorem Voided.step {settings : Settings} {db db' : Db} {serial : String} (h : Voided db serial)
    (hstep : StampStep settings db db') : Voided db' serial := by
  obtain ⟨s, hs, hserial, hvoided⟩ := h
  obtain ⟨s', hs', hprint⟩ := hstep.persists hs
  obtain ⟨new, hnew⟩ := hstep.eventsGrow
  refine ⟨s', hs', hprint.serial.trans hserial, ?_⟩
  rw [hprint.id, hnew, stampLog, List.filter_append, List.map_append]
  exact List.mem_append_left _ hvoided

/-- Verification decides authenticity after every run. What it returns is valid exactly for an authentic stamp, which an
issuance of the run has inserted, and it does return for every authentic stamp whose attempt can be recorded. The check
character refuses no inserted serial, and no verification after a stamp has been voided is valid. -/
theorem authenticity_exact (settings : Settings)
    (hinjective : Function.Injective (settings.crypto.hmacSha256 (utf8 settings.deviceHmacSecret)))
    (companies : Table companySchema) (tariffs : Table tariffSchema) (events : List RegisterEvent) :
    let g := run (registerStep settings) (.initial companies tariffs) events
    (∀ draws actor request now,
      (∀ result r', verify settings draws actor request now g.records = .ok (result, r') →
        (result.authentic = true ↔ result.outcome = .valid) ∧
        (result.outcome = .valid ↔ InsertedByChunk settings (.initial companies tariffs) events request.serial ∧
          ∃ stamp, Authentic settings g.records request now stamp)) ∧
      ((∃ result r', verify settings draws actor request now g.records = .ok (result, r') ∧ result.outcome = .valid) ↔
        InsertedByChunk settings (.initial companies tariffs) events request.serial ∧
          ∃ stamp, Authentic settings g.records request now stamp ∧
            Recordable settings draws ⟨actor, request, now, .valid, some stamp⟩ g.records)) ∧
    (∀ stamp ∈ g.platform.db.stamps.rows, isValidSerial stamp.serial = true) ∧
    ∀ stamp ∈ g.platform.db.stamps.rows, .voided ∈ stampLog g.platform.db.stampEvents.rows stamp.id →
      ∀ later draws actor request now result r', request.serial = stamp.serial →
        verify settings draws actor request now (run (registerStep settings) g later).records = .ok (result, r') →
        result.outcome ≠ .valid := by
  intro g
  obtain ⟨hgenuine, hlogged⟩ := stamps_genuine settings companies tariffs events
  have hinserted : ∀ {request now stamp}, Authentic settings g.records request now stamp →
      InsertedByChunk settings (.initial companies tariffs) events request.serial := by
    intro request now stamp hauthentic
    rw [← hauthentic.serial]
    exact inserted_by_chunk settings companies tariffs events stamp hauthentic.inserted
  refine ⟨fun draws actor request now => ⟨fun result r' hverify => ⟨?_, ?_⟩, ?_⟩,
    fun stamp hstamp => (hgenuine stamp hstamp).serial, ?_⟩
  · obtain ⟨outcome, found, -, -, rfl⟩ := verify_ok.mp hverify
    exact decide_eq_true_iff
  · rw [verify_outcome hinjective hgenuine hlogged hverify]
    exact ⟨fun ⟨stamp, h⟩ => ⟨hinserted h, stamp, h⟩, fun ⟨_, h⟩ => h⟩
  · rw [verify_valid_iff hinjective hgenuine hlogged]
    exact ⟨fun ⟨stamp, h⟩ => ⟨hinserted h.1, stamp, h⟩, fun ⟨_, h⟩ => h⟩
  · intro stamp hstamp hvoided later draws actor request now result r' hserial hverify hvalid
    have hstays : Voided (run (registerStep settings) g later).platform.db stamp.serial :=
      run_invariant (fun g : Register => Voided g.platform.db stamp.serial)
        (fun g e h => h.step (registerStep_stampStep settings g e)) g ⟨stamp, hstamp, rfl, hvoided⟩ later
    have hlater := stamps_genuine settings companies tariffs (events ++ later)
    rw [run_append] at hlater
    obtain ⟨found, hauthentic⟩ := (verify_outcome hinjective hlater.1 hlater.2 hverify).mp hvalid
    obtain ⟨s, hs, hs_serial, hs_voided⟩ := hstays
    have hsame : found = s := List.inj_on_of_nodup_map (serials_nodup _) hauthentic.inserted hs
      (by rw [hauthentic.serial, hserial, hs_serial])
    rw [← hsame] at hs_voided
    exact hauthentic.unvoided hs_voided

/-- Settings under whose device secret the keyed hash is injective; it is short on the code of the sample stamp. -/
def authenticSettings : Settings :=
  { sampleSettings with
    crypto :=
      { sampleSettings.crypto with
        hmacSha256 := fun key message =>
          if key = utf8 "device" then
            if message = utf8 "NG-BEV-2026-0000000001-W:BDREF4QHPCFY" then [0] else 1 :: message
          else sampleSettings.crypto.hmacSha256 key message } }

/-- The keyed hash is injective. -/
theorem authenticSettings_injective :
    Function.Injective (authenticSettings.crypto.hmacSha256 (utf8 authenticSettings.deviceHmacSecret)) := by
  intro a b h
  change (if _ = utf8 "NG-BEV-2026-0000000001-W:BDREF4QHPCFY" then [0] else _ :: _) =
    if _ = utf8 "NG-BEV-2026-0000000001-W:BDREF4QHPCFY" then [0] else _ :: _ at h
  split at h <;> rename_i ha <;> split at h <;> rename_i hb
  · rw [ha, hb]
  · exact absurd (List.cons.inj h).1 (by decide)
  · exact absurd (List.cons.inj h).1 (by decide)
  · exact (List.cons.inj h).2

/-- A device presents the sample stamp with its code. -/
def sampleRequest : VerificationRequest where
  serial := "NG-BEV-2026-0000000001-W"
  secureCode := "BDREF4QHPCFY"
  deviceId := "d1"
  nonce := "nonce"

/-- The sample stamp is verified. -/
theorem sampleVerified :
    (match verify authenticSettings (sampleDraws 6) ⟨⟨14⟩, "d1", .device, none, none⟩ sampleRequest sampleNow
      (run (registerStep authenticSettings) (.initial sampleCompanies sampleTariffs) sampleActive).records with
    | .ok (result, _) => decide (result.outcome = .valid)
    | .error _ => false) = true := by
  decide +kernel

/-- The verified sample stamp is authentic. -/
theorem authenticity_exact_sample :
    InsertedByChunk authenticSettings (.initial sampleCompanies sampleTariffs) sampleActive sampleRequest.serial ∧
      ∃ stamp, Authentic authenticSettings
        (run (registerStep authenticSettings) (.initial sampleCompanies sampleTariffs) sampleActive).records
        sampleRequest sampleNow stamp := by
  have hverified := sampleVerified
  split at hverified
  · rename_i result r' hverify
    have hexact := authenticity_exact authenticSettings authenticSettings_injective sampleCompanies sampleTariffs
      sampleActive
    exact ((hexact.1 _ _ _ _).1 result r' hverify).2.mp (of_decide_eq_true hverified)
  · cases hverified

end TaxStamp
