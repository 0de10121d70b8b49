import Mathlib.Data.List.Sublists
import TaxStamp.Lifecycle

/-!
# The event log of a stamp

Activation, expiry, voiding and inspection change the status of a stamp and log one event
for it in the same transaction. Replaying the events of a stamp yields its status and its
times, and the activations that were reported are the activations in the log.
-/

namespace TaxStamp

open Lib

/-- The kinds of the events of a stamp in commit order. -/
def stampLog (events : List StampEvent) (stampId : Uuid) : List StampEventType :=
  (events.filter fun v => v.stampId = stampId).map StampEvent.eventType

/-- The status named by an event. -/
def StampEventType.status : StampEventType → StampStatus
  | .activated => .active
  | .expired => .expired
  | .voided => .void

/-- A log determines a stamp. -/
structure Replays (log : List StampEventType) (stamp : Stamp) : Prop where
  order : log.Sublist [.activated, .expired, .voided]
  status : stamp.status = (log.getLast?.map StampEventType.status).getD .issued
  activatedAt : stamp.activatedAt.isSome ↔ .activated ∈ log
  voidedAt : stamp.voidedAt.isSome ↔ .voided ∈ log

/-- A mark extends the log by its event. -/
theorem Replays.marked {log : List StampEventType} {stamp : Stamp} {now : Time} {f : Stamp → Stamp}
    {kind : StampEventType} {eligible : Stamp → Prop} (h : Replays log stamp) (hmarking : Marking now f kind eligible)
    (heligible : eligible stamp) : Replays (log ++ [kind]) (f stamp) := by
  obtain ⟨horder, hstatus, hactivated, hvoided⟩ := h
  have hlogs : log ∈ List.sublists [StampEventType.activated, .expired, .voided] := List.mem_sublists.mpr horder
  simp only [List.sublists, List.foldr, List.flatMap_cons, List.flatMap_nil, List.append_nil, List.cons_append,
    List.nil_append, List.mem_cons, List.not_mem_nil, or_false] at hlogs
  cases hmarking with
  | activated =>
    change stamp.status = .issued at heligible
    rcases hlogs with rfl | rfl | rfl | rfl | rfl | rfl | rfl | rfl <;>
      simp [hstatus, StampEventType.status] at heligible
    exact ⟨by decide, rfl, by simp [Stamp.activate], by simpa [Stamp.activate] using hvoided⟩
  | voided =>
    change stamp.status ≠ .void at heligible
    rcases hlogs with rfl | rfl | rfl | rfl | rfl | rfl | rfl | rfl <;>
      simp [hstatus, StampEventType.status] at heligible <;>
      exact ⟨by decide, rfl, by simpa [Stamp.void] using hactivated, by simp [Stamp.void]⟩
  | expired =>
    change stamp.status = .issued ∨ stamp.status = .active at heligible
    rcases hlogs with rfl | rfl | rfl | rfl | rfl | rfl | rfl | rfl <;>
      simp [hstatus, StampEventType.status] at heligible <;>
      exact ⟨by decide, rfl, by simpa [Stamp.expire] using hactivated, by simpa [Stamp.expire] using hvoided⟩

/-- Marks add one event to the log of every marked stamp. -/
theorem Marks.stampLog {db : Db} {p : Stamp → Bool} {f : Stamp → Stamp} {kind : StampEventType}
    {S : Table stampSchema} {V : Table stampEventSchema} (h : Marks db p f kind S V) {s : Stamp}
    (hs : s ∈ db.stamps.rows) :
    stampLog V.rows s.id = stampLog db.stampEvents.rows s.id ++ if p s then [kind] else [] := by
  obtain ⟨new, hV, hkind, hperm⟩ := h.events
  have hunique : ((db.stamps.rows.filter p).map Stamp.id).Nodup :=
    (stampIds_nodup db.stamps).sublist (List.filter_sublist.map _)
  have hcount : (new.map StampEvent.stampId).count s.id = if p s then 1 else 0 := by
    rw [hperm.count_eq]
    split
    · rename_i hp
      exact List.count_eq_one_of_mem hunique (List.mem_map_of_mem (List.mem_filter.mpr ⟨hs, hp⟩))
    · rename_i hp
      refine List.count_eq_zero.mpr fun hmem => hp ?_
      obtain ⟨s', hs', hid⟩ := List.mem_map.mp hmem
      obtain ⟨hs', hp'⟩ := List.mem_filter.mp hs'
      rwa [← stamp_eq_of_id hs' hs hid]
  have hnew : TaxStamp.stampLog new s.id = List.replicate ((new.map StampEvent.stampId).count s.id) kind := by
    refine List.eq_replicate_iff.mpr ⟨?_, fun k hk => ?_⟩
    · rw [TaxStamp.stampLog, List.length_map, ← List.countP_eq_length_filter, List.count, List.countP_map]
      refine List.countP_congr fun v _ => ?_
      simp
    · obtain ⟨v, hv, rfl⟩ := List.mem_map.mp hk
      exact hkind v (List.mem_of_mem_filter hv)
  rw [hV, TaxStamp.stampLog, List.filter_append, List.map_append]
  refine congrArg₂ _ rfl (hnew.trans ?_)
  rw [hcount]
  split <;> rfl

/-- Every event belongs to a stamp and every stamp is what its log says. -/
structure StampsLogged (db : Db) : Prop where
  known : ∀ v ∈ db.stampEvents.rows, ∃ s ∈ db.stamps.rows, s.id = v.stampId
  replays : ∀ s ∈ db.stamps.rows, Replays (stampLog db.stampEvents.rows s.id) s

/-- Printing adds stamps without events. -/
theorem StampsLogged.printed {settings : Settings} {db db' : Db} {order : Order} {batchId : Uuid} {now : Time}
    {added : List Stamp} (h : StampsLogged db) (hS : db'.stamps.rows = db.stamps.rows ++ added)
    (hV : db'.stampEvents = db.stampEvents) (hprinted : ∀ s ∈ added, Printed settings order batchId now s) :
    StampsLogged db' := by
  refine ⟨fun v hv => ?_, fun s hs => ?_⟩
  · rw [hV] at hv
    obtain ⟨s, hs, hid⟩ := h.known v hv
    exact ⟨s, by simp [hS, hs], hid⟩
  · have hdistinct := stampIds_nodup db'.stamps
    rw [hS, List.mem_append] at hs
    rw [hV]
    rcases hs with hold | hnew
    · exact h.replays s hold
    · have hempty : stampLog db.stampEvents.rows s.id = [] := by
        rw [stampLog, List.map_eq_nil_iff, List.filter_eq_nil_iff]
        intro v hv hid
        obtain ⟨s', hs', hid'⟩ := h.known v hv
        rw [hS, List.map_append, List.nodup_append] at hdistinct
        refine hdistinct.2.2 _ (List.mem_map_of_mem hs') _ (List.mem_map_of_mem hnew) ?_
        exact hid'.trans (of_decide_eq_true hid)
      rw [hempty]
      obtain ⟨stampId, hprint⟩ := hprinted s hnew
      rw [hprint]
      exact ⟨by simp, rfl, by simp [newStamp], by simp [newStamp]⟩

/-- Marking extends the logs of the marked stamps. -/
theorem StampsLogged.marked {db db' : Db} {now : Time} {p : Stamp → Bool} {f : Stamp → Stamp} {kind : StampEventType}
    {eligible : Stamp → Prop} (h : StampsLogged db) (hmarking : Marking now f kind eligible)
    (heligible : ∀ s ∈ db.stamps.rows, p s = true → eligible s)
    (hmarks : Marks db p f kind db'.stamps db'.stampEvents) : StampsLogged db' := by
  refine ⟨fun v hv => ?_, fun s' hs' => ?_⟩
  · have hold : ∃ s ∈ db.stamps.rows, s.id = v.stampId := by
      obtain ⟨new, hV, -, hperm⟩ := hmarks.events
      rw [hV, List.mem_append] at hv
      rcases hv with hold | hnew
      · exact h.known v hold
      · obtain ⟨s, hs, hid⟩ := List.mem_map.mp (hperm.mem_iff.mp (List.mem_map_of_mem hnew))
        exact ⟨s, List.mem_of_mem_filter hs, hid⟩
    obtain ⟨s, hs, hid⟩ := hold
    rw [hmarks.stamps]
    refine ⟨_, List.mem_map_of_mem hs, Eq.trans ?_ hid⟩
    split
    · exact (hmarking.samePrint s).id
    · rfl
  · rw [hmarks.stamps] at hs'
    obtain ⟨s, hs, rfl⟩ := List.mem_map.mp hs'
    have hreplays := h.replays s hs
    split
    · rename_i hp
      rw [(hmarking.samePrint s).id, hmarks.stampLog hs, if_pos hp]
      exact hreplays.marked hmarking (heligible s hs hp)
    · rename_i hp
      rw [hmarks.stampLog hs, if_neg hp, List.append_nil]
      exact hreplays

/-- Every transaction keeps the log and the stamps together. -/
theorem StampsLogged.step {settings : Settings} {db db' : Db} (h : StampsLogged db) (hstep : StampStep settings db db') :
    StampsLogged db' := by
  cases hstep with
  | same hS hV hC => exact ⟨by rw [hS, hV]; exact h.known, by rw [hS, hV]; exact h.replays⟩
  | marked now p f kind eligible hmarking heligible hmarks hC => exact h.marked hmarking heligible hmarks
  | printed order batchId now added hS hV hclaimed => exact h.printed hS hV hclaimed.printed

/-- The activations in the log. -/
def activatedCount (db : Db) : ℕ := db.stampEvents.rows.countP fun v => v.eventType = .activated

/-- The stamps that a committed activation reports as changed; nothing for any other event. -/
def changedCount (settings : Settings) (s : Platform) : Event → ℕ
  | .activateStamps index draws actor now key =>
    match s.activations[index]? with
    | none => 0
    | some a =>
      match activateStamps settings draws actor a.serials a.statuses now key s.db with
      | .ok (result, _) => BulkResult.changedCount result
      | .error _ => 0
  | _ => 0

/-- The distinct serials of a request repeat none. -/
theorem distinct_nodup (serials : List String) : (distinct serials).Nodup := by
  suffices hfold : ∀ seen : List String, seen.Nodup →
      (serials.foldl (fun seen serial => if serial ∈ seen then seen else seen ++ [serial]) seen).Nodup from
    hfold [] List.nodup_nil
  induction serials with
  | nil => exact fun seen hseen => hseen
  | cons serial rest ih =>
    intro seen hseen
    rw [List.foldl_cons]
    refine ih _ ?_
    split
    · exact hseen
    · rename_i hnew
      exact List.nodup_append.mpr ⟨hseen, List.nodup_singleton serial, fun a ha b hb hab =>
        hnew (List.mem_singleton.mp hb ▸ hab ▸ ha)⟩

/-- A serial is reported as changed exactly when its stamp is not refused. -/
theorem activationOutcome_changed {found : List Stamp} {statuses : BatchStatuses} {now : Time} {serial : String}
    (hunique : (found.map Stamp.serial).Nodup) :
    (activationOutcome found statuses now serial).changed = true ↔
      ∃ s ∈ found, activationRefusal statuses now s = none ∧ s.serial = serial := by
  unfold activationOutcome
  split
  · rename_i hnone
    refine ⟨fun h => absurd h Bool.false_ne_true, ?_⟩
    rintro ⟨s, hs, -, hserial⟩
    have := List.find?_eq_none.mp hnone s hs
    simp [hserial] at this
  · rename_i stamp hfound
    have hstamp := List.mem_of_find?_eq_some hfound
    have hserial : stamp.serial = serial := by simpa using List.find?_some hfound
    split
    · rename_i reason hrefused
      refine ⟨fun h => absurd h Bool.false_ne_true, ?_⟩
      rintro ⟨s, hs, haccepted, hs'⟩
      have hsame : s = stamp := List.inj_on_of_nodup_map hunique hs hstamp (hs'.trans hserial.symm)
      rw [hsame, hrefused] at haccepted
      cases haccepted
    · rename_i haccepted
      exact ⟨fun _ => ⟨stamp, hstamp, haccepted, hserial⟩, fun _ => rfl⟩

/-- An activation reports as many changes as it logs. -/
theorem activateStamps_count {settings : Settings} {draws : Draws} {actor : Actor} {serials : List String}
    {statuses : BatchStatuses} {now : Time} {idempotencyKey : Option String} {result : BulkResult} {db db' : Db}
    (h : activateStamps settings draws actor serials statuses now idempotencyKey db = .ok (result, db')) :
    activatedCount db' = activatedCount db + BulkResult.changedCount result := by
  simp only [activateStamps, Tx.bind_ok, Actor.requireRole_ok, selectAll_ok, Tx.require_ok, updateRows_ok,
    insertRows_ok, Tx.pure_ok] at h
  obtain ⟨-, db₁, ⟨-, rfl⟩, wanted, db₂, hvalidate, found, db₃, ⟨rfl, rfl⟩, -, db₄, ⟨-, rfl⟩, -, db₅,
    ⟨S, hS, rfl⟩, -, db₆, ⟨V, hV, rfl⟩, event, db₇, haudit, rfl, rfl⟩ := h
  obtain ⟨rfl, rfl⟩ := validateSerials_ok hvalidate
  obtain ⟨A, hA, rfl⟩ := recordAuditEvent_ok haudit
  have hunique : ((db.stamps.rows.filter fun s => s.serial ∈ distinct serials).map Stamp.serial).Nodup :=
    (serials_nodup db.stamps).sublist (List.filter_sublist.map _)
  have hperm : ((distinct serials).filter fun serial => (activationOutcome
      (db.stamps.rows.filter fun s => s.serial ∈ distinct serials) statuses now serial).changed).Perm
      (((db.stamps.rows.filter fun s => s.serial ∈ distinct serials).filter fun s =>
        (activationRefusal statuses now s).isNone).map Stamp.serial) := by
    refine (List.perm_ext_iff_of_nodup ((distinct_nodup serials).filter _)
      (hunique.sublist (List.filter_sublist.map _))).mpr fun serial => ?_
    rw [List.mem_filter, activationOutcome_changed hunique]
    simp only [List.mem_map, List.mem_filter, decide_eq_true_eq, Option.isNone_iff_eq_none]
    constructor
    · rintro ⟨-, s, hs, haccepted, hserial⟩
      exact ⟨s, ⟨hs, haccepted⟩, hserial⟩
    · rintro ⟨s, ⟨hs, haccepted⟩, rfl⟩
      exact ⟨hs.2, s, hs, haccepted, rfl⟩
  have hlogged : ∀ stamps : List Stamp,
      (stamps.map fun s => activatedEvent s actor now).countP (fun v => v.eventType = .activated) = stamps.length := by
    intro stamps
    rw [List.countP_map]
    exact List.countP_eq_length.mpr fun s _ => rfl
  have hcount : (((db.stamps.rows.filter fun s => s.serial ∈ distinct serials).filter fun s =>
      (activationRefusal statuses now s).isNone)).length = BulkResult.changedCount ((distinct serials).map
        (activationOutcome (db.stamps.rows.filter fun s => s.serial ∈ distinct serials) statuses now)) := by
    rw [BulkResult.changedCount, List.countP_map, List.countP_eq_length_filter]
    exact ((List.length_map _).symm.trans hperm.length_eq.symm)
  change V.rows.countP _ = db.stampEvents.rows.countP _ + _
  rw [hV, List.countP_append, hlogged, hcount]

/-- No other transaction logs an activation. -/
theorem Change.activatedCount_eq {settings : Settings} {s : Platform} {e : Event} {db' : Db}
    (h : Change settings s e db')
    (hother : ∀ index draws actor now key, e ≠ .activateStamps index draws actor now key) :
    activatedCount db' = activatedCount s.db := by
  have hmarks : ∀ {p f kind} {S : Table stampSchema} {V : Table stampEventSchema}, Marks s.db p f kind S V →
      (kind = .activated → ∀ st ∈ s.db.stamps.rows, ¬p st) →
      V.rows.countP (fun v => v.eventType = .activated) = activatedCount s.db := by
    intro p f kind S V hmarks hnone
    obtain ⟨new, hV, hkind, hperm⟩ := hmarks.events
    have hnew : new.countP (fun v => v.eventType = .activated) = 0 := by
      refine List.countP_eq_zero.mpr fun v hv hactivated => ?_
      have hactivated' := of_decide_eq_true hactivated
      obtain ⟨st, hst, -⟩ := List.mem_map.mp (hperm.mem_iff.mp (List.mem_map_of_mem hv))
      obtain ⟨hst, hp⟩ := List.mem_filter.mp hst
      exact hnone ((hkind v hv).symm.trans hactivated') st hst hp
    rw [hV, List.countP_append, hnew]
    rfl
  cases h with
  | sameCore _ _ hsame => rw [activatedCount, hsame.stampEvents, activatedCount]
  | submitted => rfl
  | decided draws actor command now key order P db₁ A horder hid hstatus hrole hsubmitter hfirst hP heffect =>
    cases heffect <;> rfl
  | cancelled => rfl
  | ingested _ _ _ _ heffect => cases heffect <;> rfl
  | issued _ _ _ _ _ heffect =>
    cases heffect
    rfl
  | inspected _ _ _ _ _ heffect =>
    cases heffect with
    | inspected batch inspection g N S V B A hbatch hstatus hinspection hfirst hN hg hactive hS hB hmarked hA =>
      exact hmarks hmarked fun hkind => by cases hkind
  | activated index draws actor now key => exact absurd rfl (hother index draws actor now key)
  | retired _ _ heffect =>
    cases heffect with
    | changed g S V A hg hactive hS hmarked hA =>
      obtain ⟨now, p, f, kind, eligible, hmarking, heligible, hmarked⟩ := hmarked
      refine hmarks hmarked fun hkind st hst hp => ?_
      -- an activated stamp was issued before, and these transactions make no stamp active
      cases hmarking with
      | voided => cases hkind
      | expired => cases hkind
      | activated =>
        have hissued := heligible st hst hp
        have hrows := hS.symm.trans hmarked.stamps
        have hst' : g st = st.activate now := by
          have := List.map_inj_left.mp hrows st hst
          rwa [if_pos hp] at this
        have := hactive st (by rw [hst']; rfl)
        rw [hissued] at this
        simp at this

/-- Every step logs the activations it reports. -/
theorem step_activatedCount (settings : Settings) (s : Platform) (e : Event) :
    activatedCount (step settings s e).db = activatedCount s.db + changedCount settings s e := by
  cases e with
  | activateStamps index draws actor now key =>
    cases ha : s.activations[index]? with
    | none => simp only [step, changedCount, ha, Nat.add_zero]
    | some a =>
      cases hresult : activateStamps settings draws actor a.serials a.statuses now key s.db with
      | error fault => simp only [step, changedCount, ha, Tx.commit, hresult, Nat.add_zero]
      | ok result =>
        simp only [step, changedCount, ha, Tx.commit, hresult]
        exact activateStamps_count hresult
  | _ =>
    refine (step_change settings s _).activatedCount_eq ?_
    intro index draws actor now key he
    cases he

/-- The log determines the stamps after every run: each stamp replays its events, and the changes that the committed
activations reported are the activations in the log. -/
theorem stamp_log_determines (settings : Settings) (companies : Table companySchema) (tariffs : Table tariffSchema)
    (events : List Event) :
    StampsLogged (run (step settings) (.initial companies tariffs) events).db ∧
      total (step settings) (changedCount settings) (.initial companies tariffs) events =
        activatedCount (run (step settings) (.initial companies tariffs) events).db := by
  constructor
  · refine run_invariant (fun s => StampsLogged s.db) (fun s e h => h.step (step_change settings s e).stampStep) _ ?_ events
    exact ⟨fun _ hv => absurd hv List.not_mem_nil, fun _ hs => absurd hs List.not_mem_nil⟩
  · refine run_history (fun past (s : Platform) => total (step settings) (changedCount settings) (.initial companies tariffs) past =
      activatedCount s.db) (Platform.initial companies tariffs) rfl (fun past e h => ?_) events
    rw [total_concat, h, step_activatedCount]

end TaxStamp
