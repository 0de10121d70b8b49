import TaxStamp.FalseAlarms
import TaxStamp.Lifecycle
import TaxStamp.Relay
import TaxStamp.Verification

/-!
# Append-only tables

The first migration lists the tables of record and gives each a trigger that rejects every
UPDATE and DELETE. The code never runs into it: whatever a transaction does, each of these
tables is afterwards what it was, with rows appended. So nothing that was once committed to
the books, the histories or the trail is changed, moved or lost later.
-/

namespace TaxStamp

open Lib

/-- The tables of `APPEND_ONLY_TABLES` have only been appended to. -/
structure Db.Extends (db db' : Db) : Prop where
  auditEvents : db.auditEvents.rows <+: db'.auditEvents.rows
  orderTransitions : db.orderTransitions.rows <+: db'.orderTransitions.rows
  stampEvents : db.stampEvents.rows <+: db'.stampEvents.rows
  ledgerEntries : db.ledgerEntries.rows <+: db'.ledgerEntries.rows
  journals : db.journals.rows <+: db'.journals.rows
  paymentReceipts : db.paymentReceipts.rows <+: db'.paymentReceipts.rows

variable {settings : Settings} {db db' : Db}

/-- A database extends itself. -/
theorem Db.Extends.refl (db : Db) : db.Extends db :=
  ⟨List.prefix_rfl, List.prefix_rfl, List.prefix_rfl, List.prefix_rfl, List.prefix_rfl, List.prefix_rfl⟩

/-- Extensions follow one another. -/
theorem Db.Extends.trans {db'' : Db} (h : db.Extends db') (h' : db'.Extends db'') : db.Extends db'' where
  auditEvents := h.auditEvents.trans h'.auditEvents
  orderTransitions := h.orderTransitions.trans h'.orderTransitions
  stampEvents := h.stampEvents.trans h'.stampEvents
  ledgerEntries := h.ledgerEntries.trans h'.ledgerEntries
  journals := h.journals.trans h'.journals
  paymentReceipts := h.paymentReceipts.trans h'.paymentReceipts

/-! ### One transaction -/

/-- The trail only grows. -/
theorem AuditGrows.isPrefix {rows rows' : List AuditEvent} (h : AuditGrows settings rows rows') : rows <+: rows' := by
  obtain rfl | ⟨event, -, rfl⟩ := h
  · exact List.prefix_rfl
  · exact List.prefix_append rows [event]

/-- The history of the orders only grows. -/
theorem Change.transitionsGrow {s : Platform} {e : Event} (h : Change settings s e db') :
    s.db.orderTransitions.rows <+: db'.orderTransitions.rows := by
  cases h with
  | sameCore _ _ hsame =>
    simp only [hsame.orderTransitions, List.prefix_rfl]
  | submitted compliance draws actor command now key draft compliant O T A hdraft hfresh hO hT => exact ⟨_, hT.symm⟩
  | decided draws actor command now key order P db₁ A horder hid hstatus hrole hsubmitter hfirst hP heffect =>
    cases heffect with
    | rejected O T hdecision hO hT => exact ⟨_, hT.symm⟩
    | recorded => exact List.prefix_rfl
    | opened O T I M hdecision hfull hO hT => exact ⟨_, hT.symm⟩
  | cancelled draws actor orderId reason now order O T A horder hid hmay hlegal hO hT => exact ⟨_, hT.symm⟩
  | ingested _ _ _ _ heffect =>
    cases heffect with
    | settled intent order payloadHash R O T I J E M A hintent hstatus horder hid hawaiting hR hO hT =>
      exact ⟨_, hT.symm⟩
    | _ => exact List.prefix_rfl
  | issued _ _ _ _ _ heffect =>
    cases heffect with
    | chunk order batch base added complete f O T B C S M A horder hid hstatus hbatch hbase hadded hcount hcomplete hf
        hO hT =>
      exact ⟨_, hT.symm⟩
  | inspected _ _ _ _ _ heffect =>
    cases heffect
    exact List.prefix_rfl
  | activated _ _ _ _ _ _ _ _ heffect =>
    cases heffect
    exact List.prefix_rfl
  | retired _ _ heffect =>
    cases heffect
    exact List.prefix_rfl

/-- The books and the receipts only grow. -/
structure Db.KeepsBooks (db db' : Db) : Prop where
  ledgerEntries : db.ledgerEntries.rows <+: db'.ledgerEntries.rows
  journals : db.journals.rows <+: db'.journals.rows
  paymentReceipts : db.paymentReceipts.rows <+: db'.paymentReceipts.rows

/-- A transaction that leaves the books and the receipts alone keeps them. -/
theorem Db.KeepsBooks.of_eq (hE : db'.ledgerEntries = db.ledgerEntries) (hJ : db'.journals = db.journals)
    (hR : db'.paymentReceipts = db.paymentReceipts) : db.KeepsBooks db' := by
  constructor
  · simp only [hE, List.prefix_rfl]
  · simp only [hJ, List.prefix_rfl]
  · simp only [hR, List.prefix_rfl]

/-- Every transaction keeps the books; a remittance is posted by appending. -/
theorem Change.keepsBooks {s : Platform} {e : Event} (h : Change settings s e db') : s.db.KeepsBooks db' := by
  cases h with
  | sameCore _ _ hsame => exact .of_eq hsame.ledgerEntries hsame.journals hsame.paymentReceipts
  | submitted => exact .of_eq rfl rfl rfl
  | decided draws actor command now key order P db₁ A horder hid hstatus hrole hsubmitter hfirst hP heffect =>
    cases heffect <;> exact .of_eq rfl rfl rfl
  | cancelled => exact .of_eq rfl rfl rfl
  | ingested _ _ _ _ heffect =>
    cases heffect with
    | replayed => exact .of_eq rfl rfl rfl
    | unknown payloadHash R A hR => exact ⟨List.prefix_rfl, List.prefix_rfl, ⟨_, hR.symm⟩⟩
    | mismatched intent payloadHash R J E M A hintent hstatus hR hJ hE =>
      exact ⟨⟨_, hE.symm⟩, ⟨_, hJ.symm⟩, ⟨_, hR.symm⟩⟩
    | settled intent order payloadHash R O T I J E M A hintent hstatus horder hid hawaiting hR hO hT hI hJ hE =>
      exact ⟨⟨_, hE.symm⟩, ⟨_, hJ.symm⟩, ⟨_, hR.symm⟩⟩
  | issued _ _ _ _ _ heffect =>
    cases heffect
    exact .of_eq rfl rfl rfl
  | inspected _ _ _ _ _ heffect =>
    cases heffect
    exact .of_eq rfl rfl rfl
  | activated _ _ _ _ _ _ _ _ heffect =>
    cases heffect
    exact .of_eq rfl rfl rfl
  | retired _ _ heffect =>
    cases heffect
    exact .of_eq rfl rfl rfl

/-- Every transaction of a service extends the database. -/
theorem step_extends (settings : Settings) (s : Platform) (e : Event) : s.db.Extends (step settings s e).db := by
  have hchange := step_change settings s e
  have hbooks := hchange.keepsBooks
  obtain ⟨new, hevents⟩ := hchange.stampStep.eventsGrow
  exact {
    auditEvents := (step_auditGrows settings s e).isPrefix
    orderTransitions := hchange.transitionsGrow
    stampEvents := ⟨new, hevents.symm⟩
    ledgerEntries := hbooks.ledgerEntries
    journals := hbooks.journals
    paymentReceipts := hbooks.paymentReceipts }

/-- Every run of the platform extends the database. -/
theorem run_extends (settings : Settings) (s : Platform) (events : List Event) :
    s.db.Extends (run (step settings) s events).db :=
  run_invariant (fun s' : Platform => s.db.Extends s'.db) (fun s' e h => h.trans (step_extends settings s' e)) s
    (.refl s.db) events

/-! ### Verifications and workers -/

/-- The append-only tables, those of the services and the verifications, have only been appended to. -/
structure Records.Extends (r r' : Records) : Prop where
  db : r.db.Extends r'.db
  verifications : r.verifications.rows <+: r'.verifications.rows

/-- A recorded attempt extends the records. -/
theorem recordAttempt_extends (settings : Settings) (draws : Draws) (attempt : VerificationAttempt) (r : Records) :
    r.Extends ((recordAttempt settings draws attempt).commit r) := by
  apply Tx.commit_induction r.Extends
  · exact ⟨.refl r.db, List.prefix_rfl⟩
  · intro u r' h
    obtain ⟨V, event, db', hV, hrecord, rfl⟩ := recordAttempt_ok.mp h
    obtain ⟨A, hA, rfl⟩ := recordAuditEvent_ok hrecord
    have hgrows : AuditGrows settings r.db.auditEvents.rows A.rows := .inr hA
    exact ⟨{ Db.Extends.refl r.db with auditEvents := hgrows.isPrefix }, ⟨_, hV.symm⟩⟩

/-- Every event of the register extends the records. -/
theorem registerStep_extends (settings : Settings) (g : Register) (e : RegisterEvent) :
    g.records.Extends (registerStep settings g e).records := by
  have hkept : g.records.Extends g.records := ⟨.refl g.platform.db, List.prefix_rfl⟩
  cases e with
  | service e => exact ⟨step_extends settings g.platform e, List.prefix_rfl⟩
  | assess actor request now =>
    unfold registerStep
    dsimp only
    split <;> exact hkept
  | record index draws =>
    unfold registerStep
    dsimp only
    split
    · exact hkept
    · rename_i attempt hattempt
      exact recordAttempt_extends settings draws attempt g.records

/-- Every event of the relay extends the database. -/
theorem relayStep_extends (settings : RelaySettings) (s : Relay) (e : RelayEvent) :
    s.platform.db.Extends (relayStep settings s e).platform.db := by
  cases e with
  | service e =>
    unfold relayStep
    dsimp only
    split
    · exact .refl s.platform.db
    · exact step_extends settings.toSettings s.platform e
  | join workerId => exact .refl s.platform.db
  | worker index e =>
    unfold relayStep
    dsimp only
    split
    · exact .refl s.platform.db
    · rename_i w hw
      obtain ⟨events, hrun⟩ := relayOnce_platform settings s.platform w e
      rw [hrun]
      exact run_extends settings.toSettings s.platform events

/-- The append-only triggers never fire. From any content of the database, whatever the services and the verifications
do in any order, and whatever the services and any number of relay workers do in any order, each append-only table is
afterwards what it was with rows appended. -/
theorem append_only_kept :
    (∀ (settings : Settings) (g : Register) (events : List RegisterEvent),
      g.records.Extends (run (registerStep settings) g events).records) ∧
    ∀ (settings : RelaySettings) (s : Relay) (events : List RelayEvent),
      s.platform.db.Extends (run (relayStep settings) s events).platform.db := by
  constructor
  · intro settings g events
    apply run_invariant (fun g' : Register => g.records.Extends g'.records)
    · intro g' e h
      have hstep := registerStep_extends settings g' e
      exact ⟨h.db.trans hstep.db, h.verifications.trans hstep.verifications⟩
    · exact ⟨.refl g.platform.db, List.prefix_rfl⟩
  · intro settings s events
    apply run_invariant (fun s' : Relay => s.platform.db.Extends s'.platform.db)
    · exact fun s' e h => h.trans (relayStep_extends settings s' e)
    · exact .refl s.platform.db

end TaxStamp
