import TaxStamp.Stocktake

/-!
# Transitions in the audit chain

Every service that moves an order appends to the audit chain in the same transaction,
except the issuer: it commits one transaction per chunk and audits the one that completes
the batch. A chunk that starts an issuance and leaves stamps to print moves its order from
paid to issuing without an audit event.
-/

namespace TaxStamp

open Lib

/-- Every event of the run that inserts a history row also appends to the audit chain. -/
def TransitionsAudited (settings : Settings) (s : Platform) (events : List Event) : Prop :=
  ∀ before e after, events = before ++ e :: after →
    (run (step settings) s before).db.orderTransitions.rows.length <
      (run (step settings) s (before ++ [e])).db.orderTransitions.rows.length →
    (run (step settings) s before).db.auditEvents.rows.length <
      (run (step settings) s (before ++ [e])).db.auditEvents.rows.length

/-- A chunk that starts the issuance of a paid order is as large as the order. -/
def startsWhole (s : Platform) : Event → Prop
  | .issueChunk _ orderId chunkSize _ =>
    ∀ o ∈ s.db.orders.rows, o.id = orderId → o.status = .paid → o.quantity ≤ chunkSize
  | _ => True

instance (s : Platform) (e : Event) : Decidable (startsWhole s e) := by
  unfold startsWhole
  split <;> infer_instance

/-- An audited transaction makes the chain longer. -/
theorem Audited.length_lt {settings : Settings} {rows rows' : List AuditEvent} (h : Audited settings rows rows') :
    rows.length < rows'.length := by
  obtain ⟨event, -, rfl⟩ := h
  rw [List.length_append]
  exact Nat.lt_succ_self _

/-- A chunk without an audit event moves its order only when it starts the issuance and cannot complete it. -/
theorem IssueEffect.audited {settings : Settings} {draws : Draws} {orderId : Uuid} {chunkSize : ℤ} {now : Time}
    {db db' : Db} (heffect : IssueEffect settings draws orderId chunkSize now db db') (h : Stocktake db)
    (hwhole : ∀ o ∈ db.orders.rows, o.id = orderId → o.status = .paid → o.quantity ≤ chunkSize)
    (hinserted : db.orderTransitions.rows.length < db'.orderTransitions.rows.length) :
    db.auditEvents.rows.length < db'.auditEvents.rows.length := by
  cases heffect with
  | chunk order batch base added complete f O T B C S M A horder hid hstatus hbatch hbase hadded hcount hcomplete hf
      hO hT hB hS hM hissued hfresh hclaimed hanchor hA hchunk =>
    change db.orderTransitions.rows.length < T.rows.length at hinserted
    rw [hT, List.length_append] at hinserted
    cases hcase : complete with
    | true =>
      rw [if_pos hcase] at hA
      exact hA.length_lt
    | false =>
      exfalso
      rw [hcase] at hcomplete hinserted
      have hpaid : order.status = .paid := by
        by_contra hne
        simp [issuanceHistory, startHistory, hne] at hinserted
      obtain ⟨hrequested, -, -, -⟩ := h.batch_of_issue horder hstatus hbase
      have hsize := hwhole order horder hid hpaid
      have hnonneg : 0 ≤ stampCount db batch.id := Int.natCast_nonneg _
      have hless : ¬batch.requestedCount ≤ stampCount db batch.id + added.length := fun hle =>
        absurd (hcomplete.mpr hle) (by decide)
      rcases hcount with ⟨hfull, -⟩ | ⟨hpos, -⟩
      · omega
      · rcases hchunk with rfl | hlength
        · cases hpos
        · omega

/-- An event that starts no issuance in part and inserts a history row appends to the audit chain. -/
theorem step_audited {settings : Settings} {s : Platform} (h : Stocktake s.db) (e : Event) (hwhole : startsWhole s e)
    (hinserted : s.db.orderTransitions.rows.length < (step settings s e).db.orderTransitions.rows.length) :
    s.db.auditEvents.rows.length < (step settings s e).db.auditEvents.rows.length := by
  have hchange := step_change settings s e
  generalize (step settings s e).db = db' at hinserted hchange
  cases hchange with
  | sameCore _ _ hsame =>
    rw [hsame.orderTransitions] at hinserted
    exact absurd hinserted (Nat.lt_irrefl _)
  | submitted compliance draws actor command now key draft compliant O T A hdraft hfresh hO hT hA => exact hA.length_lt
  | decided draws actor command now key order P db₁ A horder hid hstatus hrole hsubmitter hfirst hP heffect hA =>
    exact hA.length_lt
  | cancelled draws actor orderId reason now order O T A horder hid hmay hlegal hO hT hA => exact hA.length_lt
  | ingested draws advice now db' heffect =>
    cases heffect with
    | replayed => exact absurd hinserted (Nat.lt_irrefl _)
    | unknown payloadHash R A hR hA => exact hA.length_lt
    | mismatched intent payloadHash R J E M A hintent hstatus hR hJ hE hsupported hM hannounced hA => exact hA.length_lt
    | settled intent order payloadHash R O T I J E M A hintent hstatus horder hid hawaiting hR hO hT hI hJ hE hsupported
        hM hannounced hA => exact hA.length_lt
  | issued draws orderId chunkSize now db' heffect => exact heffect.audited h hwhole hinserted
  | inspected _ _ _ _ _ heffect =>
    cases heffect
    exact absurd hinserted (Nat.lt_irrefl _)
  | activated _ _ _ _ _ _ _ _ heffect =>
    cases heffect
    exact absurd hinserted (Nat.lt_irrefl _)
  | retired _ _ heffect =>
    cases heffect
    exact absurd hinserted (Nat.lt_irrefl _)

/-- Every transition reaches the audit chain in every run in which no issuance of a paid order is started by a
chunk smaller than the order. -/
theorem transitions_audited_of_startsWhole (settings : Settings) (companies : Table companySchema)
    (tariffs : Table tariffSchema) (events : List Event)
    (halong : Along (step settings) startsWhole (.initial companies tariffs) events) :
    TransitionsAudited settings (.initial companies tariffs) events := by
  rintro before e after rfl hinserted
  rw [along_append] at halong
  rw [run_concat] at hinserted ⊢
  exact step_audited (Stocktake.run settings companies tariffs before) e halong.2.1 hinserted

/-- The issuance of the sample order is started and completed by one chunk. -/
theorem transitions_audited_sample :
    Along (step sampleSettings) startsWhole samplePlatform sampleIssued ∧
      TransitionsAudited sampleSettings samplePlatform sampleIssued := by
  have halong : Along (step sampleSettings) startsWhole samplePlatform sampleIssued := by
    decide +kernel
  exact ⟨halong, transitions_audited_of_startsWhole sampleSettings sampleCompanies sampleTariffs _ halong⟩

/-- Two stamps are ordered, approved and paid exactly. -/
def samplePair : List Event :=
  [.submitOrder sampleRegistries (sampleDraws 1) sampleRequester ⟨⟨1⟩, "beverages", 2, "Lagos", "Marina"⟩
      sampleNow none,
    .decideApproval (sampleDraws 2) sampleAnalyst ⟨⟨100⟩, .analyst, .approved, "ok"⟩ sampleNow none,
    sampleRemittance 3 "BANK-1" 2688]

/-- The first chunk of one stamp moves the order to issuing without an audit event. -/
theorem not_transitions_audited :
    ¬TransitionsAudited sampleSettings samplePlatform
      (samplePair ++ [.issueChunk (sampleDraws 4) ⟨100⟩ 1 sampleNow]) := by
  intro h
  have hsilent : (run (step sampleSettings) samplePlatform samplePair).db.orderTransitions.rows.length <
        (run (step sampleSettings) samplePlatform
          (samplePair ++ [.issueChunk (sampleDraws 4) ⟨100⟩ 1 sampleNow])).db.orderTransitions.rows.length ∧
      ¬(run (step sampleSettings) samplePlatform samplePair).db.auditEvents.rows.length <
        (run (step sampleSettings) samplePlatform
          (samplePair ++ [.issueChunk (sampleDraws 4) ⟨100⟩ 1 sampleNow])).db.auditEvents.rows.length := by
    decide +kernel
  exact hsilent.2 (h samplePair (.issueChunk (sampleDraws 4) ⟨100⟩ 1 sampleNow) [] rfl hsilent.1)

end TaxStamp
