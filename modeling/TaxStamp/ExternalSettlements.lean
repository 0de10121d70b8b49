import TaxStamp.Lib.Groups
import TaxStamp.Reconciliation

/-!
# External settlements

Exports of settled transfers are compared with the locally settled intents, one provider at
a time. The rows of a provider are grouped by reference and the first row of each group is
compared with the local settlement.
-/

namespace TaxStamp

open Lib

/-- The systems that settle. -/
inductive SettlementProvider
  | tigerbeetle
  | mojaloop
  deriving DecidableEq, Repr

/-- The stored text of a provider. -/
def SettlementProvider.value : SettlementProvider → String
  | tigerbeetle => "tigerbeetle"
  | mojaloop => "mojaloop"

/-- The state of a transfer. -/
inductive SettlementState
  | settled
  | pending
  | failed
  deriving DecidableEq, Repr

/-- The stored text of a state. -/
def SettlementState.value : SettlementState → String
  | settled => "settled"
  | pending => "pending"
  | failed => "failed"

/-- What a locally settled intent expects. -/
structure ExpectedSettlement where
  reference : String
  amountMinor : ℤ
  currency : String
  deriving DecidableEq, Repr

/-- A row of an export. That the currency consists of letters plays no part. -/
structure ExternalSettlement where
  provider : SettlementProvider
  reference : String
  externalId : String
  amountMinor : ℤ
  currency : String
  state : SettlementState
  identified : reference ≠ "" ∧ externalId ≠ ""
  positive : 0 < amountMinor
  coded : currency.length = 3
  deriving DecidableEq

/-- What the comparison reports. -/
structure ExternalFinding where
  kind : String
  count : ℕ
  detail : JsonObject

/-- Report what was found, when there is any, with its first fifty entries. -/
def ExternalFinding.ofFound (kind field : String) (found : List Json) : List ExternalFinding :=
  if found.isEmpty then [] else [⟨kind, found.length, [(field, .arr (found.take 50))]⟩]

/-- The expected settlement of a reference; the last one counts. -/
def expectedByReference (expected : List ExpectedSettlement) (reference : String) : Option ExpectedSettlement :=
  expected.reverse.find? fun item => item.reference = reference

/-- What the comparison of the groups has found so far. -/
structure Comparison where
  unknown : List Json
  mismatches : List Json
  nonSettled : List Json

/-- The first row differs from the local settlement in amount or currency. -/
def differs (item : ExpectedSettlement) (settlement : ExternalSettlement) : Bool :=
  item.amountMinor ≠ settlement.amountMinor || item.currency ≠ settlement.currency

/-- Compare the first row of a group with the local settlement of its reference. -/
def compareGroup (expected : List ExpectedSettlement) (found : Comparison) (group : String × List ExternalSettlement) :
    Comparison :=
  match group.2.head? with
  | none => found
  | some settlement =>
    match expectedByReference expected group.1 with
    | none =>
      { found with
        unknown := found.unknown ++
          [.obj [("reference", .str group.1), ("external_id", .str settlement.externalId)]] }
    | some item =>
      let found := if differs item settlement then
          { found with
            mismatches := found.mismatches ++ [.obj [("reference", .str group.1),
              ("expected_minor", .int item.amountMinor), ("observed_minor", .int settlement.amountMinor),
              ("expected_currency", .str item.currency), ("observed_currency", .str settlement.currency)]] }
        else found
      if settlement.state ≠ .settled then
        { found with
          nonSettled := found.nonSettled ++
            [.obj [("reference", .str group.1), ("state", .str settlement.state.value)]] }
      else found

/-- Compare the rows of one provider. -/
def reconcileProvider (expected : List ExpectedSettlement) (provider : SettlementProvider)
    (settlements : List ExternalSettlement) : List ExternalFinding :=
  let references := groups ExternalSettlement.reference settlements
  let duplicates := (references.filter fun group => 1 < group.2.length).map Prod.fst
  let found := references.foldl (compareGroup expected) ⟨[], [], []⟩
  let missing := ((expected.map ExpectedSettlement.reference).dedup.filter fun reference =>
    reference ∉ references.map Prod.fst).insertionSort fun a b => codePointsLe a.toList b.toList = true
  ExternalFinding.ofFound s!"{provider.value}_duplicate_reference" "references" (duplicates.map .str) ++
    ExternalFinding.ofFound s!"{provider.value}_unknown_reference" "settlements" found.unknown ++
    ExternalFinding.ofFound s!"{provider.value}_amount_or_currency_mismatch" "settlements" found.mismatches ++
    ExternalFinding.ofFound s!"{provider.value}_state_mismatch" "settlements" found.nonSettled ++
    ExternalFinding.ofFound s!"{provider.value}_missing_external_settlement" "references" (missing.map .str)

/-- Compare settlement exports with the locally settled intents. -/
def reconcileExternalSettlements (expected : List ExpectedSettlement) (observed : List ExternalSettlement)
    (providers : Option (List SettlementProvider)) : List ExternalFinding :=
  let observedByProvider := groups ExternalSettlement.provider observed
  let providersToCheck := providers.getD (observedByProvider.map Prod.fst)
  providersToCheck.flatMap fun provider =>
    reconcileProvider expected provider ((observedByProvider.lookup provider).getD [])

/-! ### What is counted -/

/-- A kind and a count are reported. -/
def Reports (findings : List ExternalFinding) (kind : String) (count : ℕ) : Prop :=
  ∃ f ∈ findings, f.kind = kind ∧ f.count = count

/-- The ways in which a provider and the local intents disagree. -/
inductive Discrepancy
  | duplicate
  | unknown
  | mismatch
  | state
  | missing
  deriving DecidableEq

/-- The kind under which a discrepancy of a provider is reported. -/
def Discrepancy.kind (provider : SettlementProvider) : Discrepancy → String
  | duplicate => s!"{provider.value}_duplicate_reference"
  | unknown => s!"{provider.value}_unknown_reference"
  | mismatch => s!"{provider.value}_amount_or_currency_mismatch"
  | state => s!"{provider.value}_state_mismatch"
  | missing => s!"{provider.value}_missing_external_settlement"

/-- Every discrepancy of every provider has a kind of its own. -/
theorem Discrepancy.kind_inj {provider provider' : SettlementProvider} {d d' : Discrepancy}
    (h : d.kind provider = d'.kind provider') : provider = provider' ∧ d = d' := by
  revert h
  cases provider <;> cases provider' <;> cases d <;> cases d' <;> decide

section Counts

variable (expected : List ExpectedSettlement)

/-- No local settlement has the reference. -/
def unknownTo (settlement : ExternalSettlement) : Bool := (expectedByReference expected settlement.reference).isNone

/-- The row differs from its local settlement in amount or currency. -/
def mismatched (settlement : ExternalSettlement) : Bool :=
  (expectedByReference expected settlement.reference).any fun item => differs item settlement

/-- The row has a local settlement but is not settled. -/
def unsettled (settlement : ExternalSettlement) : Bool :=
  (expectedByReference expected settlement.reference).isSome && settlement.state ≠ .settled

/-- How often a discrepancy is found among the rows of a provider. -/
def Discrepancy.count (rows : List ExternalSettlement) : Discrepancy → ℕ
  | duplicate => (keysOf ExternalSettlement.reference rows).countP fun reference =>
      1 < (rowsOf ExternalSettlement.reference reference rows).length
  | unknown => firstCount ExternalSettlement.reference (unknownTo expected) rows
  | mismatch => firstCount ExternalSettlement.reference (mismatched expected) rows
  | state => firstCount ExternalSettlement.reference (unsettled expected) rows
  | missing => (expected.map ExpectedSettlement.reference).dedup.countP fun reference =>
      reference ∉ keysOf ExternalSettlement.reference rows

end Counts

variable {expected : List ExpectedSettlement} {observed rows : List ExternalSettlement} {provider : SettlementProvider}

/-- Whether the first row of a group has no local settlement. -/
def groupUnknown (expected : List ExpectedSettlement) (group : String × List ExternalSettlement) : Bool :=
  group.2.head?.any fun _ => (expectedByReference expected group.1).isNone

/-- Whether the first row of a group differs from its local settlement. -/
def groupMismatched (expected : List ExpectedSettlement) (group : String × List ExternalSettlement) : Bool :=
  group.2.head?.any fun settlement => (expectedByReference expected group.1).any fun item => differs item settlement

/-- Whether the first row of a group has a local settlement but is not settled. -/
def groupUnsettled (expected : List ExpectedSettlement) (group : String × List ExternalSettlement) : Bool :=
  group.2.head?.any fun settlement =>
    (expectedByReference expected group.1).isSome && settlement.state ≠ .settled

/-- A group adds one entry to each list whose condition it meets. -/
theorem compareGroup_lengths (found : Comparison) (group : String × List ExternalSettlement) :
    (compareGroup expected found group).unknown.length =
        found.unknown.length + (if groupUnknown expected group then 1 else 0) ∧
      (compareGroup expected found group).mismatches.length =
        found.mismatches.length + (if groupMismatched expected group then 1 else 0) ∧
      (compareGroup expected found group).nonSettled.length =
        found.nonSettled.length + (if groupUnsettled expected group then 1 else 0) := by
  unfold compareGroup groupUnknown groupMismatched groupUnsettled
  cases group.2.head? with
  | none => simp
  | some settlement =>
    cases expectedByReference expected group.1 with
    | none => simp
    | some item =>
      by_cases hdiffers : differs item settlement = true <;> by_cases hstate : settlement.state = .settled <;>
        simp [hdiffers, hstate]

/-- The lists count the groups that meet their conditions. -/
theorem foldl_compareGroup_lengths (found : Comparison) (table : List (String × List ExternalSettlement)) :
    (table.foldl (compareGroup expected) found).unknown.length =
        found.unknown.length + table.countP (groupUnknown expected) ∧
      (table.foldl (compareGroup expected) found).mismatches.length =
        found.mismatches.length + table.countP (groupMismatched expected) ∧
      (table.foldl (compareGroup expected) found).nonSettled.length =
        found.nonSettled.length + table.countP (groupUnsettled expected) := by
  induction table generalizing found with
  | nil => simp
  | cons group table ih =>
    obtain ⟨hunknown, hmismatches, hstates⟩ := @compareGroup_lengths expected found group
    obtain ⟨ihunknown, ihmismatches, ihstates⟩ := ih (compareGroup expected found group)
    rw [List.foldl_cons, ihunknown, ihmismatches, ihstates, hunknown, hmismatches, hstates, List.countP_cons,
      List.countP_cons, List.countP_cons]
    omega

/-- What was found is reported with its number when there is any. -/
theorem reports_ofFound {kind kind' field : String} {found : List Json} {n : ℕ} :
    Reports (ExternalFinding.ofFound kind field found) kind' n ↔ kind' = kind ∧ n = found.length ∧ 0 < n := by
  cases found with
  | nil =>
    refine iff_of_false (fun h => ?_) fun h => ?_
    · obtain ⟨f, hf, -⟩ := h
      cases hf
    · obtain ⟨-, rfl, hpos⟩ := h
      exact Nat.lt_irrefl 0 hpos
  | cons item found =>
    constructor
    · intro h
      obtain ⟨f, hf, hkind, hcount⟩ := h
      obtain rfl := List.mem_singleton.mp hf
      exact ⟨hkind.symm, hcount.symm, hcount ▸ Nat.succ_pos _⟩
    · intro h
      obtain ⟨rfl, rfl, -⟩ := h
      exact ⟨_, List.mem_singleton_self _, rfl, rfl⟩

/-- Findings are reported in any of their parts. -/
theorem reports_append {left right : List ExternalFinding} {kind : String} {n : ℕ} :
    Reports (left ++ right) kind n ↔ Reports left kind n ∨ Reports right kind n := by
  simp only [Reports, List.mem_append, or_and_right, exists_or]

/-- There are five discrepancies. -/
theorem Discrepancy.exists_iff {P : Discrepancy → Prop} :
    (∃ d, P d) ↔ P .duplicate ∨ P .unknown ∨ P .mismatch ∨ P .state ∨ P .missing := by
  constructor
  · intro h
    obtain ⟨d, hd⟩ := h
    cases d with
    | duplicate => exact .inl hd
    | unknown => exact .inr (.inl hd)
    | mismatch => exact .inr (.inr (.inl hd))
    | state => exact .inr (.inr (.inr (.inl hd)))
    | missing => exact .inr (.inr (.inr (.inr hd)))
  · rintro (hd | hd | hd | hd | hd) <;> exact ⟨_, hd⟩

/-- The groups of a provider's rows have the keys of the rows. -/
theorem groups_keys (rows : List ExternalSettlement) :
    (groups ExternalSettlement.reference rows).map Prod.fst = keysOf ExternalSettlement.reference rows := by
  rw [groups_eq, List.map_map]
  exact List.map_id _

/-- A provider's discrepancies are reported with their numbers. -/
theorem reports_reconcileProvider {kind : String} {n : ℕ} :
    Reports (reconcileProvider expected provider rows) kind n ↔
      ∃ d : Discrepancy, kind = d.kind provider ∧ n = d.count expected rows ∧ 0 < n := by
  obtain ⟨hunknown, hmismatches, hstates⟩ :=
    @foldl_compareGroup_lengths expected ⟨[], [], []⟩ (groups ExternalSettlement.reference rows)
  have hduplicates : ((groups ExternalSettlement.reference rows).filter fun group => 1 < group.2.length).length =
      Discrepancy.duplicate.count expected rows := by
    rw [← List.countP_eq_length_filter, groups_eq, List.countP_map]
    rfl
  have hunknown' := hunknown.trans ((Nat.zero_add _).trans (countP_groups (p := unknownTo expected)
    (fun _ _ _ => rfl) fun _ => rfl))
  have hmismatches' := hmismatches.trans ((Nat.zero_add _).trans (countP_groups (p := mismatched expected)
    (fun _ _ _ => rfl) fun _ => rfl))
  have hstates' := hstates.trans ((Nat.zero_add _).trans (countP_groups (p := unsettled expected)
    (fun _ _ _ => rfl) fun _ => rfl))
  have hmissing : (((expected.map ExpectedSettlement.reference).dedup.filter fun reference =>
      reference ∉ (groups ExternalSettlement.reference rows).map Prod.fst).insertionSort fun a b =>
        codePointsLe a.toList b.toList = true).length = Discrepancy.missing.count expected rows := by
    rw [List.length_insertionSort, ← List.countP_eq_length_filter, groups_keys]
    rfl
  rw [reconcileProvider, Discrepancy.exists_iff]
  simp only [reports_append, reports_ofFound, List.length_map _, hduplicates, hunknown', hmismatches', hstates', hmissing,
    or_assoc]
  rfl

/-- The discrepancies of every listed provider are reported with their numbers. -/
theorem reports_iff {providers : List SettlementProvider} {kind : String} {n : ℕ} :
    Reports (reconcileExternalSettlements expected observed (some providers)) kind n ↔
      ∃ provider ∈ providers, ∃ d : Discrepancy, kind = d.kind provider ∧
        n = d.count expected (rowsOf ExternalSettlement.provider provider observed) ∧ 0 < n := by
  have hprovider : ∀ provider, Reports (reconcileProvider expected provider
      (((groups ExternalSettlement.provider observed).lookup provider).getD [])) kind n ↔
        ∃ d : Discrepancy, kind = d.kind provider ∧
          n = d.count expected (rowsOf ExternalSettlement.provider provider observed) ∧ 0 < n := by
    intro provider
    rw [lookup_groups]
    exact reports_reconcileProvider
  simp only [← hprovider, reconcileExternalSettlements, Option.getD_some, Reports, List.mem_flatMap]
  constructor
  · intro h
    obtain ⟨f, ⟨provider, hprovider, hf⟩, hmatch⟩ := h
    exact ⟨provider, hprovider, f, hf, hmatch⟩
  · intro h
    obtain ⟨provider, hprovider, f, hf, hmatch⟩ := h
    exact ⟨f, ⟨provider, hprovider, hf⟩, hmatch⟩

/-- Nothing is found exactly when no discrepancy of a listed provider occurs. -/
theorem reconcile_eq_nil_iff {providers : List SettlementProvider} :
    reconcileExternalSettlements expected observed (some providers) = [] ↔
      ∀ provider ∈ providers, ∀ d : Discrepancy,
        d.count expected (rowsOf ExternalSettlement.provider provider observed) = 0 := by
  constructor
  · intro hclean provider hprovider d
    by_contra hpos
    obtain ⟨f, hf, -⟩ := reports_iff.mpr ⟨provider, hprovider, d, rfl, rfl, Nat.pos_of_ne_zero hpos⟩
    rw [hclean] at hf
    cases hf
  · intro hzero
    by_contra hfound
    obtain ⟨f, hf⟩ := List.exists_mem_of_ne_nil _ hfound
    obtain ⟨provider, hprovider, d, -, hcount, hpos⟩ := reports_iff.mp ⟨f, hf, rfl, rfl⟩
    rw [hcount, hzero provider hprovider d] at hpos
    exact Nat.lt_irrefl 0 hpos

/-! ### Agreement -/

/-- A provider's rows are the expected settlements, each of them once. -/
structure Agrees (expected : List ExpectedSettlement) (rows : List ExternalSettlement) : Prop where
  distinct : (rows.map ExternalSettlement.reference).Nodup
  references : ∀ reference, reference ∈ rows.map ExternalSettlement.reference ↔
    reference ∈ expected.map ExpectedSettlement.reference
  settled : ∀ row ∈ rows, ∃ item ∈ expected, item.reference = row.reference ∧ item.amountMinor = row.amountMinor ∧
    item.currency = row.currency ∧ row.state = .settled

/-- The expected settlement of a reference is one with that reference. -/
theorem expectedByReference_some {reference : String} {item : ExpectedSettlement}
    (h : expectedByReference expected reference = some item) : item ∈ expected ∧ item.reference = reference := by
  unfold expectedByReference at h
  have hreference := List.find?_some h
  exact ⟨List.mem_reverse.mp (List.mem_of_find?_eq_some h), of_decide_eq_true hreference⟩

/-- A reference without an expected settlement is not expected. -/
theorem expectedByReference_none {reference : String} :
    expectedByReference expected reference = none ↔ reference ∉ expected.map ExpectedSettlement.reference := by
  rw [expectedByReference, List.find?_eq_none, List.mem_map]
  simp

/-- With distinct references the expected settlement is the one with the reference. -/
theorem expectedByReference_mem (hdistinct : (expected.map ExpectedSettlement.reference).Nodup) {item : ExpectedSettlement}
    (hitem : item ∈ expected) : expectedByReference expected item.reference = some item := by
  cases hfind : expectedByReference expected item.reference with
  | none => exact absurd (List.mem_map_of_mem hitem) (expectedByReference_none.mp hfind)
  | some other =>
    obtain ⟨hother, hreference⟩ := expectedByReference_some hfind
    rw [List.inj_on_of_nodup_map hdistinct hother hitem hreference]

/-- A local settlement that does not differ has the amount and the currency of the row. -/
theorem differs_eq_false {item : ExpectedSettlement} {settlement : ExternalSettlement} :
    differs item settlement = false ↔ item.amountMinor = settlement.amountMinor ∧ item.currency = settlement.currency := by
  rw [differs, Bool.or_eq_false_iff, decide_eq_false_iff_not, decide_eq_false_iff_not, not_not, not_not]

/-- No reference occurs twice exactly when no duplicate is counted. -/
theorem duplicate_count_eq_zero :
    Discrepancy.duplicate.count expected rows = 0 ↔ (rows.map ExternalSettlement.reference).Nodup := by
  rw [nodup_map_iff, Discrepancy.count, List.countP_eq_zero]
  exact forall₂_congr fun reference _ => by rw [decide_eq_true_eq, not_lt]

/-- Nothing is missing exactly when every expected reference occurs. -/
theorem missing_count_eq_zero : Discrepancy.missing.count expected rows = 0 ↔
    ∀ reference ∈ expected.map ExpectedSettlement.reference, reference ∈ rows.map ExternalSettlement.reference := by
  have hkeys : ∀ reference, reference ∈ keysOf ExternalSettlement.reference rows ↔
      reference ∈ rows.map ExternalSettlement.reference := fun reference => mem_keysOf.trans List.mem_map.symm
  rw [Discrepancy.count, List.countP_eq_zero]
  constructor
  · intro h reference hreference
    exact (hkeys reference).mp (not_not.mp fun hnew => h reference (List.mem_dedup.mpr hreference) (decide_eq_true hnew))
  · intro h reference hreference hnew
    exact of_decide_eq_true hnew ((hkeys reference).mpr (h reference (List.mem_dedup.mp hreference)))

/-- No discrepancy occurs exactly when the rows agree with distinct expected settlements. -/
theorem counts_eq_zero_iff (hdistinct : (expected.map ExpectedSettlement.reference).Nodup) :
    (∀ d : Discrepancy, d.count expected rows = 0) ↔ Agrees expected rows := by
  constructor
  · intro hzero
    have hnodup := duplicate_count_eq_zero.mp (hzero .duplicate)
    have hknown := (firstCount_eq_zero hnodup).mp (hzero .unknown)
    have hsame := (firstCount_eq_zero hnodup).mp (hzero .mismatch)
    have hsettled := (firstCount_eq_zero hnodup).mp (hzero .state)
    have hrow : ∀ row ∈ rows, ∃ item ∈ expected, item.reference = row.reference ∧ item.amountMinor = row.amountMinor ∧
        item.currency = row.currency ∧ row.state = .settled := by
      intro row hrow
      cases hfind : expectedByReference expected row.reference with
      | none =>
        have hunknown := hknown row hrow
        rw [unknownTo, hfind] at hunknown
        cases hunknown
      | some item =>
        obtain ⟨hitem, hreference⟩ := expectedByReference_some hfind
        have hdiffers := hsame row hrow
        have hstate := hsettled row hrow
        rw [mismatched, hfind, Option.any_some] at hdiffers
        rw [unsettled, hfind, Option.isSome_some, Bool.true_and, decide_eq_false_iff_not, not_not] at hstate
        obtain ⟨hamount, hcurrency⟩ := differs_eq_false.mp hdiffers
        exact ⟨item, hitem, hreference, hamount, hcurrency, hstate⟩
    refine ⟨hnodup, fun reference => ⟨fun hreference => ?_, missing_count_eq_zero.mp (hzero .missing) reference⟩, hrow⟩
    obtain ⟨row, hmem, rfl⟩ := List.mem_map.mp hreference
    obtain ⟨item, hitem, hreference, -⟩ := hrow row hmem
    exact hreference ▸ List.mem_map_of_mem hitem
  · intro hagrees d
    have hfind : ∀ row ∈ rows, ∃ item, expectedByReference expected row.reference = some item ∧
        differs item row = false ∧ row.state = .settled := by
      intro row hrow
      obtain ⟨item, hitem, hreference, hamount, hcurrency, hstate⟩ := hagrees.settled row hrow
      refine ⟨item, ?_, differs_eq_false.mpr ⟨hamount, hcurrency⟩, hstate⟩
      rw [← hreference]
      exact expectedByReference_mem hdistinct hitem
    cases d with
    | duplicate => exact duplicate_count_eq_zero.mpr hagrees.distinct
    | unknown =>
      refine (firstCount_eq_zero hagrees.distinct).mpr fun row hrow => ?_
      obtain ⟨item, hitem, -⟩ := hfind row hrow
      rw [unknownTo, hitem]
      rfl
    | mismatch =>
      refine (firstCount_eq_zero hagrees.distinct).mpr fun row hrow => ?_
      obtain ⟨item, hitem, hsame, -⟩ := hfind row hrow
      rw [mismatched, hitem]
      exact hsame
    | state =>
      refine (firstCount_eq_zero hagrees.distinct).mpr fun row hrow => ?_
      obtain ⟨item, hitem, -, hstate⟩ := hfind row hrow
      rw [unsettled, hitem, hstate]
      rfl
    | missing => exact missing_count_eq_zero.mpr fun reference => (hagrees.references reference).mpr

/-- The comparison is clean exactly when every listed provider agrees. -/
theorem reconcileExternalSettlements_clean_iff (expected : List ExpectedSettlement)
    (hdistinct : (expected.map ExpectedSettlement.reference).Nodup) (observed : List ExternalSettlement)
    (providers : List SettlementProvider) :
    reconcileExternalSettlements expected observed (some providers) = [] ↔
      ∀ provider ∈ providers, Agrees expected (observed.filter fun row => row.provider = provider) := by
  rw [reconcile_eq_nil_iff]
  exact forall₂_congr fun provider _ => counts_eq_zero_iff hdistinct

/-- A local settlement. -/
def sampleExpected : ExpectedSettlement := ⟨"PAY-001", 12500, "NGN"⟩

/-- A row of an export for it. -/
def sampleExported (provider : SettlementProvider) (state : SettlementState) : ExternalSettlement where
  provider := provider
  reference := "PAY-001"
  externalId := "transfer-001"
  amountMinor := 12500
  currency := "NGN"
  state := state
  identified := by decide
  positive := by decide
  coded := by decide

/-- Another local settlement. -/
def sampleExpectedLater : ExpectedSettlement := ⟨"PAY-002", 800, "NGN"⟩

/-- A row of an export for the other settlement. -/
def sampleExportedLater (provider : SettlementProvider) : ExternalSettlement where
  provider := provider
  reference := "PAY-002"
  externalId := "transfer-002"
  amountMinor := 800
  currency := "NGN"
  state := .settled
  identified := by decide
  positive := by decide
  coded := by decide

/-- Both providers export both local settlements, in different orders. -/
theorem reconcileExternalSettlements_clean_pair :
    reconcileExternalSettlements [sampleExpected, sampleExpectedLater]
      [sampleExported .tigerbeetle .settled, sampleExportedLater .mojaloop, sampleExported .mojaloop .settled,
        sampleExportedLater .tigerbeetle] (some [.tigerbeetle, .mojaloop]) = [] := by
  refine (reconcileExternalSettlements_clean_iff [sampleExpected, sampleExpectedLater] (by decide) _ _).mpr
    fun provider _ => ?_
  have hperm : ([sampleExported .tigerbeetle .settled, sampleExportedLater .mojaloop, sampleExported .mojaloop .settled,
      sampleExportedLater .tigerbeetle].filter fun row => row.provider = provider).Perm
        [sampleExported provider .settled, sampleExportedLater provider] := by
    cases provider with
    | tigerbeetle => exact .refl _
    | mojaloop => exact .swap _ _ _
  have hreferences := hperm.map ExternalSettlement.reference
  refine ⟨hreferences.nodup_iff.mpr (by cases provider <;> decide), fun reference => ?_, fun row hrow => ?_⟩
  · rw [hreferences.mem_iff]
    rfl
  · rcases List.mem_pair.mp (hperm.mem_iff.mp hrow) with hfirst | hlater
    · rw [hfirst]
      exact ⟨sampleExpected, by decide, rfl, rfl, rfl, rfl⟩
    · rw [hlater]
      exact ⟨sampleExpectedLater, by decide, rfl, rfl, rfl, rfl⟩

/-- What the settled intents expect. -/
def expectedSettlements (db : Db) : List ExpectedSettlement :=
  (db.paymentIntents.rows.filter fun intent => intent.status = .settled).map fun intent =>
    ⟨intent.reference, intent.amountMinor, intent.currency⟩

/-- The findings of the comparison as those of a reconciliation. -/
def externalSettlementFindings (db : Db) (snapshots : List ExternalSettlement) (providers : List SettlementProvider) :
    List Finding :=
  (reconcileExternalSettlements (expectedSettlements db) snapshots (some providers)).map fun finding =>
    ⟨finding.kind, finding.count, finding.detail⟩

/-- Intents have distinct references. -/
theorem nodup_expectedSettlements (db : Db) : ((expectedSettlements db).map ExpectedSettlement.reference).Nodup := by
  have hdistinct : (db.paymentIntents.rows.map PaymentIntent.reference).Nodup := by
    refine List.pairwise_map.mpr (db.paymentIntents.valid.distinct.imp fun {a b} hclash heq => ?_)
    exact of_decide_eq_false hclash (.inr (.inr heq))
  have hmap : (expectedSettlements db).map ExpectedSettlement.reference =
      (db.paymentIntents.rows.filter fun intent => intent.status = .settled).map PaymentIntent.reference := by
    rw [expectedSettlements, List.map_map]
    rfl
  rw [hmap]
  exact hdistinct.sublist (List.filter_sublist.map _)

/-- A reconciliation reports nothing about the listed providers exactly when their exports agree with the settled
intents. -/
theorem externalSettlementFindings_eq_nil_iff (db : Db) (snapshots : List ExternalSettlement)
    (providers : List SettlementProvider) :
    externalSettlementFindings db snapshots providers = [] ↔
      ∀ provider ∈ providers, Agrees (expectedSettlements db) (rowsOf ExternalSettlement.provider provider snapshots) := by
  rw [externalSettlementFindings, List.map_eq_nil_iff, reconcile_eq_nil_iff]
  exact forall₂_congr fun provider _ => counts_eq_zero_iff (nodup_expectedSettlements db)

/-! ### The order of an export -/

/-- The comparison reports the same kinds with the same numbers in whatever order the rows stand, and in every order
reports each row that disagrees with its local settlement. -/
def OrderFree (expected : List ExpectedSettlement) (observed : List ExternalSettlement)
    (providers : List SettlementProvider) : Prop :=
  ∀ observed', observed.Perm observed' →
    (∀ kind n, Reports (reconcileExternalSettlements expected observed' (some providers)) kind n ↔
      Reports (reconcileExternalSettlements expected observed (some providers)) kind n) ∧
    ∀ row ∈ observed, row.provider ∈ providers → ∀ item, expectedByReference expected row.reference = some item →
      (differs item row = true → ∃ n, Reports (reconcileExternalSettlements expected observed' (some providers))
        (Discrepancy.mismatch.kind row.provider) n) ∧
      (row.state ≠ .settled → ∃ n, Reports (reconcileExternalSettlements expected observed' (some providers))
        (Discrepancy.state.kind row.provider) n)

/-- The rows that a listed provider exports for one local settlement all agree with it or all disagree, and all of them
are settled or none is. -/
def Uniform (expected : List ExpectedSettlement) (observed : List ExternalSettlement)
    (providers : List SettlementProvider) : Prop :=
  ∀ a ∈ observed, ∀ b ∈ observed, a.provider ∈ providers → a.provider = b.provider → a.reference = b.reference →
    ∀ item, expectedByReference expected a.reference = some item →
      (differs item a = differs item b) ∧ (a.state = .settled ↔ b.state = .settled)

section Order

variable {observed' : List ExternalSettlement} {providers : List SettlementProvider} {a b : ExternalSettlement}

/-- Uniform rows of one reference count alike as mismatches. -/
theorem Uniform.mismatched (h : Uniform expected observed providers) (hprovider : provider ∈ providers) :
    ∀ a ∈ rowsOf ExternalSettlement.provider provider observed,
      ∀ b ∈ rowsOf ExternalSettlement.provider provider observed, a.reference = b.reference →
        TaxStamp.mismatched expected a = TaxStamp.mismatched expected b := by
  intro a ha b hb hreference
  obtain ⟨hmem, rfl⟩ := mem_rowsOf.mp ha
  obtain ⟨hmem', hsame⟩ := mem_rowsOf.mp hb
  rw [TaxStamp.mismatched, TaxStamp.mismatched, ← hreference]
  cases hfind : expectedByReference expected a.reference with
  | none => rfl
  | some item => exact (h a hmem b hmem' hprovider hsame.symm hreference item hfind).1

/-- Uniform rows of one reference count alike by their state. -/
theorem Uniform.unsettled (h : Uniform expected observed providers) (hprovider : provider ∈ providers) :
    ∀ a ∈ rowsOf ExternalSettlement.provider provider observed,
      ∀ b ∈ rowsOf ExternalSettlement.provider provider observed, a.reference = b.reference →
        TaxStamp.unsettled expected a = TaxStamp.unsettled expected b := by
  intro a ha b hb hreference
  obtain ⟨hmem, rfl⟩ := mem_rowsOf.mp ha
  obtain ⟨hmem', hsame⟩ := mem_rowsOf.mp hb
  rw [TaxStamp.unsettled, TaxStamp.unsettled, ← hreference]
  cases hfind : expectedByReference expected a.reference with
  | none => rfl
  | some item =>
    have hstate := (h a hmem b hmem' hprovider hsame.symm hreference item hfind).2
    simp only [Option.isSome_some, Bool.true_and, ne_eq, decide_not, hstate]

/-- The numbers of uniform rows do not depend on their order. -/
theorem Uniform.count_eq (h : Uniform expected observed providers) (hperm : observed.Perm observed')
    (hprovider : provider ∈ providers) (d : Discrepancy) :
    d.count expected (rowsOf ExternalSettlement.provider provider observed) =
      d.count expected (rowsOf ExternalSettlement.provider provider observed') := by
  have hrows : (rowsOf ExternalSettlement.provider provider observed).Perm
      (rowsOf ExternalSettlement.provider provider observed') := hperm.filter _
  cases d with
  | duplicate =>
    rw [Discrepancy.count, Discrepancy.count, (keysOf_perm hrows).countP_eq]
    refine List.countP_congr fun reference _ => ?_
    have hlength : (rowsOf ExternalSettlement.reference reference
        (rowsOf ExternalSettlement.provider provider observed)).length =
          (rowsOf ExternalSettlement.reference reference
            (rowsOf ExternalSettlement.provider provider observed')).length := (hrows.filter _).length_eq
    rw [hlength]
  | unknown =>
    refine firstCount_perm (fun a _ b _ hreference => ?_) hrows
    rw [unknownTo, unknownTo, hreference]
  | mismatch => exact firstCount_perm (h.mismatched hprovider) hrows
  | state => exact firstCount_perm (h.unsettled hprovider) hrows
  | missing =>
    refine List.countP_congr fun reference _ => ?_
    rw [decide_eq_true_eq, decide_eq_true_eq, (keysOf_perm hrows).mem_iff]

/-- In an order-free comparison the numbers of a listed provider are the same for both orders. -/
theorem OrderFree.count_eq (h : OrderFree expected observed providers) (hprovider : provider ∈ providers)
    {first second : List ExternalSettlement} (hfirst : observed.Perm first) (hsecond : observed.Perm second)
    (d : Discrepancy) : d.count expected (rowsOf ExternalSettlement.provider provider first) =
      d.count expected (rowsOf ExternalSettlement.provider provider second) := by
  have hle : ∀ {first second : List ExternalSettlement}, observed.Perm first → observed.Perm second →
      0 < d.count expected (rowsOf ExternalSettlement.provider provider first) →
        d.count expected (rowsOf ExternalSettlement.provider provider first) =
          d.count expected (rowsOf ExternalSettlement.provider provider second) := by
    intro first second hfirst hsecond hpos
    have hreported := reports_iff.mpr ⟨provider, hprovider, d, rfl, rfl, hpos⟩
    obtain ⟨provider', -, d', hkind, hcount, -⟩ :=
      reports_iff.mp (((h second hsecond).1 _ _).mpr (((h first hfirst).1 _ _).mp hreported))
    obtain ⟨rfl, rfl⟩ := Discrepancy.kind_inj hkind
    exact hcount
  rcases Nat.eq_zero_or_pos (d.count expected (rowsOf ExternalSettlement.provider provider first)) with hzero | hpos
  · rcases Nat.eq_zero_or_pos (d.count expected (rowsOf ExternalSettlement.provider provider second)) with hzero' | hpos
    · rw [hzero, hzero']
    · exact (hle hsecond hfirst hpos).symm
  · exact hle hfirst hsecond hpos

/-- Two rows may be brought to the front in either order. -/
theorem perm_front (ha : a ∈ observed) (hb : b ∈ observed) (hne : a ≠ b) :
    ∃ rest, observed.Perm (a :: b :: rest) ∧ observed.Perm (b :: a :: rest) := by
  have hb' : b ∈ observed.erase a := (List.mem_erase_of_ne hne.symm).mpr hb
  have hperm : observed.Perm (a :: b :: (observed.erase a).erase b) :=
    (List.perm_cons_erase ha).trans ((List.perm_cons_erase hb').cons a)
  exact ⟨_, hperm, hperm.trans (.swap b a _)⟩

/-- In an order-free comparison two rows of one reference are counted alike. -/
theorem OrderFree.agree (h : OrderFree expected observed providers) (ha : a ∈ observed) (hb : b ∈ observed)
    (hprovider : a.provider ∈ providers) (hsame : a.provider = b.provider) (hreference : a.reference = b.reference)
    {d : Discrepancy} {p : ExternalSettlement → Bool}
    (hcount : ∀ rows, d.count expected rows = firstCount ExternalSettlement.reference p rows) : p a = p b := by
  by_contra hdiffers
  obtain ⟨rest, hfirst, hsecond⟩ := perm_front ha hb fun heq => hdiffers (heq ▸ rfl)
  have hcounts := h.count_eq hprovider hfirst hsecond d
  have hfront : ∀ x y : ExternalSettlement, x.provider = a.provider → y.provider = a.provider →
      rowsOf ExternalSettlement.provider a.provider (x :: y :: rest) =
        x :: y :: rowsOf ExternalSettlement.provider a.provider rest := by
    intro x y hx hy
    simp [rowsOf, hx, hy]
  rw [hfront a b rfl hsame.symm, hfront b a hsame.symm rfl, hcount, hcount] at hcounts
  exact firstCount_swap hreference hdiffers _ hcounts

/-- A row that disagrees is counted in every order of uniform rows. -/
theorem Uniform.reports (h : Uniform expected observed providers) (hperm : observed.Perm observed') (ha : a ∈ observed)
    (hprovider : a.provider ∈ providers) {d : Discrepancy} {p : ExternalSettlement → Bool}
    (hcount : ∀ rows, d.count expected rows = firstCount ExternalSettlement.reference p rows) (hp : p a = true)
    (huniform : ∀ b ∈ rowsOf ExternalSettlement.provider a.provider observed, a.reference = b.reference → p a = p b) :
    ∃ n, Reports (reconcileExternalSettlements expected observed' (some providers)) (d.kind a.provider) n := by
  have hmem : a ∈ rowsOf ExternalSettlement.provider a.provider observed := mem_rowsOf.mpr ⟨ha, rfl⟩
  have hpos : 0 < d.count expected (rowsOf ExternalSettlement.provider a.provider observed) := by
    rw [hcount]
    exact firstCount_pos hmem fun b hb hreference => (huniform b hb hreference) ▸ hp
  rw [h.count_eq hperm hprovider] at hpos
  exact ⟨_, reports_iff.mpr ⟨a.provider, hprovider, d, rfl, rfl, hpos⟩⟩

end Order

/-- The comparison does not depend on the order of the export exactly when the rows of each local settlement are
uniform. -/
theorem reconcileExternalSettlements_orderFree_iff (expected : List ExpectedSettlement)
    (observed : List ExternalSettlement) (providers : List SettlementProvider) :
    OrderFree expected observed providers ↔ Uniform expected observed providers := by
  constructor
  · intro h a ha b hb hprovider hsame hreference item hfind
    have hmismatched := h.agree ha hb hprovider hsame hreference (d := .mismatch) (p := mismatched expected) fun _ => rfl
    have hunsettled := h.agree ha hb hprovider hsame hreference (d := .state) (p := unsettled expected) fun _ => rfl
    rw [mismatched, mismatched, ← hreference, hfind] at hmismatched
    rw [unsettled, unsettled, ← hreference, hfind] at hunsettled
    exact ⟨hmismatched, by simpa using hunsettled⟩
  · intro h observed' hperm
    have hrows : ∀ {row}, row ∈ observed → row ∈ rowsOf ExternalSettlement.provider row.provider observed :=
      fun hrow => mem_rowsOf.mpr ⟨hrow, rfl⟩
    refine ⟨fun kind n => ?_, fun row hrow hprovider item hfind => ⟨fun hdiffers => ?_, fun hstate => ?_⟩⟩
    · rw [reports_iff, reports_iff]
      refine exists_congr fun provider => and_congr_right fun hprovider => exists_congr fun d => ?_
      rw [h.count_eq hperm hprovider d]
    · refine h.reports hperm hrow hprovider (p := mismatched expected) (fun _ => rfl) ?_ fun b hb hreference =>
        h.mismatched hprovider row (hrows hrow) b hb hreference
      rw [mismatched, hfind]
      exact hdiffers
    · refine h.reports hperm hrow hprovider (p := unsettled expected) (fun _ => rfl) ?_ fun b hb hreference =>
        h.unsettled hprovider row (hrows hrow) b hb hreference
      rw [unsettled, hfind]
      simpa using hstate

/-- A settled and a pending row for one reference: only the first of them is compared. -/
theorem not_reconcileExternalSettlements_orderFree :
    ¬∀ (expected : List ExpectedSettlement) (observed : List ExternalSettlement) (providers : List SettlementProvider),
      OrderFree expected observed providers := by
  intro h
  have hfree := h [sampleExpected] [sampleExported .tigerbeetle .pending, sampleExported .tigerbeetle .settled] [.tigerbeetle]
    [sampleExported .tigerbeetle .settled, sampleExported .tigerbeetle .pending] (.swap ..)
  have hreported : Reports (reconcileExternalSettlements [sampleExpected]
      [sampleExported .tigerbeetle .pending, sampleExported .tigerbeetle .settled] (some [.tigerbeetle]))
        "tigerbeetle_state_mismatch" 1 := by
    exact ⟨_, List.mem_cons_of_mem _ List.mem_cons_self, rfl, rfl⟩
  obtain ⟨f, hf, hkind, -⟩ := (hfree.1 _ _).mpr hreported
  obtain rfl := List.mem_singleton.mp hf
  exact absurd hkind (by decide)

end TaxStamp
