import Mathlib.Data.List.Chain
import TaxStamp.Texts

/-!
# Canonical bytes determine the document

The documents that the services build hold texts without surrogates. They are documents
over Python texts like any other, so their canonical text can be read back: two of them with
the same canonical bytes are equal up to the order of their fields.
-/

namespace TaxStamp

open Lib

/-! ### Texts without surrogates -/

/-- A character is a code point that is no surrogate. -/
theorem toNat_cases (c : Char) : c.toNat < 55296 ∨ 57343 < c.toNat ∧ c.toNat < 1114112 := c.valid

/-- The code points of a text. -/
def codes (text : String) : PyText := text.toList.map fun c => ⟨c.toNat, by have := toNat_cases c; omega⟩

/-- A text is determined by its code points. -/
theorem codes_injective : Function.Injective codes := by
  intro a b h
  refine String.toList_inj.mp (List.map_injective_iff.mpr ?_ h)
  intro c d hcd
  exact Char.toNat_inj.mp (Fin.mk.inj hcd)

/-- No character is a surrogate. -/
theorem unpaired_codes (text : String) : Unpaired (codes text) := by
  refine (List.isChain_map _).mpr (List.pairwise_of_forall fun c d hpair => ?_).isChain
  have hvalid := toNat_cases c
  simp only [isHighSurrogate, Bool.and_eq_true, decide_eq_true_eq] at hpair
  omega

/-- A character is escaped as its code point. -/
theorem escapeChar_eq (c : Char) : escapeChar c = escapeCode c.toNat := by
  have hchar : ∀ d : Char, (c = d) = (c.toNat = d.toNat) := fun d => propext Char.toNat_inj.symm
  unfold escapeChar escapeCode
  simp only [hchar, Char.ofNat_toNat]
  rfl

/-- A text is quoted as its code points. -/
theorem quoteText_codes (text : String) : quoteText (codes text) = dumpsStr text := by
  have hescape : escapeChar = fun c => escapeCode c.toNat := funext escapeChar_eq
  rw [quoteText, dumpsStr, codes, List.flatMap_map, hescape]

/-- The code points are in the order of the texts. -/
theorem codes_le {a b : String} : codes a ≤ codes b ↔ codePointsLe a.toList b.toList = true := by
  rw [← not_lt]
  unfold codes
  generalize a.toList = as
  generalize b.toList = bs
  induction as generalizing bs with
  | nil => exact iff_of_true (List.not_lt_nil _) rfl
  | cons c as ih =>
    cases bs with
    | nil => exact iff_of_false (not_not.mpr (List.nil_lt_cons _ _)) Bool.false_ne_true
    | cons d bs =>
      rw [codePointsLe, Bool.or_eq_true, Bool.and_eq_true, decide_eq_true_eq, decide_eq_true_eq, ← ih bs]
      refine (not_congr List.cons_lt_cons_iff).trans ?_
      simp only [Fin.lt_def, Fin.ext_iff, not_or, not_and]
      constructor
      · rintro ⟨hlt, hle⟩
        rcases Nat.lt_trichotomy c.toNat d.toNat with h | h | h
        · exact .inl h
        · exact .inr ⟨h, hle h.symm⟩
        · exact absurd h hlt
      · rintro (h | ⟨h, hle⟩)
        · exact ⟨by omega, fun heq => by omega⟩
        · exact ⟨by omega, fun _ => hle⟩

/-! ### Values -/

mutual

/-- The value with the fields of every object in key order. -/
def Json.sorted : Json → Json
  | .arr items => .arr (Json.sortedItems items)
  | .obj fields =>
    .obj ((Json.sortedFields fields).insertionSort fun a b => codePointsLe a.1.toList b.1.toList = true)
  | value => value

/-- Sort every item of an array. -/
def Json.sortedItems : List Json → List Json
  | [] => []
  | item :: rest => item.sorted :: Json.sortedItems rest

/-- Sort the value of every field of an object. -/
def Json.sortedFields : List (String × Json) → List (String × Json)
  | [] => []
  | (key, item) :: rest => (key, item.sorted) :: Json.sortedFields rest

end

/-- The fields of a sorted object. -/
theorem Json.sorted_obj (fields : List (String × Json)) :
    (Json.obj fields).sorted = .obj ((Json.sortedFields fields).insertionSort fun a b =>
      codePointsLe a.1.toList b.1.toList = true) := rfl

/-- Equal documents up to the order of fields, as dictionaries compare. -/
def Json.Same (v w : Json) : Prop := v.sorted = w.sorted

/-- A property of the leaves that passes from the parts to the whole holds of every value. -/
@[elab_as_elim]
theorem Json.ind {P : Json → Prop} (null : P .null) (bool : ∀ value, P (.bool value)) (int : ∀ value, P (.int value))
    (float : ∀ text, P (.float text)) (str : ∀ value, P (.str value))
    (arr : ∀ items, (∀ item ∈ items, P item) → P (.arr items))
    (obj : ∀ fields, (∀ field ∈ fields, P field.2) → P (.obj fields)) (v : Json) : P v := by
  match v with
  | .null => exact null
  | .bool value => exact bool value
  | .int value => exact int value
  | .float text => exact float text
  | .str value => exact str value
  | .arr items => exact arr items fun item hitem => Json.ind null bool int float str arr obj item
  | .obj fields => exact obj fields fun field hfield => Json.ind null bool int float str arr obj field.2
termination_by v
decreasing_by
  · have := List.sizeOf_lt_of_mem hitem
    simp only [Json.arr.sizeOf_spec]
    omega
  · obtain ⟨key, item⟩ := field
    have := List.sizeOf_lt_of_mem hfield
    simp only [Json.obj.sizeOf_spec, Prod.mk.sizeOf_spec] at *
    omega

mutual

/-- The value as a document over Python texts. -/
def Json.document : Json → Document PyText
  | .null => .null
  | .bool value => .bool value
  | .int value => .int value
  | .float text => .float text.toList
  | .str value => .str (codes value)
  | .arr items => .arr (Json.documentItems items)
  | .obj fields => .obj (Json.documentFields fields)

/-- The items of an array as documents. -/
def Json.documentItems : List Json → List (Document PyText)
  | [] => []
  | item :: rest => item.document :: Json.documentItems rest

/-- The fields of an object as documents. -/
def Json.documentFields : List (String × Json) → List (PyText × Document PyText)
  | [] => []
  | (key, item) :: rest => (codes key, item.document) :: Json.documentFields rest

end

/-- Parts are joined with commas between them. -/
theorem joinCommas_eq (parts : List (List Char)) : joinCommas parts = [','].intercalate parts := by
  induction parts with
  | nil => rfl
  | cons part rest ih =>
    cases rest with
    | nil => simp [joinCommas]
    | cons next rest =>
      rw [List.intercalate_cons_cons, ← ih, joinCommas, List.append_assoc, List.singleton_append]
      intro h
      cases h

/-- Items are taken one by one. -/
theorem Json.documentItems_eq_map (items : List Json) : Json.documentItems items = items.map Json.document := by
  induction items with
  | nil => rfl
  | cons item rest ih => exact congrArg (_ :: ·) ih

/-- Fields are taken one by one. -/
theorem Json.documentFields_eq_map (fields : List (String × Json)) :
    Json.documentFields fields = fields.map fun field => (codes field.1, field.2.document) := by
  induction fields with
  | nil => rfl
  | cons field rest ih =>
    obtain ⟨key, item⟩ := field
    exact congrArg (_ :: ·) ih

/-- Items are sorted one by one. -/
theorem Json.sortedItems_eq_map (items : List Json) : Json.sortedItems items = items.map Json.sorted := by
  induction items with
  | nil => rfl
  | cons item rest ih => exact congrArg (_ :: ·) ih

/-- Fields are sorted one by one. -/
theorem Json.sortedFields_eq_map (fields : List (String × Json)) :
    Json.sortedFields fields = fields.map fun field => (field.1, field.2.sorted) := by
  induction fields with
  | nil => rfl
  | cons field rest ih =>
    obtain ⟨key, item⟩ := field
    exact congrArg (_ :: ·) ih

/-- Items are printed one by one. -/
theorem Json.dumpsItems_eq_map (items : List Json) : Json.dumpsItems items = items.map Json.dumps := by
  induction items with
  | nil => rfl
  | cons item rest ih => exact congrArg (_ :: ·) ih

/-- Fields are printed one by one. -/
theorem Json.dumpsFields_eq_map (fields : List (String × Json)) :
    Json.dumpsFields fields = fields.map fun field => (field.1, field.2.dumps) := by
  induction fields with
  | nil => rfl
  | cons field rest ih =>
    obtain ⟨key, item⟩ := field
    exact congrArg (_ :: ·) ih

/-- A list is determined by its images under a function that tells its elements apart. -/
theorem map_inj_of_mem {α β : Type} {f : α → β} {xs ys : List α} (hf : ∀ x ∈ xs, ∀ y, f x = f y → x = y)
    (h : xs.map f = ys.map f) : xs = ys := by
  induction xs generalizing ys with
  | nil => exact (List.map_eq_nil_iff.mp h.symm).symm
  | cons x xs ih =>
    cases ys with
    | nil => cases h
    | cons y ys =>
      obtain ⟨hhead, htail⟩ := List.cons.inj h
      rw [hf x List.mem_cons_self y hhead, ih (fun x hx => hf x (List.mem_cons_of_mem _ hx)) htail]

/-- Different values are different documents. -/
theorem Json.document_inj (v w : Json) (h : v.document = w.document) : v = w := by
  induction v using Json.ind generalizing w with
  | null => cases w <;> simp_all [Json.document]
  | bool value => cases w <;> simp_all [Json.document]
  | int value => cases w <;> simp_all [Json.document]
  | float text => cases w <;> simp_all [Json.document, String.toList_inj]
  | str value => cases w <;> simp_all [Json.document, codes_injective.eq_iff]
  | arr items ih =>
    cases w with
    | arr items' =>
      rw [Json.document, Json.document, Document.arr.injEq, Json.documentItems_eq_map, Json.documentItems_eq_map] at h
      exact congrArg Json.arr (map_inj_of_mem ih h)
    | _ => simp [Json.document] at h
  | obj fields ih =>
    cases w with
    | obj fields' =>
      rw [Json.document, Json.document, Document.obj.injEq, Json.documentFields_eq_map,
        Json.documentFields_eq_map] at h
      refine congrArg Json.obj (map_inj_of_mem (fun field hfield field' heq => ?_) h)
      obtain ⟨hkey, hitem⟩ := Prod.mk.inj heq
      exact Prod.ext (codes_injective hkey) (ih field hfield field'.2 hitem)
    | _ => simp [Json.document] at h

/-- Sorting a value sorts its document. -/
theorem Json.document_sorted (v : Json) : v.sorted.document = v.document.sorted := by
  induction v using Json.ind with
  | null => rfl
  | bool value => rfl
  | int value => rfl
  | float text => rfl
  | str value => rfl
  | arr items ih =>
    rw [Json.sorted, Json.document, Json.document, Document.sorted, Json.sortedItems_eq_map, Json.documentItems_eq_map,
      Json.documentItems_eq_map, Document.sortedItems_eq_map, List.map_map, List.map_map]
    exact congrArg Document.arr (List.map_congr_left ih)
  | obj fields ih =>
    rw [Json.sorted, Json.document, Json.document, Document.sorted, Json.sortedFields_eq_map,
      Json.documentFields_eq_map, Json.documentFields_eq_map, Document.sortedFields_eq_map, List.map_map]
    have hsort := List.map_insertionSort (fun a b : String × Json => codePointsLe a.1.toList b.1.toList = true)
      (fun a b : PyText × Document PyText => a.1 ≤ b.1) (fun field => (codes field.1, field.2.document))
      (fields.map fun field => (field.1, field.2.sorted)) (fun a _ b _ => codes_le.symm)
    have hfields : (fields.map fun field => (field.1, field.2.sorted)).map (fun field => (codes field.1, field.2.document))
        = fields.map fun field => (codes field.1, field.2.document.sorted) := by
      rw [List.map_map]
      exact List.map_congr_left fun field hfield => congrArg (Prod.mk _) (ih field hfield)
    rw [hsort, hfields]
    rfl

/-- The canonical text is the text of the document. -/
theorem Json.dumps_eq (v : Json) : v.dumps = v.document.dumps quoteText := by
  induction v using Json.ind with
  | null => rfl
  | bool value => cases value <;> rfl
  | int value => rfl
  | float text => rfl
  | str value => exact (quoteText_codes value).symm
  | arr items ih =>
    rw [Json.dumps, Json.document, Document.dumps, Document.sorted, Document.print, joinCommas_eq,
      Document.printItems_eq_map, Document.sortedItems_eq_map, Json.dumpsItems_eq_map, Json.documentItems_eq_map,
      List.map_map, List.map_map, List.map_congr_left ih]
    rfl
  | obj fields ih =>
    -- Both sort the fields by their keys; what they sort along with the keys differs.
    have hdumps := List.map_insertionSort (fun a b : String × Json => codePointsLe a.1.toList b.1.toList = true)
      (fun a b : String × List Char => codePointsLe a.1.toList b.1.toList = true)
      (fun field => (field.1, field.2.dumps)) fields (fun a _ b _ => Iff.rfl)
    have hsorted := List.map_insertionSort (fun a b : String × Json => codePointsLe a.1.toList b.1.toList = true)
      (fun a b : PyText × Document PyText => a.1 ≤ b.1) (fun field => (codes field.1, field.2.document.sorted)) fields
      (fun a _ b _ => codes_le.symm)
    rw [Json.dumps, Json.document, Document.dumps, Document.sorted, Document.print, joinCommas_eq,
      Document.printFields_eq_map, Document.sortedFields_eq_map, Json.dumpsFields_eq_map, Json.documentFields_eq_map,
      List.map_map, sortFields]
    change '{' :: [','].intercalate (List.map _ (List.insertionSort _ _)) ++ ['}'] =
      '{' :: [','].intercalate (List.map _ (List.insertionSort _ (List.map (fun field : String × Json =>
        (codes field.1, field.2.document.sorted)) fields))) ++ ['}']
    rw [← hdumps, ← hsorted, List.map_map, List.map_map]
    refine congrArg (fun parts => '{' :: [','].intercalate parts ++ ['}']) (List.map_congr_left fun field hfield => ?_)
    have hitem := ih field ((List.mem_insertionSort _).mp hfield)
    simp only [Function.comp_apply, quoteText_codes, hitem]
    rfl

/-- A float in an array is in one of its items. -/
theorem Json.occursItem_eq_any (items : List Json) :
    Json.occursItem Json.isFloat items = items.any fun item => item.occurs Json.isFloat := by
  induction items with
  | nil => simp [Json.occursItem]
  | cons item rest ih => simp [Json.occursItem, ih]

/-- A float in an object is in one of its values. -/
theorem Json.occursField_eq_any (fields : List (String × Json)) :
    Json.occursField Json.isFloat fields = fields.any fun field => field.2.occurs Json.isFloat := by
  induction fields with
  | nil => simp [Json.occursField]
  | cons field rest ih =>
    obtain ⟨key, item⟩ := field
    simp [Json.occursField, Json.isFloat, ih]

/-- A value without floats is a plain document. -/
theorem Json.document_plain {v : Json} (hv : v.occurs Json.isFloat = false) :
    v.document.All (Document.Plain Unpaired) := by
  induction v using Json.ind with
  | null => exact fun w hw => by cases hw; trivial
  | bool value => exact fun w hw => by cases hw; trivial
  | int value => exact fun w hw => by cases hw; trivial
  | float text => simp [Json.occurs, Json.isFloat] at hv
  | str value => exact fun w hw => by cases hw; exact unpaired_codes value
  | arr items ih =>
    refine .arr trivial fun item hitem => ?_
    rw [Json.documentItems_eq_map] at hitem
    obtain ⟨old, hold, rfl⟩ := List.mem_map.mp hitem
    refine ih old hold ?_
    rw [Json.occurs, Bool.or_eq_false_iff, Json.occursItem_eq_any, List.any_eq_false] at hv
    simpa using hv.2 old hold
  | obj fields ih =>
    have hmem : ∀ field ∈ Json.documentFields fields, ∃ old ∈ fields, (codes old.1, old.2.document) = field := by
      intro field hfield
      rw [Json.documentFields_eq_map] at hfield
      exact List.mem_map.mp hfield
    refine .obj (fun field hfield => ?_) fun field hfield => ?_
    · obtain ⟨old, -, rfl⟩ := hmem field hfield
      exact unpaired_codes old.1
    · obtain ⟨old, hold, rfl⟩ := hmem field hfield
      refine ih old hold ?_
      rw [Json.occurs, Bool.or_eq_false_iff, Json.occursField_eq_any, List.any_eq_false] at hv
      simpa using hv.2 old hold

/-! ### Bytes -/

/-- ASCII texts with the same bytes are the same. -/
theorem asciiBytes_inj {a b : List Char} (ha : IsAscii a) (hb : IsAscii b) (h : asciiBytes a = asciiBytes b) : a = b := by
  induction a generalizing b with
  | nil => exact (List.map_eq_nil_iff.mp h.symm).symm
  | cons c a ih =>
    cases b with
    | nil => cases h
    | cons d b =>
      rw [asciiBytes, asciiBytes, List.map_cons, List.map_cons, List.cons.injEq] at h
      have hc := ha c List.mem_cons_self
      have hd := hb d List.mem_cons_self
      have hbyte : c.toNat = d.toNat := by
        have := congrArg UInt8.toNat h.1
        rw [UInt8.toNat_ofNat', UInt8.toNat_ofNat'] at this
        omega
      rw [Char.toNat_inj.mp hbyte, ih (fun c hc => ha c (List.mem_cons_of_mem _ hc))
        (fun c hc => hb c (List.mem_cons_of_mem _ hc)) h.2]

/-- Values that are the same have the same canonical text. -/
theorem Json.Same.dumps_eq {v w : Json} (h : v.Same w) : v.dumps = w.dumps := by
  rw [Json.dumps_eq, Json.dumps_eq, Document.dumps, Document.dumps, ← Json.document_sorted, ← Json.document_sorted, h]

/-- The canonical text of a value without floats is ASCII. -/
theorem Json.isAscii_dumps {v : Json} (hv : v.occurs Json.isFloat = false) : IsAscii v.dumps := by
  rw [Json.dumps_eq]
  exact Document.print_isAscii isAscii_quoteText _ (Document.all_plain_sorted (Json.document_plain hv))

/-- Documents with the same canonical bytes are equal up to the order of fields. -/
theorem canonicalBytes_same {d d' : JsonObject} {bytes : Bytes} (h : canonicalBytes d = .ok bytes)
    (h' : canonicalBytes d' = .ok bytes) : (Json.obj d).Same (Json.obj d') := by
  have hread : ∀ {d : JsonObject}, canonicalBytes d = .ok bytes →
      (Json.obj d).occurs Json.isFloat = false ∧ asciiBytes (Json.obj d).dumps = bytes := by
    intro d h
    unfold canonicalBytes at h
    split at h
    · cases h
    · rename_i hexact
      exact ⟨by simpa using hexact, Except.ok.inj h⟩
  obtain ⟨hexact, hbytes⟩ := hread h
  obtain ⟨hexact', hbytes'⟩ := hread h'
  have htext := asciiBytes_inj (Json.isAscii_dumps hexact) (Json.isAscii_dumps hexact') (hbytes.trans hbytes'.symm)
  rw [Json.dumps_eq, Json.dumps_eq] at htext
  have hsorted := Document.sorted_eq_of_dumps quotes_unpaired (Json.document_plain hexact) (Json.document_plain hexact')
    htext
  rw [← Json.document_sorted, ← Json.document_sorted] at hsorted
  exact Json.document_inj _ _ hsorted

/-! ### Digests -/

/-- The two digits of a byte are read back. -/
theorem hexByte_readable :
    Readable fun byte : UInt8 => [byte.toNat / 16, byte.toNat % 16].map Nat.digitChar := by
  intro a b r s h
  simp only [List.map_cons, List.map_nil, List.cons_append, List.nil_append, List.cons.injEq] at h
  obtain ⟨hhigh, hlow, hrest⟩ := h
  have ha := a.toNat_lt
  have hb := b.toNat_lt
  have hhigh' := congrArg digitValue hhigh
  have hlow' := congrArg digitValue hlow
  rw [digitValue_digitChar (by omega), digitValue_digitChar (by omega)] at hhigh' hlow'
  exact ⟨UInt8.toNat_inj.mp (by omega), hrest⟩

/-- Different digests have different texts. -/
theorem hexText_injective : Function.Injective hexText := by
  intro a b h
  have hend : ∀ p : Char → Prop, Ends p [] := fun p c hc => by cases hc
  refine (hexByte_readable.flatMap (fun byte => by simp) (hend _) (hend _) ?_).1
  rw [List.append_nil, List.append_nil]
  exact String.ofList_injective h

end TaxStamp
