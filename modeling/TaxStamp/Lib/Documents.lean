import Mathlib.Data.List.Lex
import Mathlib.Data.List.Sort
import TaxStamp.Lib.Reading

/-!
# JSON documents

A document is a tree of arrays and objects over a type of texts. It is printed without
blanks; the fields of every object are printed in key order. When the texts can be read back
from their quoted form, so can the whole document: numbers end where a separator stands, and
arrays and objects are closed by their brackets. A printed document therefore determines the
value, which does not depend on the order of fields.
-/

namespace TaxStamp.Lib

/-- A JSON value. A float keeps only its printed text. -/
inductive Document (τ : Type)
  | null
  | bool (value : Bool)
  | int (value : ℤ)
  | float (text : List Char)
  | str (value : τ)
  | arr (items : List (Document τ))
  | obj (fields : List (τ × Document τ))

namespace Document

variable {τ : Type}

/-! ### Values inside a value -/

/-- The value occurs in another one, at some depth. -/
inductive Part : Document τ → Document τ → Prop
  | self (v : Document τ) : Part v v
  | item (v item : Document τ) (items : List (Document τ)) (hitem : item ∈ items) (h : Part v item) :
      Part v (.arr items)
  | field (v : Document τ) (field : τ × Document τ) (fields : List (τ × Document τ)) (hfield : field ∈ fields)
      (h : Part v field.2) : Part v (.obj fields)

/-- The property holds of every value that occurs. -/
def All (P : Document τ → Prop) (v : Document τ) : Prop := ∀ w, Part w v → P w

section All

variable {P : Document τ → Prop} {v : Document τ} {items : List (Document τ)} {fields : List (τ × Document τ)}

/-- It holds of the value. -/
theorem All.self (h : All P v) : P v := h v (.self v)

/-- It holds inside the items of an array. -/
theorem All.item (h : All P (.arr items)) {item : Document τ} (hitem : item ∈ items) : All P item :=
  fun w hw => h w (.item w item items hitem hw)

/-- It holds inside the fields of an object. -/
theorem All.field (h : All P (.obj fields)) {field : τ × Document τ} (hfield : field ∈ fields) : All P field.2 :=
  fun w hw => h w (.field w field fields hfield hw)

/-- It holds everywhere in an array when it holds of the array and inside its items. -/
theorem All.arr (harr : P (.arr items)) (h : ∀ item ∈ items, All P item) : All P (.arr items) := by
  intro w hw
  cases hw with
  | self => exact harr
  | item item _ hitem hw => exact h item hitem w hw

/-- It holds everywhere in an object when it holds of the object and inside its fields. -/
theorem All.obj (hobj : P (.obj fields)) (h : ∀ field ∈ fields, All P field.2) : All P (.obj fields) := by
  intro w hw
  cases hw with
  | self => exact hobj
  | field field _ hfield hw => exact h field hfield w hw

end All

/-- A property of the leaves that passes from the parts to the whole holds of every value. -/
@[elab_as_elim]
theorem ind {P : Document τ → Prop} (null : P .null) (bool : ∀ value, P (.bool value)) (int : ∀ value, P (.int value))
    (float : ∀ text, P (.float text)) (str : ∀ value, P (.str value))
    (arr : ∀ items, (∀ item ∈ items, P item) → P (.arr items))
    (obj : ∀ fields, (∀ field ∈ fields, P field.2) → P (.obj fields)) (v : Document τ) : P v := by
  match v with
  | .null => exact null
  | .bool value => exact bool value
  | .int value => exact int value
  | .float text => exact float text
  | .str value => exact str value
  | .arr items => exact arr items fun item hitem => ind null bool int float str arr obj item
  | .obj fields => exact obj fields fun field hfield => ind null bool int float str arr obj field.2
termination_by v
decreasing_by
  · have := List.sizeOf_lt_of_mem hitem
    simp only [Document.arr.sizeOf_spec]
    omega
  · obtain ⟨key, item⟩ := field
    have := List.sizeOf_lt_of_mem hfield
    simp only [Document.obj.sizeOf_spec, Prod.mk.sizeOf_spec] at *
    omega

/-! ### The text of a value -/

section Print

variable (quote : τ → List Char)

mutual

/-- The text of a value with its fields in the order in which they stand. -/
def print : Document τ → List Char
  | .null => "null".toList
  | .bool true => "true".toList
  | .bool false => "false".toList
  | .int value => (toString value).toList
  | .float text => text
  | .str value => quote value
  | .arr items => '[' :: [','].intercalate (printItems items) ++ [']']
  | .obj fields => '{' :: [','].intercalate (printFields fields) ++ ['}']

/-- The text of every item of an array. -/
def printItems : List (Document τ) → List (List Char)
  | [] => []
  | item :: rest => print item :: printItems rest

/-- The text of every field of an object. -/
def printFields : List (τ × Document τ) → List (List Char)
  | [] => []
  | (key, item) :: rest => (quote key ++ ':' :: print item) :: printFields rest

end

/-- Items are printed one by one. -/
theorem printItems_eq_map (items : List (Document τ)) : printItems quote items = items.map (print quote) := by
  induction items with
  | nil => rfl
  | cons item rest ih => exact congrArg (_ :: ·) ih

/-- Fields are printed one by one. -/
theorem printFields_eq_map (fields : List (τ × Document τ)) :
    printFields quote fields = fields.map fun field => quote field.1 ++ ':' :: field.2.print quote := by
  induction fields with
  | nil => rfl
  | cons field rest ih =>
    obtain ⟨key, item⟩ := field
    exact congrArg (_ :: ·) ih

end Print

end Document

/-! ### Numbers -/

/-- The characters of a printed number. -/
def isNumeral (c : Char) : Bool := c.isDigit || c = '-'

/-- A printed natural number consists of digits. -/
theorem isDigit_of_mem_repr {n : ℕ} {c : Char} (h : c ∈ n.repr.toList) : c.isDigit = true := by
  rw [Nat.toList_repr] at h
  exact Nat.isDigit_of_mem_toDigits (by decide) (by decide) h

/-- A printed number consists of numerals. -/
theorem isNumeral_of_mem_toString {i : ℤ} {c : Char} (h : c ∈ (toString i).toList) : isNumeral c = true := by
  rw [Int.toString_eq_repr, Int.repr_eq_if] at h
  split at h
  · simp [isNumeral, isDigit_of_mem_repr h]
  · rw [String.toList_append, List.mem_append] at h
    rcases h with hsign | hdigit
    · obtain rfl : c = '-' := by simpa using hsign
      rfl
    · simp [isNumeral, isDigit_of_mem_repr hdigit]

/-- A printed number is not empty. -/
theorem toString_ne_nil (i : ℤ) : (toString i).toList ≠ [] := by
  intro h
  rw [String.toList_eq_nil_iff, Int.toString_eq_repr, Int.repr_eq_if] at h
  split at h
  · exact Nat.repr_ne_empty h
  · simp at h

/-- Different integers print differently. -/
theorem intText_injective : Function.Injective fun i : ℤ => toString i := by
  intro a b h
  simp only [Int.toString_eq_repr, Int.repr_eq_if] at h
  have hsign : ∀ m n : ℕ, "-" ++ m.repr ≠ n.repr := by
    intro m n heq
    have hmem : '-' ∈ n.repr.toList := by simp [← heq]
    exact absurd (isDigit_of_mem_repr hmem) (by decide)
  split at h <;> split at h
  · have := repr_injective h
    omega
  · exact absurd h.symm (hsign _ _)
  · exact absurd h (hsign _ _)
  · have := repr_injective (String.append_right_inj "-" |>.mp h)
    omega

/-! ### ASCII parts -/

/-- A text of ASCII characters. -/
def IsAscii (text : List Char) : Prop := ∀ c ∈ text, c.toNat < 128

instance : DecidablePred IsAscii := fun text => List.decidableBAll (fun c : Char => c.toNat < 128) text

/-- A printed number is ASCII. -/
theorem isAscii_toString (i : ℤ) : IsAscii (toString i).toList := by
  intro c hc
  have hnumeral := isNumeral_of_mem_toString hc
  simp only [isNumeral, Bool.or_eq_true, decide_eq_true_eq, Char.isDigit_iff_toNat] at hnumeral
  rcases hnumeral with hdigit | rfl
  · exact Nat.lt_of_le_of_lt hdigit.2 (by decide)
  · decide

/-- ASCII parts in ASCII brackets are ASCII. -/
theorem IsAscii.bracketed {text : List Char} (h : IsAscii text) {left right : Char} (hleft : left.toNat < 128)
    (hright : right.toNat < 128) : IsAscii (left :: text ++ [right]) := by
  intro c hc
  simp only [List.mem_append, List.mem_cons, List.not_mem_nil, or_false] at hc
  rcases hc with (rfl | hc) | rfl
  · exact hleft
  · exact h c hc
  · exact hright

/-! ### Separators -/

/-- The characters that may follow a value. -/
def isSeparator (c : Char) : Bool := c = ',' || c = ']' || c = '}'

/-- The text is empty or goes on with a separator. -/
def Closed (text : List Char) : Prop := ∀ c ∈ text.head?, isSeparator c = true

/-- A separator closes. -/
theorem Closed.cons {c : Char} (h : isSeparator c = true) (rest : List Char) : Closed (c :: rest) := by
  intro d hd
  obtain rfl : c = d := by simpa using hd
  exact h

/-- What closes a value ends a number. -/
theorem Closed.ends {text : List Char} (h : Closed text) : Ends (fun c => isNumeral c = true) text := by
  intro c hc hnumeral
  have hseparator := h c hc
  simp only [isSeparator, Bool.or_eq_true, decide_eq_true_eq, or_assoc] at hseparator
  obtain rfl | rfl | rfl := hseparator <;> exact absurd hnumeral (by decide)

/-- Joined parts: the first one, then each with a comma in front. -/
theorem intercalate_comma (part : List Char) (rest : List (List Char)) :
    [','].intercalate (part :: rest) = part ++ rest.flatMap (',' :: ·) := by
  induction rest generalizing part with
  | nil => simp
  | cons next rest ih =>
    rw [List.intercalate_cons_cons, ih next, List.flatMap_cons]
    simp

/-- Joined ASCII parts are ASCII. -/
theorem isAscii_intercalate {parts : List (List Char)} (h : ∀ part ∈ parts, IsAscii part) :
    IsAscii ([','].intercalate parts) := by
  cases parts with
  | nil => simp [IsAscii]
  | cons part rest =>
    intro c hc
    rw [intercalate_comma, List.mem_append, List.mem_flatMap] at hc
    rcases hc with hfirst | ⟨next, hnext, hc⟩
    · exact h part List.mem_cons_self c hfirst
    · rcases List.mem_cons.mp hc with rfl | hc
      · decide
      · exact h next (List.mem_cons_of_mem _ hnext) c hc

section Joined

variable {α : Type} {print : α → List Char} {ok : α → Prop} {bracket : Char} (hbracket : isSeparator bracket = true)
  (hlead : ∀ x, ok x → ∀ r s, print x ++ r ≠ bracket :: s) {xs : List α} (hxs : ∀ x ∈ xs, ok x)
  (hread : ∀ x ∈ xs, ∀ y, ok y → ∀ r s, Closed r → Closed s → print x ++ r = print y ++ s → x = y ∧ r = s)
  {ys : List α} (hys : ∀ y ∈ ys, ok y) {r s : List Char}

include hbracket

/-- Printed parts with commas in front, up to a closing bracket, go on with a separator. -/
theorem closed_flatMap (xs : List α) (r : List Char) :
    Closed ((xs.map print).flatMap (',' :: ·) ++ bracket :: r) := by
  cases xs with
  | nil => exact .cons hbracket r
  | cons x xs => exact .cons (by decide) _

include hread hys

/-- Parts with commas in front are read back up to the closing bracket. -/
theorem read_flatMap (hcomma : bracket ≠ ',')
    (h : (xs.map print).flatMap (',' :: ·) ++ bracket :: r = (ys.map print).flatMap (',' :: ·) ++ bracket :: s) :
    xs = ys ∧ r = s := by
  induction xs generalizing ys with
  | nil =>
    cases ys with
    | nil => exact ⟨rfl, (List.cons.inj h).2⟩
    | cons y ys => exact absurd (List.cons.inj h).1 hcomma
  | cons x xs ih =>
    cases ys with
    | nil => exact absurd (List.cons.inj h).1.symm hcomma
    | cons y ys =>
      simp only [List.map_cons, List.flatMap_cons, List.cons_append, List.append_assoc, List.cons.injEq, true_and] at h
      obtain ⟨rfl, htail⟩ := hread x List.mem_cons_self y (hys y List.mem_cons_self) _ _
        (closed_flatMap hbracket xs r) (closed_flatMap hbracket ys s) h
      obtain ⟨rfl, rfl⟩ := ih (fun x hx => hread x (List.mem_cons_of_mem _ hx))
        (fun y hy => hys y (List.mem_cons_of_mem _ hy)) htail
      exact ⟨rfl, rfl⟩

include hlead hxs

/-- Joined parts are read back up to the closing bracket. -/
theorem read_joined (hcomma : bracket ≠ ',')
    (h : [','].intercalate (xs.map print) ++ bracket :: r = [','].intercalate (ys.map print) ++ bracket :: s) :
    xs = ys ∧ r = s := by
  cases xs with
  | nil =>
    cases ys with
    | nil => exact ⟨rfl, (List.cons.inj h).2⟩
    | cons y ys =>
      rw [List.map_cons, intercalate_comma, List.append_assoc] at h
      exact absurd h.symm (hlead y (hys y List.mem_cons_self) _ _)
  | cons x xs =>
    cases ys with
    | nil =>
      rw [List.map_cons, intercalate_comma, List.append_assoc] at h
      exact absurd h (hlead x (hxs x List.mem_cons_self) _ _)
    | cons y ys =>
      rw [List.map_cons, List.map_cons, intercalate_comma, intercalate_comma, List.append_assoc, List.append_assoc] at h
      obtain ⟨rfl, htail⟩ := hread x List.mem_cons_self y (hys y List.mem_cons_self) _ _
        (closed_flatMap hbracket xs r) (closed_flatMap hbracket ys s) h
      obtain ⟨rfl, rfl⟩ := read_flatMap hbracket (fun x hx => hread x (List.mem_cons_of_mem _ hx))
        (fun y hy => hys y (List.mem_cons_of_mem _ hy)) hcomma htail
      exact ⟨rfl, rfl⟩

end Joined

namespace Document

variable {τ : Type}

/-! ### Reading a value back -/

/-- A quoting of texts that can be read back from the good ones. -/
structure Quotes (quote : τ → List Char) (good : τ → Prop) : Prop where
  begins : ∀ text, ∃ rest, quote text = '"' :: rest
  read : ∀ a b, good a → good b → ∀ r s, quote a ++ r = quote b ++ s → a = b ∧ r = s

/-- The value is no float, and its own texts are good. -/
def Plain (good : τ → Prop) : Document τ → Prop
  | .float _ => False
  | .str value => good value
  | .obj fields => ∀ field ∈ fields, good field.1
  | _ => True

/-- The kinds of values that their first character tells apart. -/
inductive Kind
  | null
  | true
  | false
  | int
  | str
  | arr
  | obj
  | other
  deriving DecidableEq

/-- The kind of a value. -/
def kind : Document τ → Kind
  | .null => .null
  | .bool true => .true
  | .bool false => .false
  | .int _ => .int
  | .float _ => .other
  | .str _ => .str
  | .arr _ => .arr
  | .obj _ => .obj

/-- The kind that a character begins. -/
def leadKind (c : Char) : Kind :=
  if isNumeral c then .int
  else if c = 'n' then .null
  else if c = 't' then .true
  else if c = 'f' then .false
  else if c = '"' then .str
  else if c = '[' then .arr
  else if c = '{' then .obj
  else .other

/-- A value is what its kind says. -/
theorem of_kind (v : Document τ) :
    match v.kind with
    | .null => v = .null
    | .true => v = .bool true
    | .false => v = .bool false
    | .int => ∃ value, v = .int value
    | .str => ∃ value, v = .str value
    | .arr => ∃ items, v = .arr items
    | .obj => ∃ fields, v = .obj fields
    | .other => ∃ text, v = .float text := by
  cases v with
  | null => rfl
  | bool value => cases value <;> rfl
  | int value => exact ⟨value, rfl⟩
  | float text => exact ⟨text, rfl⟩
  | str value => exact ⟨value, rfl⟩
  | arr items => exact ⟨items, rfl⟩
  | obj fields => exact ⟨fields, rfl⟩

section Read

variable {quote : τ → List Char} {good : τ → Prop} (hquote : Quotes quote good) {v w : Document τ}

include hquote

/-- A value begins with a character of its kind. -/
theorem print_lead (hv : v.Plain good) : ∃ c rest, v.print quote = c :: rest ∧ leadKind c = v.kind := by
  cases v with
  | null => exact ⟨'n', _, rfl, rfl⟩
  | bool value =>
    cases value with
    | true => exact ⟨'t', _, rfl, rfl⟩
    | false => exact ⟨'f', _, rfl, rfl⟩
  | int value =>
    obtain ⟨c, rest, htext⟩ := List.exists_cons_of_ne_nil (toString_ne_nil value)
    have hc : isNumeral c = true := isNumeral_of_mem_toString (htext ▸ List.mem_cons_self)
    exact ⟨c, rest, htext, if_pos hc⟩
  | float text => exact absurd hv id
  | str value =>
    obtain ⟨rest, htext⟩ := hquote.begins value
    exact ⟨'"', rest, htext, rfl⟩
  | arr items => exact ⟨'[', _, rfl, rfl⟩
  | obj fields => exact ⟨'{', _, rfl, rfl⟩

/-- A value does not begin with a separator. -/
theorem print_ne_separator (hv : v.Plain good) {c : Char} (hc : isSeparator c = true) (r s : List Char) :
    v.print quote ++ r ≠ c :: s := by
  intro h
  obtain ⟨d, rest, hprint, hlead⟩ := print_lead hquote hv
  rw [hprint, List.cons_append, List.cons.injEq] at h
  obtain ⟨rfl, -⟩ := h
  simp only [isSeparator, Bool.or_eq_true, decide_eq_true_eq, or_assoc] at hc
  have hother : leadKind d = .other := by obtain rfl | rfl | rfl := hc <;> decide
  rw [hother] at hlead
  cases v with
  | float text => exact absurd hv id
  | bool value => cases value <;> cases hlead
  | _ => cases hlead

/-- Values with the same text are of one kind. -/
theorem kind_eq (hv : v.Plain good) (hw : w.Plain good) {r s : List Char}
    (h : v.print quote ++ r = w.print quote ++ s) : v.kind = w.kind := by
  obtain ⟨c, rest, hprint, hlead⟩ := print_lead hquote hv
  obtain ⟨c', rest', hprint', hlead'⟩ := print_lead hquote hw
  rw [hprint, hprint', List.cons_append, List.cons_append, List.cons.injEq] at h
  rw [← hlead, ← hlead', h.1]

/-- A value is read back from its text when a separator follows. -/
theorem read (v : Document τ) (hv : v.All (Plain good)) (w : Document τ) (hw : w.All (Plain good)) (r s : List Char)
    (hr : Closed r) (hs : Closed s) (h : v.print quote ++ r = w.print quote ++ s) : v = w ∧ r = s := by
  induction v using ind generalizing w r s with
  | null =>
    have hw' := w.of_kind
    rw [← kind_eq hquote hv.self hw.self h] at hw'
    obtain rfl : w = .null := hw'
    exact ⟨rfl, List.append_cancel_left h⟩
  | bool value =>
    have hw' := w.of_kind
    rw [← kind_eq hquote hv.self hw.self h] at hw'
    obtain rfl : w = .bool value := by cases value <;> exact hw'
    exact ⟨rfl, List.append_cancel_left h⟩
  | int value =>
    have hw' := w.of_kind
    rw [← kind_eq hquote hv.self hw.self h] at hw'
    obtain ⟨value', rfl⟩ : ∃ value', w = .int value' := hw'
    obtain ⟨htext, hrest⟩ := append_eq_of_class (fun c => isNumeral_of_mem_toString)
      (fun c => isNumeral_of_mem_toString) hr.ends hs.ends h
    exact ⟨congrArg _ (intText_injective (String.toList_inj.mp htext)), hrest⟩
  | float text => exact absurd hv.self id
  | str value =>
    have hw' := w.of_kind
    rw [← kind_eq hquote hv.self hw.self h] at hw'
    obtain ⟨value', rfl⟩ : ∃ value', w = .str value' := hw'
    obtain ⟨rfl, hrest⟩ := hquote.read value value' hv.self hw.self r s h
    exact ⟨rfl, hrest⟩
  | arr items ih =>
    have hw' := w.of_kind
    rw [← kind_eq hquote hv.self hw.self h] at hw'
    obtain ⟨items', rfl⟩ : ∃ items', w = .arr items' := hw'
    simp only [print, printItems_eq_map, List.cons_append, List.append_assoc, List.nil_append, List.cons.injEq,
      true_and] at h
    have hlead : ∀ item : Document τ, item.All (Plain good) → ∀ r s, item.print quote ++ r ≠ ']' :: s :=
      fun item hitem => print_ne_separator hquote hitem.self (by decide)
    obtain ⟨rfl, hrest⟩ := read_joined (by decide) hlead (fun x hx => hv.item hx)
      (fun x hx y hy r s hr hs h => ih x hx (hv.item hx) y hy r s hr hs h) (fun y hy => hw.item hy) (by decide) h
    exact ⟨rfl, hrest⟩
  | obj fields ih =>
    have hw' := w.of_kind
    rw [← kind_eq hquote hv.self hw.self h] at hw'
    obtain ⟨fields', rfl⟩ : ∃ fields', w = .obj fields' := hw'
    simp only [print, printFields_eq_map, List.cons_append, List.append_assoc, List.nil_append, List.cons.injEq,
      true_and] at h
    have hlead : ∀ field : τ × Document τ, good field.1 ∧ field.2.All (Plain good) → ∀ r s,
        (quote field.1 ++ ':' :: field.2.print quote) ++ r ≠ '}' :: s := by
      intro field _ r s heq
      obtain ⟨rest, htext⟩ := hquote.begins field.1
      rw [htext] at heq
      exact absurd (List.cons.inj heq).1 (by decide)
    have hread : ∀ field ∈ fields, ∀ field' : τ × Document τ, good field'.1 ∧ field'.2.All (Plain good) → ∀ r s,
        Closed r → Closed s → (quote field.1 ++ ':' :: field.2.print quote) ++ r =
          (quote field'.1 ++ ':' :: field'.2.print quote) ++ s → field = field' ∧ r = s := by
      rintro ⟨key, item⟩ hfield ⟨key', item'⟩ ⟨hkey, hexact⟩ r s hr hs heq
      simp only [List.append_assoc, List.cons_append] at heq
      obtain ⟨rfl, htail⟩ := hquote.read key key' (hv.self _ hfield) hkey _ _ heq
      obtain ⟨rfl, hrest⟩ := ih _ hfield (hv.field hfield) item' hexact r s hr hs (List.cons.inj htail).2
      exact ⟨rfl, hrest⟩
    obtain ⟨rfl, hrest⟩ := read_joined (by decide) hlead (fun field hfield => ⟨hv.self _ hfield, hv.field hfield⟩)
      hread (fun field hfield => ⟨hw.self _ hfield, hw.field hfield⟩) (by decide) (by simpa using h)
    exact ⟨rfl, hrest⟩

end Read

/-! ### ASCII -/

section Ascii

variable {quote : τ → List Char} (hquote : ∀ text, IsAscii (quote text))

include hquote

/-- The text of a value without floats is ASCII when the quoted texts are. -/
theorem print_isAscii {good : τ → Prop} (v : Document τ) (hv : v.All (Plain good)) : IsAscii (v.print quote) := by
  induction v using ind with
  | null => exact (by decide : IsAscii "null".toList)
  | bool value =>
    cases value with
    | true => exact (by decide : IsAscii "true".toList)
    | false => exact (by decide : IsAscii "false".toList)
  | int value => exact isAscii_toString value
  | float text => exact absurd hv.self id
  | str value => exact hquote value
  | arr items ih =>
    rw [print, printItems_eq_map]
    refine (isAscii_intercalate fun part hpart => ?_).bracketed (by decide) (by decide)
    obtain ⟨item, hitem, rfl⟩ := List.mem_map.mp hpart
    exact ih item hitem (hv.item hitem)
  | obj fields ih =>
    rw [print, printFields_eq_map]
    refine (isAscii_intercalate fun part hpart => ?_).bracketed (by decide) (by decide)
    obtain ⟨field, hfield, rfl⟩ := List.mem_map.mp hpart
    intro c hc
    simp only [List.mem_append, List.mem_cons] at hc
    rcases hc with hkey | rfl | hitem
    · exact hquote field.1 c hkey
    · decide
    · exact ih field hfield (hv.field hfield) c hitem

end Ascii

/-! ### Equal values -/

mutual

/-- The same JSON value: objects are compared without the order of their fields. -/
def Same : Document τ → Document τ → Prop
  | .null, .null => True
  | .bool a, .bool b => a = b
  | .int a, .int b => a = b
  | .float a, .float b => a = b
  | .str a, .str b => a = b
  | .arr items, .arr items' => SameItems items items'
  | .obj fields, .obj fields' => fields.length = fields'.length ∧ SameFields fields fields'
  | _, _ => False

/-- The same values in the same order. -/
def SameItems : List (Document τ) → List (Document τ) → Prop
  | [], [] => True
  | item :: rest, item' :: rest' => Same item item' ∧ SameItems rest rest'
  | _, _ => False

/-- Every field has its value in the other object. -/
def SameFields : List (τ × Document τ) → List (τ × Document τ) → Prop
  | [], _ => True
  | (key, item) :: rest, fields' => (∃ item', (key, item') ∈ fields' ∧ Same item item') ∧ SameFields rest fields'

end

/-- The keys of an object differ. -/
def Keyed : Document τ → Prop
  | .obj fields => (fields.map Prod.fst).Nodup
  | _ => True

section Sorted

variable [LinearOrder τ]

mutual

/-- The value with the fields of every object in key order. -/
def sorted : Document τ → Document τ
  | .arr items => .arr (sortedItems items)
  | .obj fields => .obj ((sortedFields fields).insertionSort fun a b => a.1 ≤ b.1)
  | value => value

/-- Sort every item of an array. -/
def sortedItems : List (Document τ) → List (Document τ)
  | [] => []
  | item :: rest => sorted item :: sortedItems rest

/-- Sort the value of every field of an object. -/
def sortedFields : List (τ × Document τ) → List (τ × Document τ)
  | [] => []
  | (key, item) :: rest => (key, sorted item) :: sortedFields rest

end

/-- The text of a value with the fields of every object in key order. -/
def dumps (quote : τ → List Char) (v : Document τ) : List Char := v.sorted.print quote

/-- Items are sorted one by one. -/
theorem sortedItems_eq_map (items : List (Document τ)) : sortedItems items = items.map sorted := by
  induction items with
  | nil => rfl
  | cons item rest ih => exact congrArg (_ :: ·) ih

/-- Fields are sorted one by one. -/
theorem sortedFields_eq_map (fields : List (τ × Document τ)) :
    sortedFields fields = fields.map fun field => (field.1, field.2.sorted) := by
  induction fields with
  | nil => rfl
  | cons field rest ih =>
    obtain ⟨key, item⟩ := field
    exact congrArg (_ :: ·) ih

/-- Every field of a sorted object is the sorted field of the object. -/
theorem mem_sorted_fields {fields : List (τ × Document τ)} {field : τ × Document τ} :
    field ∈ (sortedFields fields).insertionSort (fun a b => a.1 ≤ b.1) ↔
      ∃ old ∈ fields, (old.1, old.2.sorted) = field := by
  rw [List.mem_insertionSort, sortedFields_eq_map, List.mem_map]

/-- Sorting moves fields only. -/
theorem all_plain_sorted {good : τ → Prop} {v : Document τ} (hv : v.All (Plain good)) : v.sorted.All (Plain good) := by
  induction v using ind with
  | null => exact hv
  | bool value => exact hv
  | int value => exact hv
  | float text => exact hv
  | str value => exact hv
  | arr items ih =>
    refine .arr trivial fun item hitem => ?_
    rw [sortedItems_eq_map] at hitem
    obtain ⟨old, hold, rfl⟩ := List.mem_map.mp hitem
    exact ih old hold (hv.item hold)
  | obj fields ih =>
    refine .obj (fun field hfield => ?_) fun field hfield => ?_
    · obtain ⟨old, hold, rfl⟩ := mem_sorted_fields.mp hfield
      exact hv.self old hold
    · obtain ⟨old, hold, rfl⟩ := mem_sorted_fields.mp hfield
      exact ih old hold (hv.field hold)

/-- The text of a value determines it up to the order of fields. -/
theorem sorted_eq_of_dumps {quote : τ → List Char} {good : τ → Prop} (hquote : Quotes quote good) {v w : Document τ}
    (hv : v.All (Plain good)) (hw : w.All (Plain good)) (h : v.dumps quote = w.dumps quote) : v.sorted = w.sorted := by
  have hend : Closed [] := fun c hc => by cases hc
  exact (read hquote _ (all_plain_sorted hv) _ (all_plain_sorted hw) [] [] hend hend (congrArg (· ++ []) h)).1

end Sorted

end Document

end TaxStamp.Lib
