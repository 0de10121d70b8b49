import Mathlib.Algebra.Order.Ring.Int
import Mathlib.Data.List.Basic
import Mathlib.Data.List.DropRight
import TaxStamp.Lib.Table

/-!
# Refusals

A service refuses with a domain error that maps to an API response, with a plain
exception of the library layer, or because the database rejects a write. All of them roll
the transaction back; the kind and the text are kept because callers report them.
-/

namespace TaxStamp

/-- The classes derived from `DomainError`. -/
inductive DomainErrorKind
  | validationFailed
  | notFound
  | conflict
  | idempotencyKeyReused
  | unauthenticated
  | forbidden
  | rateLimited
  | illegalState
  | capabilityNotConfigured
  | dependencyUnavailable
  deriving DecidableEq, Repr

/-- The HTTP status of a domain error. -/
def DomainErrorKind.status : DomainErrorKind → ℕ
  | validationFailed => 422
  | notFound => 404
  | conflict => 409
  | idempotencyKeyReused => 409
  | unauthenticated => 401
  | forbidden => 403
  | rateLimited => 429
  | illegalState => 409
  | capabilityNotConfigured => 503
  | dependencyUnavailable => 503

/-- Everything that can end a transaction early. -/
inductive Fault
  | domain (kind : DomainErrorKind) (message : String) (detail : List (String × String))
  | transitionError (message : String)
  | moneyError (message : String)
  | serialError (message : String)
  | samplingError (message : String)
  | canonicalisationError (message : String)
  | signatureError (message : String)
  | valueError (message : String)
  | lookupError (message : String)
  | typeError
  | unicodeEncodeError
  | unicodeDecodeError
  | recursionError
  | osError
  | validationError
  | invalidOperation
  | decimalOverflow
  | overflowError
  | integrityError
  | dataError
  | noResultFound
  | multipleResultsFound
  deriving DecidableEq, Repr

namespace Fault

/-- A request that fails its own validation. -/
def validationFailed (message : String) (detail : List (String × String) := []) : Fault :=
  .domain .validationFailed message detail

/-- A resource that does not exist. -/
def notFound (message : String) : Fault := .domain .notFound message []

/-- A request that conflicts with existing data. -/
def conflict (message : String) : Fault := .domain .conflict message []

/-- A request the actor may not make. -/
def forbidden (message : String) (detail : List (String × String) := []) : Fault :=
  .domain .forbidden message detail

/-- A request that is not authenticated. -/
def unauthenticated (message : String) : Fault := .domain .unauthenticated message []

/-- A request the current state does not allow. -/
def illegalState (message : String) : Fault := .domain .illegalState message []

/-- An external dependency that did not answer as required. -/
def dependencyUnavailable (message : String) (detail : List (String × String) := []) : Fault :=
  .domain .dependencyUnavailable message detail

/-- How the database reports a rejected write. -/
def ofRejection : Lib.Rejection → Fault
  | .data => .dataError
  | .integrity => .integrityError

end Fault

/-- A sequence of checks succeeds exactly when each of them does. -/
theorem Except.bind_ok {ε α β : Type} {x : Except ε α} {f : α → Except ε β} {b : β} :
    (x >>= f) = .ok b ↔ ∃ a, x = .ok a ∧ f a = .ok b := by
  cases x with
  | error e => simp [bind, Except.bind]
  | ok a => simp [bind, Except.bind]

/-- Every member of a list that passes a check passes it. -/
theorem forM_ok {ε α : Type} {check : α → Except ε Unit} {xs : List α} (h : xs.forM check = .ok ()) {x : α}
    (hx : x ∈ xs) : check x = .ok () := by
  induction xs with
  | nil => cases hx
  | cons y rest ih =>
    obtain ⟨_, hfirst, hrest⟩ := Except.bind_ok.mp h
    obtain rfl | hx := List.mem_cons.mp hx
    · exact hfirst
    · exact ih hrest hx

/-- Python's `repr` of a text without control characters: quoted, with backslashes and the
chosen quote escaped. -/
def pyRepr (text : String) : String :=
  let quote := if '\'' ∈ text.toList ∧ '"' ∉ text.toList then '"' else '\''
  let escape : Char → List Char := fun c => if c = '\\' ∨ c = quote then ['\\', c] else [c]
  String.ofList (quote :: text.toList.flatMap escape ++ [quote])

/-- A character that `str.strip` removes. -/
def isPySpace (c : Char) : Bool :=
  (9 ≤ c.toNat && c.toNat ≤ 13) || (28 ≤ c.toNat && c.toNat ≤ 32) || c.toNat = 0x85 || c.toNat = 0xa0 ||
    c.toNat = 0x1680 || (0x2000 ≤ c.toNat && c.toNat ≤ 0x200a) || c.toNat = 0x2028 || c.toNat = 0x2029 ||
    c.toNat = 0x202f || c.toNat = 0x205f || c.toNat = 0x3000

/-- A text without white space at its ends. -/
def strip (text : List Char) : List Char := (text.dropWhile isPySpace).rdropWhile isPySpace

end TaxStamp
