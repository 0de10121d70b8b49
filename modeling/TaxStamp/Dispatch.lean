import Mathlib
import TaxStamp.Relay

/-!
# Issuing from the relay

The handler of an issue message runs `issue_order` in transactions of its own while the
delivery transaction of its worker is open, and the delivery can only succeed after the
last chunk has returned as completed. The relay leaves open what a handler does outside its
transaction; here the chunks of the handler are events of its worker, and a delivery of an
issue message succeeds only when they are finished.
-/

namespace TaxStamp

open Lib

/-- The printed form of an identifier is parsed back. -/
theorem Uuid.parse_str (id : Uuid) : Uuid.parse id.str = .ok id := by
  -- `Nat.toNat?_repr` comes with Mathlib as a whole only: no smaller module of it imports this part of the standard library.
  rw [Uuid.parse, Uuid.str, Nat.toString_eq_repr, Nat.toNat?_repr]

/-- The order that an issue message is about. -/
def askedOrder (payload : JsonObject) : Except Fault Uuid := do
  let orderId ← requireStr payload "order_id"
  Uuid.parse orderId

/-- The order whose stamps a worker is issuing: its delivery is of an issue message. -/
def Relay.issuing (s : Relay) (index : ℕ) : Option Uuid :=
  match (s.workers[index]?).map RelayWorker.phase with
  | some (.relaying (message :: _)) =>
    if s.outbox.any fun m => m.id = message.id && m.eventType = "order.issue_stamps" then
      (askedOrder message.payload).toOption
    else none
  | _ => none

/-- The relay, and which of its workers have come to the end of `issue_order` in the current delivery. -/
structure Dispatch where
  relay : Relay
  finished : ℕ → Bool

/-- No worker has started. -/
def Dispatch.initial (companies : Table companySchema) (tariffs : Table tariffSchema) : Dispatch :=
  ⟨.initial companies tariffs, fun _ => false⟩

/-- The database under the relay. -/
def Dispatch.db (s : Dispatch) : Db := s.relay.platform.db

/-- An event of the relay, or the next chunk of the issuance that a worker's handler runs. -/
inductive DispatchEvent
  | relay (e : RelayEvent)
  | issue (index : ℕ) (draws : Draws) (chunkSize : ℤ) (now : Time)

/-- The event is a delivery that succeeds although the issuance of its handler is not finished. -/
def Dispatch.premature (s : Dispatch) : RelayEvent → Bool
  | .worker index (.deliver delivery _) =>
    (s.relay.issuing index).isSome && delivery.outside.isOk && !s.finished index
  | _ => false

/-- The worker that an event is a statement of starts a new delivery. -/
def restarted (finished : ℕ → Bool) : RelayEvent → ℕ → Bool
  | .worker index _ => Function.update finished index false
  | .service _ | .join _ => finished

/-- The dispatch after an event. A chunk that raises makes its handler raise: its worker goes on with a failed delivery. -/
def dispatchStep (settings : RelaySettings) (s : Dispatch) : DispatchEvent → Dispatch
  | .relay e => if s.premature e then s else ⟨relayStep settings s.relay e, restarted s.finished e⟩
  | .issue index draws chunkSize now =>
    match s.relay.issuing index with
    | none => s
    | some orderId =>
      match issueOrderChunk settings.toSettings draws orderId chunkSize now s.db with
      | .ok (progress, db') =>
        { relay := { s.relay with platform := { s.relay.platform with db := db' } }
          finished := Function.update s.finished index progress.completed }
      | .error _ => s

/-- The relay under the dispatch runs like the relay. -/
theorem dispatch_relay (settings : RelaySettings) (companies : Table companySchema) (tariffs : Table tariffSchema)
    (events : List DispatchEvent) :
    ∃ events', (run (dispatchStep settings) (.initial companies tariffs) events).relay =
      run (relayStep settings) (.initial companies tariffs) events' := by
  refine run_simulates Dispatch.relay (fun s e => ?_) (Dispatch.initial companies tariffs) events
  cases e with
  | relay e =>
    unfold dispatchStep
    dsimp only
    split
    · exact ⟨[], rfl⟩
    · exact ⟨[e], rfl⟩
  | issue index draws chunkSize now =>
    unfold dispatchStep
    dsimp only
    split
    · exact ⟨[], rfl⟩
    · rename_i orderId hissuing
      split
      · rename_i progress db' hchunk
        refine ⟨[.service (.issueChunk draws orderId chunkSize now)], ?_⟩
        change issueOrderChunk settings.toSettings draws orderId chunkSize now s.relay.platform.db = _ at hchunk
        simp only [run, List.foldl, relayStep, Event.relays, step, Tx.commit, hchunk]
        rfl
      · exact ⟨[], rfl⟩

end TaxStamp
