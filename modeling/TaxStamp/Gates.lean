import TaxStamp.Values

/-!
# Replay protection

The replay guard keeps its nonces in Redis. `SET NX EX` is atomic: a key is created unless
it exists, and it exists until its time to live has elapsed.
-/

namespace TaxStamp

/-- A list is cut at the first occurrence of an element in one way. -/
theorem cut_unique {α : Type} [DecidableEq α] {a : α} {first second rest rest' : List α} (hfirst : a ∉ first)
    (hsecond : a ∉ second) (h : first ++ a :: rest = second ++ a :: rest') : first = second ∧ rest = rest' := by
  have hcut : ∀ {l r : List α}, a ∉ l → (l ++ a :: r).takeWhile (· ≠ a) = l := by
    intro l r hfree
    rw [List.takeWhile_append_of_pos, List.takeWhile_cons_of_neg, List.append_nil]
    · simp
    · intro b hb
      rw [decide_eq_true_eq]
      rintro rfl
      exact hfree hb
  have hsame : first = second := by rw [← hcut hfirst, h, hcut hsecond]
  subst hsame
  injection List.append_cancel_left h with _ hrest
  exact ⟨rfl, hrest⟩

/-- A key with the time it lives until. -/
structure RedisKey where
  name : String
  expiresAt : Time
  deriving DecidableEq, Repr

/-- The keys set so far. -/
abbrev Redis := List RedisKey

/-- The key exists. -/
def Redis.live (redis : Redis) (name : String) (now : Time) : Bool :=
  redis.any fun key => key.name = name && now < key.expiresAt

/-- `SET name "1" NX EX ttl`: whether the key was created. -/
def Redis.setNx (redis : Redis) (name : String) (ttlSeconds : ℤ) (now : Time) : Bool × Redis :=
  if redis.live name now then (false, redis)
  else (true, ⟨name, now + seconds ttlSeconds⟩ :: redis.filter fun key => key.name ≠ name)

namespace ReplayGuard

/-- The key of a nonce. -/
def key (deviceId nonce : String) : String := "nonce:" ++ deviceId ++ ":" ++ nonce

/-- Claim a nonce; the result is false when it has been used already. Redis may be unreachable. -/
def claim (reachable : Bool) (ttlSeconds : ℤ) (deviceId nonce : String) (now : Time) (redis : Redis) :
    Except Fault (Bool × Redis) :=
  if reachable then .ok (redis.setNx (key deviceId nonce) ttlSeconds now)
  else .error (.dependencyUnavailable "replay protection store is unavailable")

/-- A nonce is refused exactly while its key lives, and then nothing changes. -/
theorem claim_false {reachable : Bool} {ttlSeconds : ℤ} {deviceId nonce : String} {now : Time}
    {redis redis' : Redis} (h : claim reachable ttlSeconds deviceId nonce now redis = .ok (false, redis')) :
    redis.live (key deviceId nonce) now = true ∧ redis' = redis := by
  unfold claim Redis.setNx at h
  split at h
  · split at h
    · rename_i hlive
      injection h with h
      injection h with _ h
      exact ⟨hlive, h.symm⟩
    · injection h with h
      injection h with hfalse
      contradiction
  · contradiction

end ReplayGuard

end TaxStamp
