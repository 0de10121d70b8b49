import Mathlib.Algebra.Order.Group.Int
import TaxStamp.Gates
import TaxStamp.Lib.FixedWindow

/-!
# Rate limits

The limiter keeps a counter for each principal and bucket in Redis. `INCR` creates or
increments the counter and `EXPIRE NX` gives it its time to live once; both run in one
transaction, so no counter is ever seen without one. Each key behaves as a fixed-window
counter of its own.
-/

namespace TaxStamp

open Lib

/-- A counter, and the time it lives until unless it has none. -/
structure RedisCounter where
  name : String
  value : ℤ
  expiresAt : Option Time
  deriving DecidableEq, Repr

/-- The counters. -/
abbrev RedisCounters := List RedisCounter

/-- The counter exists. -/
def RedisCounter.live (counter : RedisCounter) (now : Time) : Bool :=
  match counter.expiresAt with
  | some expiresAt => now < expiresAt
  | none => true

/-- `INCR name`: the value after the increment; a counter that does not exist starts at zero. -/
def RedisCounters.incr (redis : RedisCounters) (name : String) (now : Time) : ℤ × RedisCounters :=
  match redis.find? fun counter => counter.name = name && counter.live now with
  | some counter =>
    (counter.value + 1, redis.map fun c => if c.name = name then { c with value := counter.value + 1 } else c)
  | none => (1, ⟨name, 1, none⟩ :: redis.filter fun c => c.name ≠ name)

/-- `EXPIRE name seconds NX`: a time to live for a counter that has none. -/
def RedisCounters.expireNx (redis : RedisCounters) (name : String) (ttlSeconds : ℤ) (now : Time) : RedisCounters :=
  redis.map fun c =>
    if c.name = name ∧ c.expiresAt = none then { c with expiresAt := some (now + seconds ttlSeconds) } else c

/-- What the limiter decides. -/
structure RateLimitDecision where
  allowed : Bool
  remaining : ℤ
  limit : ℤ
  deriving DecidableEq, Repr

namespace RateLimiter

/-- The key of a subject and a bucket. -/
def key (subject bucket : String) : String := "rl:" ++ bucket ++ ":" ++ subject

/-- The decision on the call with a count. -/
def decision (limit count : ℤ) : RateLimitDecision := ⟨count ≤ limit, max (limit - count) 0, limit⟩

/-- Count a call and decide on it. Redis may be unreachable. -/
def check (reachable : Bool) (windowSeconds : ℤ) (subject bucket : String) (limit : ℤ) (now : Time)
    (redis : RedisCounters) : Except Fault (RateLimitDecision × RedisCounters) :=
  if reachable then
    let (count, counted) := redis.incr (key subject bucket) now
    .ok (decision limit count, counted.expireNx (key subject bucket) windowSeconds now)
  else .error (.dependencyUnavailable "rate limit store is unavailable")

/-- Refuse a call that is not allowed. -/
def enforce (reachable : Bool) (windowSeconds : ℤ) (subject bucket : String) (limit : ℤ) (now : Time)
    (redis : RedisCounters) : Except Fault Unit × RedisCounters :=
  match check reachable windowSeconds subject bucket limit now redis with
  | .ok (decision, redis') =>
    if decision.allowed then (.ok (), redis')
    else (.error (.domain .rateLimited s!"rate limit of {limit} requests per window exceeded" []), redis')
  | .error fault => (.error fault, redis)

end RateLimiter

/-- A call of the limiter that reaches Redis; one that does not raises and counts nothing. -/
structure RateCall where
  subject : String
  bucket : String
  limit : ℤ
  now : Time
  deriving DecidableEq, Repr

namespace RateLimiter

/-- The key of a call. -/
def callKey (call : RateCall) : String := key call.subject call.bucket

/-- The calls of a sequence with the decisions on them. -/
def decided (windowSeconds : ℤ) : RedisCounters → List RateCall → List (RateCall × RateLimitDecision)
  | _, [] => []
  | redis, call :: rest =>
    match check true windowSeconds call.subject call.bucket call.limit call.now redis with
    | .ok (decision, redis') => (call, decision) :: decided windowSeconds redis' rest
    | .error _ => decided windowSeconds redis rest

/-- The counters after the calls of a sequence. -/
def counted (windowSeconds : ℤ) : RedisCounters → List RateCall → RedisCounters
  | redis, [] => redis
  | redis, call :: rest =>
    match check true windowSeconds call.subject call.bucket call.limit call.now redis with
    | .ok (_, redis') => counted windowSeconds redis' rest
    | .error _ => counted windowSeconds redis rest

/-! ### Each key is a fixed-window counter -/

/-- The counters show of a key what the fixed-window counter says. -/
def Shows (windowSeconds : ℤ) (redis : RedisCounters) (name : String) : Option (FixedWindow.Counter Time) → Prop
  | none => (redis.filter fun c => c.name = name) = []
  | some counter => (redis.filter fun c => c.name = name) =
      [⟨name, counter.count, some (counter.opened + seconds windowSeconds)⟩]

variable {windowSeconds : ℤ} {redis : RedisCounters} {counter : Option (FixedWindow.Counter Time)}

/-- The counters of one key. -/
def named (name : String) (redis : RedisCounters) : RedisCounters := redis.filter fun c => c.name = name

/-- Counters rewritten under their keys are rewritten key by key. -/
theorem named_map {f : RedisCounter → RedisCounter} (hf : ∀ c, (f c).name = c.name) (name : String) :
    named name (redis.map f) = (named name redis).map f := by
  unfold named
  rw [List.filter_map]
  refine congrArg _ (List.filter_congr fun c _ => ?_)
  simp only [Function.comp_apply, hf]

/-- Counters of other keys alone are rewritten. -/
theorem map_named_of_ne {f : RedisCounter → RedisCounter} {name : String} (hf : ∀ c, c.name = name → f c = c) :
    (named name redis).map f = named name redis := by
  calc (named name redis).map f = (named name redis).map fun c => c :=
        List.map_congr_left fun c hc => hf c (of_decide_eq_true (List.mem_filter.mp hc).2)
    _ = named name redis := List.map_id' _

/-- A time to live is given key by key. -/
theorem named_expireNx (name name' : String) (now : Time) :
    named name' (redis.expireNx name windowSeconds now) = (named name' redis).expireNx name windowSeconds now := by
  refine named_map (fun c => ?_) name'
  split <;> rfl

/-- A new counter is the only one of its key. -/
theorem named_cons_filter (name : String) (c : RedisCounter) (hname : c.name = name) :
    named name (c :: redis.filter fun d => d.name ≠ name) = [c] := by
  have hnone : named name (redis.filter fun d => d.name ≠ name) = [] := by
    refine List.filter_eq_nil_iff.mpr fun d hd => ?_
    have hne := (List.mem_filter.mp hd).2
    simpa using hne
  unfold named at hnone ⊢
  rw [List.filter_cons_of_pos (by simpa using hname), hnone]

/-- A new counter of another key changes nothing about this one. -/
theorem named_cons_filter_of_ne {name name' : String} (c : RedisCounter) (hname : c.name = name) (hne : name ≠ name') :
    named name' (c :: redis.filter fun d => d.name ≠ name) = named name' redis := by
  have hother : ¬c.name = name' := fun heq => hne (hname.symm.trans heq)
  unfold named
  rw [List.filter_cons_of_neg (by simpa using hother), List.filter_filter]
  refine List.filter_congr fun d _ => ?_
  by_cases hd : d.name = name'
  · simp [hd, Ne.symm hne]
  · simp [hd]

/-- Whether a counter lives is seen among those of its key. -/
theorem find_live (name : String) (now : Time) :
    redis.find? (fun c => c.name = name && c.live now) = (named name redis).find? fun c => c.live now := by
  unfold named
  rw [List.find?_filter]
  exact congrArg (List.find? · redis) (funext fun c => by simp)

/-- A call on a key ticks its counter. -/
theorem Shows.incr_self {name : String} {now : Time} (h : Shows windowSeconds redis name counter) :
    (redis.incr name now).1 = (FixedWindow.tick (seconds windowSeconds) counter now).count ∧
      Shows windowSeconds ((redis.incr name now).2.expireNx name windowSeconds now) name
        (some (FixedWindow.tick (seconds windowSeconds) counter now)) := by
  -- a counter that does not live is made anew, and given its time to live
  have hcreated : redis.find? (fun c => c.name = name && c.live now) = none →
      FixedWindow.lives (seconds windowSeconds) counter now = false →
      (redis.incr name now).1 = (FixedWindow.tick (seconds windowSeconds) counter now).count ∧
        Shows windowSeconds ((redis.incr name now).2.expireNx name windowSeconds now) name
          (some (FixedWindow.tick (seconds windowSeconds) counter now)) := by
    intro hnone hdead
    rw [RedisCounters.incr, hnone, FixedWindow.tick_of_not_lives hdead]
    refine ⟨rfl, ?_⟩
    change named name _ = _
    rw [named_expireNx, named_cons_filter name _ rfl]
    simp [RedisCounters.expireNx]
  cases counter with
  | none =>
    refine hcreated ?_ rfl
    change named name redis = [] at h
    rw [find_live, h]
    rfl
  | some c =>
    change named name redis = _ at h
    by_cases hlives : now < c.opened + seconds windowSeconds
    · have hfound : redis.find? (fun d => d.name = name && d.live now) =
          some ⟨name, c.count, some (c.opened + seconds windowSeconds)⟩ := by
        rw [find_live, h]
        simp [RedisCounter.live, hlives]
      rw [RedisCounters.incr, hfound, FixedWindow.tick_of_lt hlives]
      refine ⟨by simp, ?_⟩
      change named name _ = _
      rw [named_expireNx]
      have hcounted : named name (redis.map fun d => if d.name = name then { d with value := c.count + 1 } else d) =
          [⟨name, c.count + 1, some (c.opened + seconds windowSeconds)⟩] := by
        have hnames : ∀ d : RedisCounter,
            (if d.name = name then { d with value := (c.count : ℤ) + 1 } else d).name = d.name := by
          intro d
          split <;> rfl
        rw [named_map hnames, h]
        simp
      rw [hcounted]
      simp [RedisCounters.expireNx]
    · refine hcreated ?_ (decide_eq_false hlives)
      rw [find_live, h]
      simp [RedisCounter.live, hlives]

/-- A call on another key leaves the counter. -/
theorem Shows.incr_other {name name' : String} {now : Time} (h : Shows windowSeconds redis name' counter)
    (hne : name ≠ name') :
    Shows windowSeconds ((redis.incr name now).2.expireNx name windowSeconds now) name' counter := by
  have hcounted : named name' (redis.incr name now).2 = named name' redis := by
    unfold RedisCounters.incr
    split
    · rename_i found hfound
      have hnames : ∀ d : RedisCounter,
          (if d.name = name then { d with value := found.value + 1 } else d).name = d.name := by
        intro d
        split <;> rfl
      rw [named_map hnames]
      exact map_named_of_ne fun d hd => if_neg fun heq => hne (heq.symm.trans hd)
    · exact named_cons_filter_of_ne _ rfl hne
  have hexpiry : named name' ((redis.incr name now).2.expireNx name windowSeconds now) = named name' redis := by
    rw [named_expireNx, hcounted]
    exact map_named_of_ne fun d hd => if_neg fun heq => hne (heq.1.symm.trans hd)
  cases counter with
  | none => exact hexpiry.trans h
  | some c => exact hexpiry.trans h

/-! ### Sequences of calls -/

/-- The first call of a sequence is decided on its count, and the rest after it. -/
theorem decided_cons (call : RateCall) (rest : List RateCall) :
    decided windowSeconds redis (call :: rest) =
      (call, decision call.limit (redis.incr (callKey call) call.now).1) ::
        decided windowSeconds ((redis.incr (callKey call) call.now).2.expireNx (callKey call) windowSeconds call.now)
          rest := rfl

/-- The decisions on the calls of one key are those of its counter. -/
theorem Shows.decided {name : String} (h : Shows windowSeconds redis name counter) (calls : List RateCall) :
    (decided windowSeconds redis calls).filter (fun p => callKey p.1 = name) =
      List.zipWith (fun call count => (call, decision call.limit (count : ℕ)))
        (calls.filter fun call => callKey call = name)
        (FixedWindow.counts (seconds windowSeconds) counter
          ((calls.filter fun call => callKey call = name).map RateCall.now)) := by
  induction calls generalizing redis counter with
  | nil => rfl
  | cons call rest ih =>
    rw [decided_cons]
    by_cases hname : callKey call = name
    · subst hname
      obtain ⟨hcount, hshows⟩ := @Shows.incr_self windowSeconds redis counter _ call.now h
      rw [List.filter_cons_of_pos (by simp), List.filter_cons_of_pos (by simp), ih hshows, hcount, List.map_cons,
        FixedWindow.counts, List.zipWith_cons_cons]
    · rw [List.filter_cons_of_neg (by simpa using hname), List.filter_cons_of_neg (by simpa using hname)]
      exact ih (h.incr_other hname)

/-- Every key starts without a counter. -/
theorem shows_nil (name : String) : Shows windowSeconds [] name none := rfl

/-- Decisions are made on the calls of the sequence. -/
theorem mem_decided {calls : List RateCall} {p : RateCall × RateLimitDecision}
    (hp : p ∈ decided windowSeconds redis calls) : p.1 ∈ calls := by
  induction calls generalizing redis with
  | nil => cases hp
  | cons call rest ih =>
    rw [decided_cons, List.mem_cons] at hp
    rcases hp with rfl | hp
    · exact List.mem_cons_self
    · exact List.mem_cons_of_mem _ (ih hp)

/-- The decisions on the calls of one key are those of the calls of this key alone. -/
theorem decided_filter (name : String) (calls : List RateCall) :
    (decided windowSeconds [] calls).filter (fun p => callKey p.1 = name) =
      decided windowSeconds [] (calls.filter fun call => callKey call = name) := by
  have hown : (decided windowSeconds [] (calls.filter fun call => callKey call = name)).filter
      (fun p => callKey p.1 = name) = decided windowSeconds [] (calls.filter fun call => callKey call = name) := by
    refine List.filter_eq_self.mpr fun p hp => ?_
    exact (List.mem_filter.mp (mem_decided hp)).2
  rw [← hown, (shows_nil name).decided, (shows_nil name).decided, List.filter_filter]
  simp only [Bool.and_self]

section OneKey

variable (subject bucket : String) (limit : ℕ)

/-- The calls of one subject and bucket with a fixed limit. -/
def callsAt (times : List Time) : List RateCall := times.map fun now => ⟨subject, bucket, limit, now⟩

/-- The decisions on the calls of one subject and bucket. -/
theorem decided_callsAt (times : List Time) :
    decided windowSeconds [] (callsAt subject bucket limit times) =
      (times.zip (FixedWindow.counts (seconds windowSeconds) none times)).map fun p =>
        (⟨subject, bucket, limit, p.1⟩, decision limit p.2) := by
  have hkeys : ∀ call ∈ callsAt subject bucket limit times, callKey call = key subject bucket := by
    intro call hcall
    obtain ⟨now, -, rfl⟩ := List.mem_map.mp hcall
    rfl
  have hcalls : (callsAt subject bucket limit times).filter (fun call => callKey call = key subject bucket) =
      callsAt subject bucket limit times :=
    List.filter_eq_self.mpr fun call hcall => decide_eq_true (hkeys call hcall)
  have hnone : Shows windowSeconds [] (key subject bucket) none := shows_nil _
  have hdecided := hnone.decided (callsAt subject bucket limit times)
  have hown : (decided windowSeconds [] (callsAt subject bucket limit times)).filter
      (fun p => callKey p.1 = key subject bucket) = decided windowSeconds [] (callsAt subject bucket limit times) :=
    List.filter_eq_self.mpr fun p hp => decide_eq_true (hkeys _ (mem_decided hp))
  have htimes : (callsAt subject bucket limit times).map RateCall.now = times := by
    rw [callsAt, List.map_map]
    exact List.map_id' times
  rw [hown, hcalls, htimes] at hdecided
  rw [hdecided, callsAt, List.zipWith_map_left, ← List.map_uncurry_zip_eq_zipWith]
  rfl

/-- The counter of a key after calls on it. -/
theorem Shows.counted {subject bucket : String} {limit : ℕ} (h : Shows windowSeconds redis (key subject bucket) counter)
    (times : List Time) :
    Shows windowSeconds (counted windowSeconds redis (callsAt subject bucket limit times)) (key subject bucket)
      (FixedWindow.after (seconds windowSeconds) counter times) := by
  induction times generalizing redis counter with
  | nil => exact h
  | cons now rest ih => exact ih (@Shows.incr_self windowSeconds redis counter _ now h).2

/-- When the key does not exist its counter does not live. -/
theorem Shows.lives_eq_false {name : String} {now : Time} (h : Shows windowSeconds redis name counter)
    (hdead : ∀ c ∈ redis, c.name = name → c.live now = false) :
    FixedWindow.lives (seconds windowSeconds) counter now = false := by
  cases counter with
  | none => rfl
  | some c =>
    have hmem : (⟨name, c.count, some (c.opened + seconds windowSeconds)⟩ : RedisCounter) ∈ redis.filter fun d => d.name = name := by
      rw [show redis.filter (fun d => d.name = name) = _ from h]
      exact List.mem_singleton_self _
    exact hdead _ (List.mem_filter.mp hmem).1 rfl

/-- At most twice the limit is allowed in any interval of the length of the window. -/
theorem allowed_within_le (hwindow : 0 < windowSeconds) {times : List Time} (hordered : times.Pairwise (· ≤ ·))
    (start : Time) :
    (decided windowSeconds [] (callsAt subject bucket limit times)).countP (fun p =>
      p.2.allowed ∧ start ≤ p.1.now ∧ p.1.now ≤ start + seconds windowSeconds) ≤ 2 * limit := by
  have hlength : 0 < seconds windowSeconds := Int.mul_pos hwindow (by decide)
  rw [decided_callsAt, List.countP_map]
  refine le_of_eq_of_le (List.countP_congr fun p _ => ?_) (FixedWindow.admittedIn_le hlength hordered limit start)
  simp [decision]

/-- Of the calls in the life of a counter exactly the first ones are allowed, up to the limit. -/
theorem allowed_lifetime {past life later : List Time} {now : Time}
    (hdead : ∀ c ∈ counted windowSeconds [] (callsAt subject bucket limit past), c.name = key subject bucket →
      c.live now = false) (hlife : ∀ t ∈ life, t < now + seconds windowSeconds) :
    (((decided windowSeconds [] (callsAt subject bucket limit (past ++ now :: life ++ later))).drop past.length).take
        (life.length + 1)).map (fun p => p.2.allowed) =
      List.replicate (min (life.length + 1) limit) true ++
        List.replicate (life.length + 1 - min (life.length + 1) limit) false := by
  have hopens := (@Shows.counted windowSeconds [] none subject bucket limit (shows_nil _) past).lives_eq_false hdead
  have hcounts := FixedWindow.counts_lifetime hopens hlife
  have hallowed : (decided windowSeconds [] (callsAt subject bucket limit (past ++ now :: life ++ later))).map
      (fun p => p.2.allowed) =
      (FixedWindow.counts (seconds windowSeconds) none (past ++ now :: life ++ later)).map fun count =>
        decide (count ≤ limit) := by
    have hlength := @FixedWindow.length_counts _ _ _ (seconds windowSeconds) none (past ++ now :: life ++ later)
    have hsnd := List.map_snd_zip hlength.le
    conv_rhs => rw [← hsnd]
    rw [decided_callsAt, List.map_map, List.map_map]
    refine List.map_congr_left fun p _ => ?_
    simp [decision]
  have hmiddle : ((FixedWindow.counts (seconds windowSeconds) none (past ++ now :: life ++ later)).drop
      past.length).take (life.length + 1) = List.range' 1 (life.length + 1) := by
    rw [List.append_assoc, FixedWindow.counts_append, List.drop_left' (FixedWindow.length_counts none past),
      FixedWindow.counts_append, hcounts, List.take_left' (by rw [List.length_range'])]
  rw [List.map_take, List.map_drop, hallowed, ← List.map_drop, ← List.map_take, hmiddle, FixedWindow.map_le_range']

end OneKey

/-- The key tells calls apart when no subject has a colon. -/
theorem callKey_eq_iff {call : RateCall} {subject bucket : String} (hcall : ':' ∉ call.subject.toList)
    (hsubject : ':' ∉ subject.toList) :
    callKey call = key subject bucket ↔ call.subject = subject ∧ call.bucket = bucket := by
  constructor
  · intro hkey
    -- a subject is what follows the last colon
    have hchars := congrArg (fun text : String => text.toList.reverse) hkey
    simp only [callKey, key, String.toList_append, List.reverse_append, List.append_assoc] at hchars
    obtain ⟨hsubjects, hrest⟩ := cut_unique (a := ':') (by simpa using hcall) (by simpa using hsubject) hchars
    have hbuckets : call.bucket.toList.reverse = bucket.toList.reverse := List.append_cancel_right hrest
    rw [List.reverse_inj] at hsubjects hbuckets
    exact ⟨String.toList_inj.mp hsubjects, String.toList_inj.mp hbuckets⟩
  · rintro ⟨rfl, rfl⟩
    rfl

/-- The rate limit is a bound: for one subject and bucket with a fixed limit, at most twice the limit is allowed in
any interval of the length of the window, and of the calls in the life of the key exactly the first are allowed, up to
the limit; calls for other subjects or buckets change no decision. Subjects are identifiers of principals, which have
no colon. -/
theorem rateLimit_bound (windowSeconds : ℤ) (hwindow : 0 < windowSeconds) (subject bucket : String)
    (hsubject : ':' ∉ subject.toList) :
    (∀ (limit : ℕ) (times : List Time), times.Pairwise (· ≤ ·) →
      (∀ start : Time, (decided windowSeconds [] (callsAt subject bucket limit times)).countP (fun p =>
        p.2.allowed ∧ start ≤ p.1.now ∧ p.1.now ≤ start + seconds windowSeconds) ≤ 2 * limit) ∧
      ∀ past now life later, times = past ++ now :: life ++ later →
        (∀ c ∈ counted windowSeconds [] (callsAt subject bucket limit past), c.name = key subject bucket →
          c.live now = false) →
        (∀ t ∈ life, t < now + seconds windowSeconds) →
        (((decided windowSeconds [] (callsAt subject bucket limit times)).drop past.length).take
            (life.length + 1)).map (fun p => p.2.allowed) =
          List.replicate (min (life.length + 1) limit) true ++
            List.replicate (life.length + 1 - min (life.length + 1) limit) false) ∧
    ∀ calls : List RateCall, (∀ call ∈ calls, ':' ∉ call.subject.toList) →
      (decided windowSeconds [] calls).filter (fun p => p.1.subject = subject ∧ p.1.bucket = bucket) =
        decided windowSeconds [] (calls.filter fun call => call.subject = subject ∧ call.bucket = bucket) := by
  refine ⟨fun limit times hordered => ⟨fun start => ?_, fun past now life later hsplit hdead hlife => ?_⟩,
    fun calls hcalls => ?_⟩
  · exact allowed_within_le subject bucket limit hwindow hordered start
  · subst hsplit
    exact allowed_lifetime subject bucket limit hdead hlife
  · have hfilter : calls.filter (fun call => call.subject = subject ∧ call.bucket = bucket) =
        calls.filter fun call => callKey call = key subject bucket := by
      refine List.filter_congr fun call hcall => ?_
      rw [decide_eq_decide, callKey_eq_iff (hcalls call hcall) hsubject]
    have hdecided : (decided windowSeconds [] calls).filter (fun p => p.1.subject = subject ∧ p.1.bucket = bucket) =
        (decided windowSeconds [] calls).filter fun p => callKey p.1 = key subject bucket := by
      refine List.filter_congr fun p hp => ?_
      rw [decide_eq_decide, callKey_eq_iff (hcalls p.1 (mem_decided hp)) hsubject]
    rw [hfilter, hdecided, decided_filter]

/-- Of four calls within a minute and a limit of three the last is refused, also when others call in between. -/
theorem rateLimit_bound_sample :
    (((decided 60 [] (callsAt "principal-1" "bucket" 3 [0, 1, 2, 3])).drop 0).take 4).map (fun p => p.2.allowed) =
      [true, true, true, false] ∧
    (decided 60 [] [⟨"principal-1", "bucket", 3, 0⟩, ⟨"principal-2", "bucket", 3, 0⟩]).filter
        (fun p => p.1.subject = "principal-1" ∧ p.1.bucket = "bucket") =
      decided 60 [] ([⟨"principal-1", "bucket", 3, 0⟩, ⟨"principal-2", "bucket", 3, 0⟩].filter fun call =>
        call.subject = "principal-1" ∧ call.bucket = "bucket") := by
  obtain ⟨hone, hothers⟩ := rateLimit_bound 60 (by decide) "principal-1" "bucket" (by decide)
  obtain ⟨-, hlifetime⟩ := hone 3 [0, 1, 2, 3] (by decide)
  refine ⟨?_, hothers _ (by decide)⟩
  exact hlifetime [] 0 [1, 2, 3] [] rfl (fun c hc => absurd hc List.not_mem_nil) (by decide)

end RateLimiter

end TaxStamp
