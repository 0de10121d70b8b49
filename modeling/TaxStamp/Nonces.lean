import Mathlib.Data.List.Induction
import Mathlib.Data.Set.Function
import TaxStamp.Gates
import TaxStamp.Lib.Run

/-!
# Nonces of devices

The guard writes a device and its nonce into one key, `nonce:device:nonce`. Over any sequence
of calls a key is refused exactly while an earlier call that claimed it lives. The nonces of
devices are therefore independent exactly as far as the keys tell them apart: a device whose
identifier goes on after a colon can be mistaken for the nonce of another.
-/

namespace TaxStamp

open Lib

/-- A call of the guard that reaches Redis; one that does not raises and changes nothing. -/
structure NonceClaim where
  deviceId : String
  nonce : String
  now : Time

namespace ReplayGuard

/-- What a call returns. -/
def answer (ttlSeconds : ℤ) (redis : Redis) (c : NonceClaim) : Bool :=
  match claim true ttlSeconds c.deviceId c.nonce c.now redis with
  | .ok (created, _) => created
  | .error _ => false

/-- The keys after a call. -/
def record (ttlSeconds : ℤ) (redis : Redis) (c : NonceClaim) : Redis :=
  match claim true ttlSeconds c.deviceId c.nonce c.now redis with
  | .ok (_, redis') => redis'
  | .error _ => redis

/-- The key of a call. -/
def callKey (c : NonceClaim) : String := key c.deviceId c.nonce

/-- An earlier call like this one returned true less than the time to live before it. -/
def ClaimedBefore (ttlSeconds : ℤ) (like : NonceClaim → Prop) (past : List NonceClaim) (now : Time) : Prop :=
  ∃ first d later, past = first ++ d :: later ∧ like d ∧
    answer ttlSeconds (run (record ttlSeconds) [] first) d = true ∧ now < d.now + seconds ttlSeconds

/-- A call of the sequence returns false exactly when an earlier one with the same device and the same nonce
returned true less than the time to live before it. -/
def Independent (ttlSeconds : ℤ) (calls : List NonceClaim) : Prop :=
  ∀ past c later, calls = past ++ c :: later →
    (answer ttlSeconds (run (record ttlSeconds) [] past) c = false ↔
      ClaimedBefore ttlSeconds (fun d => d.deviceId = c.deviceId ∧ d.nonce = c.nonce) past c.now)

variable {ttlSeconds : ℤ}

/-- A call returns false exactly while its key lives. -/
theorem answer_eq_false {redis : Redis} {c : NonceClaim} :
    answer ttlSeconds redis c = false ↔ redis.live (callKey c) c.now = true := by
  cases hlive : redis.live (callKey c) c.now <;> unfold callKey at hlive <;>
    simp [answer, claim, Redis.setNx, hlive]

/-- A call that returns false leaves the keys. -/
theorem record_of_false {redis : Redis} {c : NonceClaim} (h : answer ttlSeconds redis c = false) :
    record ttlSeconds redis c = redis := by
  rw [answer_eq_false, callKey] at h
  simp [record, claim, Redis.setNx, h]

/-- A call that returns true sets its key anew. -/
theorem record_of_true {redis : Redis} {c : NonceClaim} (h : answer ttlSeconds redis c = true) :
    record ttlSeconds redis c =
      ⟨callKey c, c.now + seconds ttlSeconds⟩ :: redis.filter fun entry => entry.name ≠ callKey c := by
  have hdead : redis.live (callKey c) c.now = false := by
    rw [← Bool.not_eq_true, ← @answer_eq_false ttlSeconds, h]
    decide
  unfold callKey at hdead ⊢
  simp [record, claim, Redis.setNx, hdead]

/-- After a call that returns true, its key lives for its time and every other key as before. -/
theorem live_record_of_true {redis : Redis} {c : NonceClaim} (h : answer ttlSeconds redis c = true) (name : String)
    (now : Time) : (record ttlSeconds redis c).live name now = true ↔
      if name = callKey c then now < c.now + seconds ttlSeconds else redis.live name now = true := by
  rw [record_of_true h]
  by_cases hname : name = callKey c
  · subst hname
    rw [if_pos rfl]
    simp only [Redis.live, List.any_cons, decide_true, Bool.true_and, Bool.or_eq_true, decide_eq_true_eq]
    refine or_iff_left fun hold => ?_
    obtain ⟨entry, hentry, hsame⟩ := List.any_eq_true.mp hold
    have hne := (List.mem_filter.mp hentry).2
    simp only [Bool.and_eq_true, decide_eq_true_eq] at hsame hne
    exact hne hsame.1
  · have hother : ¬callKey c = name := fun heq => hname heq.symm
    rw [if_neg hname]
    simp only [Redis.live, List.any_cons, List.any_filter]
    rw [decide_eq_false hother, Bool.false_and, Bool.false_or]
    refine Eq.to_iff (congrArg (· = true) (List.any_congr rfl fun entry => ?_))
    by_cases hentry : entry.name = name
    · simp [hentry, hname]
    · simp [hentry]

/-- What the calls so far and one more have claimed. -/
theorem claimedBefore_concat {like : NonceClaim → Prop} {past : List NonceClaim} {c : NonceClaim} {now : Time} :
    ClaimedBefore ttlSeconds like (past ++ [c]) now ↔
      ClaimedBefore ttlSeconds like past now ∨
        (like c ∧ answer ttlSeconds (run (record ttlSeconds) [] past) c = true ∧ now < c.now + seconds ttlSeconds) := by
  constructor
  · rintro ⟨first, d, later, hsplit, hd⟩
    rcases List.eq_nil_or_concat later with rfl | ⟨before, last, rfl⟩
    · obtain ⟨rfl, heq⟩ := List.append_inj' hsplit rfl
      injection heq with heq
      subst heq
      exact .inr hd
    · have hsplit' : past ++ [c] = (first ++ d :: before) ++ [last] := by
        rw [hsplit]
        simp
      obtain ⟨rfl, -⟩ := List.append_inj' hsplit' rfl
      exact .inl ⟨first, d, before, rfl, hd⟩
  · rintro (⟨first, d, later, rfl, hd⟩ | hc)
    · exact ⟨first, d, later ++ [c], by simp, hd⟩
    · exact ⟨past, c, [], rfl, hc⟩

/-- After calls at non-decreasing times a key lives exactly when one of them claimed it less than the time to live
ago. -/
theorem live_run_iff {past : List NonceClaim} (hordered : past.Pairwise fun c d => c.now ≤ d.now) (name : String)
    (now : Time) (hnow : ∀ c ∈ past, c.now ≤ now) :
    (run (record ttlSeconds) [] past).live name now = true ↔
      ClaimedBefore ttlSeconds (fun d => callKey d = name) past now := by
  induction past using List.reverseRecOn generalizing name now with
  | nil =>
    constructor
    · intro h
      cases h
    · rintro ⟨first, d, later, hsplit, -⟩
      exact absurd hsplit (by simp)
  | append_singleton past c ih =>
    obtain ⟨hpast, -, hlast⟩ := List.pairwise_append.mp hordered
    have hbefore : ∀ d ∈ past, d.now ≤ c.now := fun d hd => hlast d hd c List.mem_cons_self
    have hrest : ∀ d ∈ past, d.now ≤ now := fun d hd => hnow d (List.mem_append_left _ hd)
    have hc : c.now ≤ now := hnow c (List.mem_append_right _ List.mem_cons_self)
    rw [run_concat, claimedBefore_concat]
    cases hanswer : answer ttlSeconds (run (record ttlSeconds) [] past) c with
    | false =>
      rw [record_of_false hanswer, ih hpast name now hrest]
      simp
    | true =>
      rw [live_record_of_true hanswer]
      by_cases hname : name = callKey c
      · -- an earlier claim of this key has run out, since the call was not refused
        subst hname
        rw [if_pos rfl]
        constructor
        · intro hlive
          exact .inr ⟨rfl, rfl, hlive⟩
        · rintro (⟨first, d, later, hsplit, hkey, htrue, hlive⟩ | ⟨-, -, hlive⟩)
          · have hdead : ¬ClaimedBefore ttlSeconds (fun d => callKey d = callKey c) past c.now := by
              rw [← ih hpast (callKey c) c.now hbefore, ← @answer_eq_false ttlSeconds, hanswer]
              decide
            exact absurd ⟨first, d, later, hsplit, hkey, htrue, hc.trans_lt hlive⟩ hdead
          · exact hlive
      · rw [if_neg hname, ih hpast name now hrest]
        constructor
        · exact .inl
        · rintro (hold | ⟨hkey, -⟩)
          · exact hold
          · exact absurd hkey.symm hname

/-- A call at a non-decreasing time returns false exactly when an earlier one with its key returned true less than
the time to live before it. -/
theorem answer_eq_false_iff {past later : List NonceClaim} {c : NonceClaim}
    (hordered : (past ++ c :: later).Pairwise fun c d => c.now ≤ d.now) :
    answer ttlSeconds (run (record ttlSeconds) [] past) c = false ↔
      ClaimedBefore ttlSeconds (fun d => callKey d = callKey c) past c.now := by
  obtain ⟨hpast, -, hlast⟩ := List.pairwise_append.mp hordered
  rw [answer_eq_false]
  exact live_run_iff hpast (callKey c) c.now fun d hd => hlast d hd c List.mem_cons_self

/-- Two nonces of one key that are claimed at one time show that the key does not tell them apart. -/
theorem Independent.same {c d : NonceClaim} (hpos : 0 < ttlSeconds) (hkey : callKey c = callKey d) (htime : c.now = d.now)
    (h : Independent ttlSeconds [c, d]) : c.deviceId = d.deviceId ∧ c.nonce = d.nonce := by
  have hfirst : answer ttlSeconds (run (record ttlSeconds) [] []) c = true := by
    rw [← Bool.not_eq_false, answer_eq_false]
    exact Bool.false_ne_true
  have hlife : 0 < seconds ttlSeconds := Int.mul_pos hpos (by decide)
  have hrefused : answer ttlSeconds (run (record ttlSeconds) [] [c]) d = false := by
    rw [answer_eq_false]
    change (record ttlSeconds (run (record ttlSeconds) [] []) c).live (callKey d) d.now = true
    rw [live_record_of_true hfirst, if_pos hkey.symm, htime]
    exact lt_add_of_pos_right _ hlife
  obtain ⟨first, e, later, hsplit, hsame, -⟩ := (h [c] d [] rfl).mp hrefused
  have he : e ∈ [c] := by
    rw [hsplit]
    simp
  rw [List.mem_singleton.mp he] at hsame
  exact hsame

/-- The nonces of devices are independent exactly as far as their keys differ: over a set of devices and nonces,
every sequence of calls at non-decreasing times answers each pair by itself if and only if no two of the pairs have
one key. -/
theorem nonces_independent_iff (hpos : 0 < ttlSeconds) (ids : Set (String × String)) :
    (∀ calls : List NonceClaim, calls.Pairwise (fun c d => c.now ≤ d.now) →
      (∀ c ∈ calls, (c.deviceId, c.nonce) ∈ ids) → Independent ttlSeconds calls) ↔
      Set.InjOn (fun id : String × String => key id.1 id.2) ids := by
  constructor
  · intro h id hid id' hid' hkey
    let c : NonceClaim := ⟨id.1, id.2, 0⟩
    let d : NonceClaim := ⟨id'.1, id'.2, 0⟩
    have hindependent : Independent ttlSeconds [c, d] := by
      apply h
      · exact List.pairwise_pair.mpr le_rfl
      · intro e he
        rcases List.mem_pair.mp he with rfl | rfl
        · exact hid
        · exact hid'
    have hkeys : callKey c = callKey d := by
      unfold callKey
      exact hkey
    obtain ⟨hdevice, hnonce⟩ := Independent.same hpos hkeys rfl hindependent
    exact Prod.ext hdevice hnonce
  · rintro hinjective calls hordered hids past c later rfl
    rw [answer_eq_false_iff hordered]
    -- a call with the key of this one is a call with its device and nonce
    have hlike : ∀ d ∈ past, callKey d = callKey c ↔ d.deviceId = c.deviceId ∧ d.nonce = c.nonce := by
      intro d hd
      constructor
      · intro hkey
        have hd' := hids d (List.mem_append_left _ hd)
        have hc' := hids c (List.mem_append_right _ List.mem_cons_self)
        have hsame : (d.deviceId, d.nonce) = (c.deviceId, c.nonce) := hinjective hd' hc' hkey
        injection hsame with hdevice hnonce
        exact ⟨hdevice, hnonce⟩
      · rintro ⟨hdevice, hnonce⟩
        rw [callKey, callKey, hdevice, hnonce]
    constructor
    · rintro ⟨first, d, rest, rfl, hkey, hd⟩
      exact ⟨first, d, rest, rfl, (hlike d (List.mem_append_right _ List.mem_cons_self)).mp hkey, hd⟩
    · rintro ⟨first, d, rest, rfl, hsame, hd⟩
      exact ⟨first, d, rest, rfl, (hlike d (List.mem_append_right _ List.mem_cons_self)).mpr hsame, hd⟩

/-- A text is cut at its first colon in one way. -/
theorem key_injOn_colonFree : Set.InjOn (fun id : String × String => key id.1 id.2) {id | ':' ∉ id.1.toList} := by
  rintro ⟨d, n⟩ hd ⟨d', n'⟩ hd' hkey
  change ':' ∉ d.toList at hd
  change ':' ∉ d'.toList at hd'
  have hchars : d.toList ++ ':' :: n.toList = d'.toList ++ ':' :: n'.toList := by
    have h := congrArg String.toList hkey
    simp only [key, String.toList_append, List.append_assoc] at h
    exact List.append_cancel_left h
  obtain ⟨hdevice, hnonce⟩ := cut_unique hd hd' hchars
  exact Prod.ext (String.toList_inj.mp hdevice) (String.toList_inj.mp hnonce)

/-- Three calls with nonces of two devices. -/
def sampleClaims : List NonceClaim :=
  [⟨"device-1", "nonce-01", 0⟩, ⟨"device-1", "nonce-01", 1000000⟩, ⟨"device-2", "nonce-01", 1000000⟩]

/-- Devices without a colon in their identifiers have nonces of their own. -/
theorem nonces_independent_sample : Independent 900 sampleClaims := by
  have hordered : sampleClaims.Pairwise fun c d => c.now ≤ d.now := by decide
  have hcolonFree : ∀ c ∈ sampleClaims, ':' ∉ c.deviceId.toList := by decide
  exact (nonces_independent_iff (by decide) {id | ':' ∉ id.1.toList}).mpr key_injOn_colonFree sampleClaims hordered
    hcolonFree

/-- The lengths of a device's identifier and of a nonce that the verification endpoint admits. -/
def admitted (c : NonceClaim) : Bool :=
  3 ≤ c.deviceId.length && c.deviceId.length ≤ 64 && 8 ≤ c.nonce.length && c.nonce.length ≤ 64

/-- A device consumes the nonce of another whose identifier continues its own after a colon. -/
theorem not_nonces_independent :
    ¬∀ calls : List NonceClaim, calls.Pairwise (fun c d => c.now ≤ d.now) → (∀ c ∈ calls, admitted c = true) →
      Independent 900 calls := by
  intro hclaim
  have hindependent := hclaim [⟨"abc", "def:12345678", 0⟩, ⟨"abc:def", "12345678", 0⟩] (by decide) (by decide)
  have hlife : (0 : ℤ) < 900 := by decide
  have hkey : callKey ⟨"abc", "def:12345678", 0⟩ = callKey ⟨"abc:def", "12345678", 0⟩ := by decide
  obtain ⟨hdevice, -⟩ := Independent.same hlife hkey rfl hindependent
  exact absurd hdevice (by decide)

end ReplayGuard

end TaxStamp
