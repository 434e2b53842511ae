import Mathlib.Data.Rat.Defs
import Mathlib.Algebra.Order.Ring.Rat
import Mathlib.Data.List.Induction
import RetailPrintGuard.Library.Checks
import RetailPrintGuard.Library.RecentlyUsed
import RetailPrintGuard.Library.Sha256
import RetailPrintGuard.Library.SlidingWindow

/-! # The throttle of the logins

Failed logins are counted by the address they come from and by the account they
name, in buckets of bounded size and in bounded number. -/
namespace RetailPrintGuard.Api.Auth
open RetailPrintGuard.Library RetailPrintGuard.Library.Checks
open RetailPrintGuard.Library.BoundedMemory RetailPrintGuard.Library.SlidingWindow

structure LoginThrottle where
  limit : Nat
  window : ℚ
  delay : ℚ
  maximumBuckets : Nat
  events : List (String × List ℚ) := []

/-- `LoginThrottle.__init__` -/
def openThrottle (limit : Nat) (window delay : ℚ) (maximumBuckets : Nat) :
    Except String LoginThrottle := do
  raiseIf (maximumBuckets < 2) "maximum_buckets must be at least 2"
  return { limit, window, delay, maximumBuckets }

/-- What failures are counted by. -/
inductive Key where
  | ip (clientIp : String)
  /-- a name without its case -/
  | account (username : String)
  deriving DecidableEq

def Key.text : Key → String
  | .ip clientIp => "ip\x00" ++ clientIp
  | .account username => "account\x00" ++ username

def Key.digest (key : Key) : String := Sha256.hexdigest key.text.toUTF8.data.toList

/-- `LoginThrottle._keys`, for `str.casefold` -/
def keys (casefold : String → String) (clientIp username : String) : Key × Key :=
  (.ip clientIp, .account (casefold username))

/-- `LoginThrottle._bucket`, and what the caller does to the bucket. -/
def LoginThrottle.withBucket (throttle : LoginThrottle) (key : Key) (change : List ℚ → List ℚ) :
    LoginThrottle :=
  { throttle with
    events := RecentlyUsed.use throttle.maximumBuckets key.digest [] change throttle.events }

def LoginThrottle.bucket (throttle : LoginThrottle) (key : Key) : List ℚ :=
  (throttle.events.lookup key.digest).getD []

/-- An event is out of the window. -/
def LoginThrottle.expires (throttle : LoginThrottle) : Window ℚ where
  expired now time := throttle.window < now - time
  later := by
    intro now now' time hle hexpired
    rw [decide_eq_true_eq] at *
    exact hexpired.trans_le (sub_le_sub_right hle time)
  older := by
    intro now time time' hle hexpired
    rw [decide_eq_true_eq] at *
    exact hexpired.trans_le (sub_le_sub_left hle now)

/-- The loop of `retry_after`. -/
def LoginThrottle.retryKey (now : ℚ) (state : ℚ × LoginThrottle) (key : Key) : ℚ × LoginThrottle :=
  let (result, throttle) := state
  let throttle := throttle.withBucket key (prune throttle.expires now)
  match throttle.bucket key with
  -- the limit is at least 1
  | [] => (result, throttle)
  | first :: rest =>
    if throttle.limit ≤ (first :: rest).length then
      (max (max result throttle.delay) (throttle.window - (now - first)), throttle)
    else (result, throttle)

variable (casefold : String → String)

def LoginThrottle.retryAfter (throttle : LoginThrottle) (now : ℚ) (clientIp username : String) :
    ℚ × LoginThrottle :=
  let (ipKey, accountKey) := keys casefold clientIp username
  LoginThrottle.retryKey now (LoginThrottle.retryKey now (0, throttle) ipKey) accountKey

def LoginThrottle.failure (throttle : LoginThrottle) (now : ℚ) (clientIp username : String) :
    LoginThrottle :=
  let (ipKey, accountKey) := keys casefold clientIp username
  -- a bucket holds twice the limit
  let append := fun events => lastOf (throttle.limit * 2) (events ++ [now])
  (throttle.withBucket ipKey append).withBucket accountKey append

def LoginThrottle.success (throttle : LoginThrottle) (clientIp username : String) :
    LoginThrottle :=
  { throttle with
    events := RecentlyUsed.remove (keys casefold clientIp username).2.digest throttle.events }

/-! ## Calls -/

inductive Action where
  | retryAfter
  | failure
  | success
  deriving DecidableEq

structure Call where
  action : Action
  now : ℚ
  clientIp : String
  username : String

def LoginThrottle.call (throttle : LoginThrottle) (call : Call) : LoginThrottle :=
  match call.action with
  | .retryAfter => (throttle.retryAfter casefold call.now call.clientIp call.username).2
  | .failure => throttle.failure casefold call.now call.clientIp call.username
  | .success => throttle.success casefold call.clientIp call.username

def run (throttle : LoginThrottle) (calls : List Call) : LoginThrottle :=
  calls.foldl (LoginThrottle.call casefold) throttle

/-- The times of the failures of an address. -/
def ipFailures (calls : List Call) (clientIp : String) : List ℚ :=
  (calls.filter fun call => call.action = .failure ∧ call.clientIp = clientIp).map Call.now

/-- The calls after the last success of an account. -/
def sinceSuccess (calls : List Call) (account : String) : List Call :=
  (calls.reverse.takeWhile fun call =>
    ¬ (call.action = .success ∧ casefold call.username = account)).reverse

/-- The times of the failures of an account since its last success. -/
def accountFailures (calls : List Call) (account : String) : List ℚ :=
  ((sinceSuccess casefold calls account).filter fun call =>
    call.action = .failure ∧ casefold call.username = account).map Call.now

/-- How many of the times are in the window before a call. -/
def countWithin (window now : ℚ) (times : List ℚ) : Nat :=
  (times.filter fun time => now - time ≤ window).length

def keysOf (calls : List Call) : List Key :=
  calls.flatMap fun call => [(keys casefold call.clientIp call.username).1,
    (keys casefold call.clientIp call.username).2]

/-- No two of the texts that are hashed have one digest. -/
def CollisionFree (used : List Key) : Prop :=
  ∀ key ∈ used, ∀ other ∈ used, key.digest = other.digest → key.text = other.text

/-! ## Its buckets -/

variable {casefold} {throttle : LoginThrottle} {key other : Key} {change : List ℚ → List ℚ}
variable {now clock result : ℚ} {call : Call} {calls : List Call} {clientIp username : String}

theorem withBucket_length (hlimit : 1 ≤ throttle.maximumBuckets)
    (h : throttle.events.length ≤ throttle.maximumBuckets) :
    (throttle.withBucket key change).events.length ≤ throttle.maximumBuckets :=
  RecentlyUsed.length_use_le hlimit h

theorem retryKey_snd (result : ℚ) : (LoginThrottle.retryKey now (result, throttle) key).2 =
    throttle.withBucket key (prune throttle.expires now) := by
  unfold LoginThrottle.retryKey
  dsimp only
  split
  · rfl
  · split <;> rfl

/-- A call changes the buckets only. -/
theorem call_eq (casefold : String → String) (throttle : LoginThrottle) (call : Call) :
    throttle.call casefold call =
      { throttle with events := (throttle.call casefold call).events } := by
  unfold LoginThrottle.call
  split
  · unfold LoginThrottle.retryAfter
    dsimp only
    rw [retryKey_snd, retryKey_snd]
    rfl
  · rfl
  · rfl

theorem run_concat (casefold : String → String) (throttle : LoginThrottle) (calls : List Call)
    (call : Call) : run casefold throttle (calls ++ [call]) =
      (run casefold throttle calls).call casefold call := by
  rw [run, List.foldl_append]
  rfl

theorem run_eq (casefold : String → String) (throttle : LoginThrottle) (calls : List Call) :
    run casefold throttle calls =
      { throttle with events := (run casefold throttle calls).events } := by
  induction calls using List.reverseRecOn with
  | nil => rfl
  | append_singleton calls call ih =>
    rw [run_concat, call_eq, ih]

theorem call_length (hlimit : 1 ≤ throttle.maximumBuckets)
    (h : throttle.events.length ≤ throttle.maximumBuckets) :
    (throttle.call casefold call).events.length ≤ throttle.maximumBuckets := by
  unfold LoginThrottle.call
  split
  · unfold LoginThrottle.retryAfter
    dsimp only
    rw [retryKey_snd, retryKey_snd]
    exact withBucket_length hlimit (withBucket_length hlimit h)
  · exact withBucket_length hlimit (withBucket_length hlimit h)
  · exact RecentlyUsed.length_remove_le.trans h

theorem run_length (hlimit : 1 ≤ throttle.maximumBuckets)
    (h : throttle.events.length ≤ throttle.maximumBuckets) :
    (run casefold throttle calls).events.length ≤ throttle.maximumBuckets := by
  induction calls using List.reverseRecOn with
  | nil => exact h
  | append_singleton calls call ih =>
    have hsettings := congrArg LoginThrottle.maximumBuckets (run_eq casefold throttle calls)
    rw [run_concat]
    exact hsettings ▸ call_length (hsettings ▸ hlimit) (hsettings ▸ ih)

/-! ## What the buckets hold -/

/-- There is a bucket for every key that is used. -/
structure Fits (throttle : LoginThrottle) (used : List Key) : Prop where
  separate : ∀ key ∈ used, ∀ other ∈ used, key.digest = other.digest → key = other
  room : (used.map Key.digest).dedup.length ≤ throttle.maximumBuckets

/-- Every bucket follows what was recorded for its key. -/
structure Holds (throttle : LoginThrottle) (used : List Key) (clock : ℚ)
    (recorded : Key → List ℚ) : Prop where
  distinct : (throttle.events.map Prod.fst).Nodup
  known : throttle.events.map Prod.fst ⊆ used.map Key.digest
  tracks : ∀ key ∈ used, Tracks throttle.expires (throttle.limit * 2) clock (recorded key)
    (throttle.bucket key)

variable {used : List Key} {recorded recorded' : Key → List ℚ}

theorem Holds.later (h : Holds throttle used clock recorded) (hnow : clock ≤ now) :
    Holds throttle used now recorded :=
  ⟨h.distinct, h.known, fun key hkey => (h.tracks key hkey).later hnow⟩

theorem bucket_withBucket : (throttle.withBucket key change).bucket key =
    change (throttle.bucket key) := by
  rw [LoginThrottle.bucket, LoginThrottle.withBucket, RecentlyUsed.lookup_use_self]
  rfl

theorem Holds.withBucket (change : List ℚ → List ℚ) (h : Holds throttle used clock recorded)
    (hfits : Fits throttle used) (hkey : key ∈ used)
    (htracks : Tracks throttle.expires (throttle.limit * 2) clock (recorded' key)
      (change (throttle.bucket key)))
    (hother : ∀ other ∈ used, other ≠ key → recorded' other = recorded other) :
    Holds (throttle.withBucket key change) used clock recorded' where
  distinct := RecentlyUsed.nodup_use h.distinct
  known := List.Subset.trans RecentlyUsed.keys_use_subset
    (List.cons_subset.mpr ⟨List.mem_map_of_mem hkey, h.known⟩)
  tracks := by
    intro other hin
    obtain rfl | hne := eq_or_ne other key
    · rw [bucket_withBucket]
      exact htracks
    · have hdigest : other.digest ≠ key.digest :=
        fun heq => hne (hfits.separate other hin key hkey heq)
      have hroom := RecentlyUsed.length_lt_of_new h.distinct h.known (List.mem_map_of_mem hkey)
        hfits.room
      rw [hother other hin hne, LoginThrottle.bucket, LoginThrottle.withBucket,
        RecentlyUsed.lookup_use_of_ne hroom hdigest]
      exact h.tracks other hin

/-! ## What is recorded -/

/-- The failures that count for a key. -/
def failuresOf (casefold : String → String) (calls : List Call) : Key → List ℚ
  | .ip clientIp => ipFailures calls clientIp
  | .account account => accountFailures casefold calls account

theorem ipFailures_concat : ipFailures (calls ++ [call]) clientIp =
    ipFailures calls clientIp ++
      if call.action = .failure ∧ call.clientIp = clientIp then [call.now] else [] := by
  rw [ipFailures, List.filter_append, List.map_append, ← ipFailures]
  by_cases h : call.action = .failure ∧ call.clientIp = clientIp <;> simp [h]

theorem accountFailures_concat {account : String} :
    accountFailures casefold (calls ++ [call]) account =
      if call.action = .success ∧ casefold call.username = account then []
      else accountFailures casefold calls account ++
        if call.action = .failure ∧ casefold call.username = account then [call.now] else [] := by
  rw [accountFailures, sinceSuccess, List.reverse_append, List.reverse_singleton,
    List.singleton_append]
  by_cases hsuccess : call.action = .success ∧ casefold call.username = account
  · rw [List.takeWhile_cons_of_neg (by simp [hsuccess]), if_pos hsuccess]
    rfl
  · rw [List.takeWhile_cons_of_pos (by exact decide_eq_true hsuccess), if_neg hsuccess, List.reverse_cons,
      ← sinceSuccess, List.filter_append, List.map_append, ← accountFailures]
    by_cases h : call.action = .failure ∧ casefold call.username = account <;> simp [h]

theorem failuresOf_retryAfter (h : call.action = .retryAfter) :
    failuresOf casefold (calls ++ [call]) = failuresOf casefold calls := by
  funext key
  cases key with
  | ip clientIp => simp [failuresOf, ipFailures_concat, h]
  | account account => simp [failuresOf, accountFailures_concat, h]

theorem Holds.retryAfter (h : Holds throttle used now recorded) (hfits : Fits throttle used)
    (hip : (keys casefold clientIp username).1 ∈ used)
    (haccount : (keys casefold clientIp username).2 ∈ used) :
    Holds (throttle.retryAfter casefold now clientIp username).2 used now recorded := by
  have hpruned := h.withBucket (prune throttle.expires now) hfits hip
    (h.tracks _ hip).prune fun _ _ _ => rfl
  unfold LoginThrottle.retryAfter
  dsimp only
  rw [retryKey_snd, retryKey_snd]
  exact hpruned.withBucket (prune throttle.expires now) ⟨hfits.separate, hfits.room⟩
    haccount (hpruned.tracks _ haccount).prune fun _ _ _ => rfl

theorem Holds.failure (h : Holds throttle used call.now (failuresOf casefold calls))
    (hfits : Fits throttle used) (haction : call.action = .failure)
    (hip : (keys casefold call.clientIp call.username).1 ∈ used)
    (haccount : (keys casefold call.clientIp call.username).2 ∈ used) :
    Holds (throttle.failure casefold call.now call.clientIp call.username) used call.now
      (failuresOf casefold (calls ++ [call])) := by
  -- the address first: the account is recorded as before
  let middle : Key → List ℚ
    | .ip clientIp => ipFailures (calls ++ [call]) clientIp
    | .account account => accountFailures casefold calls account
  have hfirst : Holds (throttle.withBucket (keys casefold call.clientIp call.username).1
      fun events => lastOf (throttle.limit * 2) (events ++ [call.now])) used call.now middle := by
    refine h.withBucket _ hfits hip ?_ fun other _ hne => ?_
    · have hrecorded : middle (keys casefold call.clientIp call.username).1 =
          ipFailures calls call.clientIp ++ [call.now] := by
        simp [middle, keys, ipFailures_concat, haction]
      rw [hrecorded]
      exact (h.tracks _ hip).record
    · cases other with
      | account account => rfl
      | ip clientIp =>
        have hother : call.clientIp ≠ clientIp := fun heq => hne (by rw [keys, heq])
        simp [middle, failuresOf, ipFailures_concat, hother]
  refine hfirst.withBucket _ ⟨hfits.separate, hfits.room⟩ haccount ?_ fun other _ hne => ?_
  · have hrecorded : failuresOf casefold (calls ++ [call]) (.account (casefold call.username)) =
        middle (.account (casefold call.username)) ++ [call.now] := by
      simp [middle, failuresOf, accountFailures_concat, haction]
    rw [hrecorded]
    exact (hfirst.tracks _ haccount).record
  · cases other with
    | ip clientIp => rfl
    | account account =>
      have hother : casefold call.username ≠ account := fun heq => hne (by rw [heq])
      simp [middle, failuresOf, accountFailures_concat, hother]

theorem Holds.success (h : Holds throttle used call.now (failuresOf casefold calls))
    (hfits : Fits throttle used) (haction : call.action = .success)
    (haccount : (keys casefold call.clientIp call.username).2 ∈ used) :
    Holds (throttle.success casefold call.clientIp call.username) used call.now
      (failuresOf casefold (calls ++ [call])) where
  distinct := RecentlyUsed.nodup_remove h.distinct
  known := List.Subset.trans ((List.filter_sublist.map _).subset) h.known
  tracks := by
    intro key hkey
    unfold LoginThrottle.bucket LoginThrottle.success
    obtain rfl | hne := eq_or_ne key (keys casefold call.clientIp call.username).2
    · have hrecorded : failuresOf casefold (calls ++ [call])
          (keys casefold call.clientIp call.username).2 = [] := by
        simp [keys, failuresOf, accountFailures_concat, haction]
      rw [hrecorded, RecentlyUsed.lookup_remove_self]
      exact tracks_nil _ _
    · have hdigest : key.digest ≠ (keys casefold call.clientIp call.username).2.digest :=
        fun heq => hne (hfits.separate key hkey _ haccount heq)
      have hrecorded : failuresOf casefold (calls ++ [call]) key = failuresOf casefold calls key := by
        cases key with
        | ip clientIp => simp [failuresOf, ipFailures_concat, haction]
        | account account =>
          have hother : casefold call.username ≠ account := fun heq => hne (by rw [keys, heq])
          simp [failuresOf, accountFailures_concat, haction, hother]
      rw [hrecorded, RecentlyUsed.lookup_remove_of_ne hdigest]
      exact h.tracks key hkey

/-! ## The throttle is exact -/

/-- The keys of the calls have a bucket each, and none shares a digest. -/
theorem fits_of_calls (hfree : CollisionFree used)
    (hroom : used.dedup.length ≤ throttle.maximumBuckets) : Fits throttle used where
  separate := by
    intro key hkey other hother hdigest
    have htext := congrArg String.toList (hfree key hkey other hother hdigest)
    cases key with
    | ip clientIp =>
      cases other with
      | ip clientIp' =>
        rw [Key.text, Key.text, String.toList_append, String.toList_append] at htext
        rw [String.toList_inj.mp (List.append_cancel_left htext)]
      | account account =>
        rw [Key.text, Key.text, String.toList_append, String.toList_append] at htext
        exact absurd (List.head_eq_of_cons_eq htext) (by decide)
    | account account =>
      cases other with
      | ip clientIp =>
        rw [Key.text, Key.text, String.toList_append, String.toList_append] at htext
        exact absurd (List.head_eq_of_cons_eq htext) (by decide)
      | account account' =>
        rw [Key.text, Key.text, String.toList_append, String.toList_append] at htext
        rw [String.toList_inj.mp (List.append_cancel_left htext)]
  room := by
    have hsubset : (used.map Key.digest).dedup ⊆ used.dedup.map Key.digest := by
      intro digest hin
      obtain ⟨key, hkey, rfl⟩ := List.mem_map.mp (List.mem_dedup.mp hin)
      exact List.mem_map_of_mem (List.mem_dedup.mpr hkey)
    have hlength := ((List.nodup_dedup _).subperm hsubset).length_le
    rw [List.length_map] at hlength
    exact hlength.trans hroom

theorem Holds.run (hfits : Fits throttle used) (hempty : throttle.events = [])
    (hused : ∀ call ∈ calls, (keys casefold call.clientIp call.username).1 ∈ used ∧
      (keys casefold call.clientIp call.username).2 ∈ used)
    (hordered : (calls.map Call.now).Pairwise (· ≤ ·)) (hpast : ∀ call ∈ calls, call.now ≤ clock) :
    Holds (run casefold throttle calls) used clock (failuresOf casefold calls) := by
  induction calls using List.reverseRecOn generalizing clock with
  | nil =>
    have hnone : failuresOf casefold [] = fun _ => [] := by
      funext key
      cases key <;> rfl
    rw [hnone]
    refine ⟨by rw [Auth.run, List.foldl_nil, hempty]; exact List.nodup_nil,
      by rw [Auth.run, List.foldl_nil, hempty]; exact List.nil_subset _, fun key _ => ?_⟩
    rw [LoginThrottle.bucket, Auth.run, List.foldl_nil, hempty]
    exact tracks_nil _ _
  | append_singleton calls call ih =>
    rw [List.map_append, List.pairwise_append] at hordered
    obtain ⟨hip, haccount⟩ := hused call List.mem_concat_self
    have hbefore : ∀ earlier ∈ calls, earlier.now ≤ call.now := fun earlier hin =>
      hordered.2.2 _ (List.mem_map_of_mem hin) _ (List.mem_singleton_self _)
    have hheld := ih (fun earlier hin => hused earlier (List.mem_append_left _ hin)) hordered.1
      hbefore
    have hfits : Fits (Auth.run casefold throttle calls) used := by
      rw [run_eq]
      exact ⟨hfits.separate, hfits.room⟩
    refine Holds.later ?_ (hpast call List.mem_concat_self)
    rw [run_concat, LoginThrottle.call]
    cases haction : call.action with
    | retryAfter =>
      rw [failuresOf_retryAfter haction]
      exact hheld.retryAfter hfits hip haccount
    | failure => exact hheld.failure hfits haction hip haccount
    | success => exact hheld.success hfits haction haccount

/-- A key holds the next login back exactly when its failures reach the limit. -/
theorem Holds.retryKey_pos (result : ℚ) (h : Holds throttle used now recorded)
    (hlimit : 1 ≤ throttle.limit) (hdelay : 0 < throttle.delay) (hkey : key ∈ used) :
    0 < (LoginThrottle.retryKey now (result, throttle) key).1 ↔
      0 < result ∨ throttle.limit ≤ (recent throttle.expires now (recorded key)).length := by
  have hreached := (h.tracks key hkey).reached_iff
    (show throttle.limit ≤ throttle.limit * 2 by omega)
  unfold LoginThrottle.retryKey
  dsimp only
  rw [bucket_withBucket, ← hreached]
  split
  · next hnone =>
    rw [hnone]
    exact (or_iff_left (by simpa using Nat.ne_of_gt hlimit)).symm
  · next first rest hsome =>
    rw [hsome]
    split
    · next hmany =>
      exact iff_of_true (lt_max_of_lt_left (lt_max_of_lt_right hdelay)) (Or.inr hmany)
    · next hfew => exact (or_iff_left hfew).symm

theorem length_recent (throttle : LoginThrottle) (now : ℚ) (times : List ℚ) :
    (recent throttle.expires now times).length = countWithin throttle.window now times := by
  unfold recent countWithin LoginThrottle.expires
  congr 1
  refine List.filter_congr fun time _ => ?_
  rw [Bool.eq_iff_iff]
  simp

/-- **The throttle is an exact sliding window** for as many keys as it has buckets
for, and never has more buckets than that. -/
theorem retry_after_exact (casefold : String → String) (limit : Nat) (window delay : ℚ)
    (maximumBuckets : Nat) (throttle : LoginThrottle)
    (hopened : openThrottle limit window delay maximumBuckets = .ok throttle) :
    (∀ calls, (run casefold throttle calls).events.length ≤ maximumBuckets) ∧
    ∀ (calls : List Call) (query : Call), 1 ≤ limit → 0 < delay →
      ((calls ++ [query]).map Call.now).Pairwise (· ≤ ·) →
      (keysOf casefold (calls ++ [query])).dedup.length ≤ maximumBuckets →
      CollisionFree (keysOf casefold (calls ++ [query])) →
      (0 < ((run casefold throttle calls).retryAfter casefold query.now query.clientIp
          query.username).1 ↔
        limit ≤ countWithin window query.now (ipFailures calls query.clientIp) ∨
          limit ≤ countWithin window query.now
            (accountFailures casefold calls (casefold query.username))) := by
  obtain ⟨_, hmaximum, hopened⟩ := bind_eq_ok.mp hopened
  obtain rfl := pure_eq_ok.mp hopened
  have hmaximum := raiseIf_eq_ok.mp hmaximum
  refine ⟨fun calls => run_length (by dsimp only; omega) (Nat.zero_le _), ?_⟩
  intro calls query hlimit hdelay hordered hroom hfree
  set used := keysOf casefold (calls ++ [query])
  have hused : ∀ call ∈ calls ++ [query], (keys casefold call.clientIp call.username).1 ∈ used ∧
      (keys casefold call.clientIp call.username).2 ∈ used :=
    fun call hin => ⟨List.mem_flatMap.mpr ⟨call, hin, by simp⟩,
      List.mem_flatMap.mpr ⟨call, hin, by simp⟩⟩
  obtain ⟨hip, haccount⟩ := hused query List.mem_concat_self
  rw [List.map_append, List.pairwise_append] at hordered
  have hfits := @fits_of_calls ⟨limit, window, delay, maximumBuckets, []⟩ used hfree hroom
  have hheld : Holds (run casefold ⟨limit, window, delay, maximumBuckets, []⟩ calls) used query.now
      (failuresOf casefold calls) :=
    Holds.run hfits rfl (fun call hin => hused call (List.mem_append_left _ hin)) hordered.1
      fun call hin => hordered.2.2 _ (List.mem_map_of_mem hin) _ (List.mem_singleton_self _)
  rw [run_eq] at hheld ⊢
  set throttle : LoginThrottle := ⟨limit, window, delay, maximumBuckets, _⟩
  have hpruned := hheld.withBucket (prune throttle.expires query.now)
    ⟨hfits.separate, hfits.room⟩ hip (hheld.tracks _ hip).prune fun _ _ _ => rfl
  have hsecond := hpruned.retryKey_pos
    (LoginThrottle.retryKey query.now (0, throttle) (.ip query.clientIp)).1 hlimit hdelay haccount
  have hfirst := hheld.retryKey_pos 0 hlimit hdelay hip
  have hsplit : LoginThrottle.retryKey query.now (0, throttle) (.ip query.clientIp) =
      ((LoginThrottle.retryKey query.now (0, throttle) (.ip query.clientIp)).1,
        throttle.withBucket (.ip query.clientIp) (prune throttle.expires query.now)) :=
    Prod.ext rfl (retryKey_snd 0)
  rw [← length_recent throttle, ← length_recent throttle]
  unfold LoginThrottle.retryAfter keys
  dsimp only
  rw [hsplit]
  refine hsecond.trans (or_congr_left (hfirst.trans ?_))
  exact or_iff_right (lt_irrefl 0)

/-- The case of the letters of ASCII. -/
def asciiCasefold (text : String) : String := String.ofList (text.toList.map Char.toLower)

/-- Two failures of one account, under two spellings. -/
def sampleCalls : List Call := [
  ⟨.failure, 0, "10.0.0.1", "Anna"⟩,
  ⟨.failure, 10, "10.0.0.1", "anna"⟩]

def sampleQuery : Call := ⟨.retryAfter, 20, "10.0.0.1", "ANNA"⟩

theorem retry_after_exact_sample : ∃ throttle, openThrottle 2 300 2 2 = .ok throttle ∧
    0 < ((run asciiCasefold throttle sampleCalls).retryAfter asciiCasefold 20 "10.0.0.1"
      "ANNA").1 := by
  obtain ⟨-, hexact⟩ := retry_after_exact asciiCasefold 2 300 2 2 ⟨2, 300, 2, 2, []⟩ rfl
  refine ⟨_, rfl, (hexact sampleCalls sampleQuery (by decide) (by decide) (by decide)
    (by decide +kernel) ?_).mpr (Or.inl (by decide +kernel))⟩
  unfold CollisionFree
  decide +kernel

end RetailPrintGuard.Api.Auth
