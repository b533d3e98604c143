import ScuffedCrew.Rust.HashMap
import ScuffedCrew.Rust.Numeric
import ScuffedCrew.StateMachine.Meter
import ScuffedCrew.StateMachine.Run

/-!
# The limits of the gate

Connections and messages per client address.  A bucket that is absent counts as
an empty one.
-/

namespace ScuffedCrew.RelayPolicy

open Rust StateMachine

inductive IpAddr
  | v4 (bits : BitVec 32)
  | v6 (bits : BitVec 128)
  deriving DecidableEq

structure Bucket where
  connections : ℕ
  connTimes : List Instant
  msgTimes : List Instant
  deriving DecidableEq

namespace Bucket

def empty : Bucket := ⟨0, [], []⟩

variable (bucket : Bucket)

def prune (now : Instant) (window : Duration) : Bucket :=
  { bucket with
    connTimes := bucket.connTimes.dropWhile fun stamp => decide (window < now - stamp)
    msgTimes := bucket.msgTimes.dropWhile fun stamp => decide (window < now - stamp) }

def idle : Bool := bucket.connections == 0 && bucket.connTimes.isEmpty && bucket.msgTimes.isEmpty

theorem eq_empty_of_idle {bucket : Bucket} (idle : bucket.idle = true) : bucket = empty := by
  rcases bucket with ⟨connections, connTimes, msgTimes⟩
  simp only [Bucket.idle, Bool.and_eq_true, beq_iff_eq, List.isEmpty_iff] at idle
  simp [empty, idle]

end Bucket

structure GateLimits where
  maxConnections : ℕ
  maxNewPerWindow : ℕ
  maxMessagesPerWindow : ℕ
  window : Duration

abbrev Buckets := HashMap IpAddr Bucket

/-- `entry(ip).or_insert_with(…)`. -/
def bucketOf (buckets : Buckets) (ip : IpAddr) : Bucket := (buckets.lookup ip).getD .empty

namespace GateLimits

variable (limits : GateLimits) (buckets : Buckets) (ip : IpAddr) (now : Instant)

/-- Whether the connection is admitted. -/
def tryAdmit : Bool × Buckets :=
  let bucket := (bucketOf buckets ip).prune now limits.window
  let bucket := { bucket with connTimes := bucket.connTimes ++ [now] }
  if limits.maxNewPerWindow < bucket.connTimes.length ∨
      limits.maxConnections ≤ bucket.connections then
    (false, buckets.insert ip bucket)
  else (true, buckets.insert ip { bucket with connections := bucket.connections + 1 })

def allowMessage : Bool × Buckets :=
  let bucket := (bucketOf buckets ip).prune now limits.window
  if limits.maxMessagesPerWindow ≤ bucket.msgTimes.length then (false, buckets.insert ip bucket)
  else (true, buckets.insert ip { bucket with msgTimes := bucket.msgTimes ++ [now] })

/-- `Drop` of an admission. -/
def drop : Buckets :=
  match buckets.lookup ip with
  | none => buckets
  | some bucket =>
      let bucket := { bucket with connections := bucket.connections - 1 }.prune now limits.window
      if bucket.idle then buckets.erase ip else buckets.insert ip bucket

end GateLimits

/-! ## What a call does to the buckets -/

section

variable {buckets : Buckets} {ip other : IpAddr} {limits : GateLimits} {now : Instant}

theorem bucketOf_insert {bucket : Bucket} :
    bucketOf (buckets.insert ip bucket) other =
      if other = ip then bucket else bucketOf buckets other := by
  rw [bucketOf, HashMap.lookup_insert']
  split <;> rfl

theorem bucketOf_erase :
    bucketOf (buckets.erase ip) other = if other = ip then .empty else bucketOf buckets other := by
  rw [bucketOf, HashMap.lookup_erase']
  split <;> rfl

theorem bucketOf_tryAdmit :
    bucketOf (limits.tryAdmit buckets ip now).2 other =
      if other = ip then
        let bucket := (bucketOf buckets ip).prune now limits.window
        ⟨bucket.connections + (limits.tryAdmit buckets ip now).1.toNat, bucket.connTimes ++ [now],
          bucket.msgTimes⟩
      else bucketOf buckets other := by
  rw [GateLimits.tryAdmit]
  split <;> simp [bucketOf_insert]

theorem bucketOf_allowMessage :
    bucketOf (limits.allowMessage buckets ip now).2 other =
      if other = ip then
        let bucket := (bucketOf buckets ip).prune now limits.window
        ⟨bucket.connections, bucket.connTimes,
          if (limits.allowMessage buckets ip now).1 then bucket.msgTimes ++ [now]
          else bucket.msgTimes⟩
      else bucketOf buckets other := by
  rw [GateLimits.allowMessage]
  split <;> simp [bucketOf_insert]

theorem bucketOf_drop :
    bucketOf (limits.drop buckets ip now) other =
      if other = ip then
        let bucket := (bucketOf buckets ip).prune now limits.window
        ⟨bucket.connections - 1, bucket.connTimes, bucket.msgTimes⟩
      else bucketOf buckets other := by
  rw [GateLimits.drop]
  split
  next absent =>
    split
    next same =>
      subst same
      have nothing : bucketOf buckets other = .empty := by rw [bucketOf, absent, Option.getD_none]
      rw [nothing]
      rfl
    next => rfl
  next bucket found =>
    have here : bucketOf buckets ip = bucket := by rw [bucketOf, found, Option.getD_some]
    rw [here]
    simp only
    split
    next idle =>
      rw [bucketOf_erase, ← Bucket.eq_empty_of_idle idle]
      rfl
    next =>
      rw [bucketOf_insert]
      rfl

end

end ScuffedCrew.RelayPolicy
