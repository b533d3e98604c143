import Mathlib.Data.Char
import Mathlib.Data.List.Lex
import Mathlib.Data.Prod.Lex
import ScuffedCrew.Database.Ordered
import ScuffedCrew.Rust.HashMap
import ScuffedCrew.Rust.Numeric
import ScuffedCrew.Rust.Text
import ScuffedCrew.StateMachine.Loop

/-!
# The boards of the leaderboard cache

The entries of the cache with the order in which they were used last, the
flights in the air, and the stale keys waiting for a refresh slot.
-/

namespace ScuffedCrew.Leaderboard

open Rust StateMachine

/-- Past this many TTLs a request waits for the refresh instead of taking the stale board. -/
def maxStaleFactor : ℕ := 10

def jitterMin : ℕ := 800
def jitterMax : ℕ := 1200
def backoffMin : ℕ := 250
def backoffMax : ℕ := 1000

def minMaxScans : ℕ := 1
def maxMaxScans : ℕ := 8

inductive LeaderboardAudience
  | publicAudience
  | crew
  deriving DecidableEq

/-- The place of an audience in the order of the keys. -/
def LeaderboardAudience.rank : LeaderboardAudience → ℕ
  | .publicAudience => 0
  | .crew => 1

/-- Everything that changes a stored board. -/
structure LeaderboardKey where
  audience : LeaderboardAudience
  metric : Text
  limit : ℕ
  seasonId : Text
  hero : Text
  deriving DecidableEq

namespace LeaderboardKey

/-- The fields in the order in which keys are compared. -/
def fields (key : LeaderboardKey) : ℕ ×ₗ Text ×ₗ ℕ ×ₗ Text ×ₗ Text :=
  toLex (key.audience.rank, toLex (key.metric, toLex (key.limit, toLex (key.seasonId, key.hero))))

theorem fields_injective : Function.Injective fields := by
  rintro ⟨audience, metric, limit, seasonId, hero⟩ ⟨audience', metric', limit', seasonId', hero'⟩ same
  simp only [fields, EmbeddingLike.apply_eq_iff_eq, Prod.mk.injEq] at same
  rcases same with ⟨ranks, rfl, rfl, rfl, rfl⟩
  cases audience <;> cases audience' <;> first | rfl | cases ranks

instance : LinearOrder LeaderboardKey := LinearOrder.lift' fields fields_injective

end LeaderboardKey

/-- A stored board, with the wall time when its load started. -/
structure CachedBoard (Rows : Type) where
  rows : Rows
  cachedAt : ℤ

structure Entry (Rows : Type) where
  board : CachedBoard Rows
  storedAtMs : ℕ
  freshForMs : ℕ
  nextRefreshMs : ℕ

/-- The key its `launch` leads. -/
structure QueuedRefresh where
  key : LeaderboardKey

/-- A place in the queue for a refresh slot, oldest board first. -/
abbrev WaitKey := ℕ ×ₗ LeaderboardKey

abbrev RefreshWait := Database.Ordered WaitKey QueuedRefresh

structure Inner (Rows : Type) where
  order : List LeaderboardKey
  entries : HashMap LeaderboardKey (Entry Rows)
  inflight : HashMap LeaderboardKey ℕ
  refreshWait : RefreshWait

variable {Rows : Type}

def Inner.empty : Inner Rows := ⟨[], ∅, ∅, ⟨[], .nil⟩⟩

def touch (inner : Inner Rows) (key : LeaderboardKey) : Inner Rows :=
  if key ∈ inner.order then { inner with order := inner.order.erase key ++ [key] } else inner

/-- One round of the `while` loop of `store`. -/
def evict (maxEntries : ℕ) (inner : Inner Rows) : Option (Inner Rows) :=
  if maxEntries ≤ HashMap.len inner.entries then
    match inner.order with
    | [] => none
    | old :: order => some { inner with order, entries := inner.entries.erase old }
  else none

def makeRoom (maxEntries : ℕ) (inner : Inner Rows) : Inner Rows :=
  loop (evict maxEntries) inner.order.length inner

def store (inner : Inner Rows) (maxEntries : ℕ) (key : LeaderboardKey) (entry : Entry Rows) :
    Inner Rows :=
  if key ∈ inner.entries then
    { touch inner key with entries := inner.entries.insert key entry }
  else
    let room := makeRoom maxEntries inner
    { room with
      order := room.order ++ [key]
      entries := room.entries.insert key entry }

/-- Background refreshes leave one slot to the blocking reads, where there is more than one. -/
def refreshSlots (maxScans : ℕ) : ℕ := max (maxScans - 1) 1

def freshForMs (ttlMs jitterMillis : ℕ) : ℕ :=
  let jitter := min (max jitterMillis jitterMin) jitterMax
  saturatingMul 64 ttlMs jitter / 1000

/-! ## Recency -/

/-- The recency list holds the keys of the entries, each once. -/
structure Listed (inner : Inner Rows) : Prop where
  nodup : inner.order.Nodup
  mem_iff : ∀ key, key ∈ inner.order ↔ key ∈ inner.entries

variable {inner next : Inner Rows} {key other : LeaderboardKey} {entry : Entry Rows}
  {maxEntries : ℕ}

theorem listed_empty : Listed (Inner.empty : Inner Rows) :=
  ⟨.nil, fun key => by simp [Inner.empty]⟩

@[simp]
theorem touch_entries (inner : Inner Rows) (key : LeaderboardKey) :
    (touch inner key).entries = inner.entries := by
  unfold touch
  split <;> rfl

@[simp]
theorem touch_inflight : (touch inner key).inflight = inner.inflight := by
  unfold touch
  split <;> rfl

@[simp]
theorem touch_refreshWait : (touch inner key).refreshWait = inner.refreshWait := by
  unfold touch
  split <;> rfl

theorem Listed.touch (listed : Listed inner) : Listed (touch inner key) := by
  unfold Leaderboard.touch
  split
  next used =>
    have moved : (inner.order.erase key ++ [key]).Perm inner.order :=
      List.perm_append_comm.trans (List.perm_cons_erase used).symm
    exact ⟨moved.nodup_iff.mpr listed.nodup, fun other => (moved.mem_iff).trans (listed.mem_iff other)⟩
  next => exact listed

theorem Listed.evict (listed : Listed inner) (evicts : evict maxEntries inner = some next) :
    Listed next := by
  unfold Leaderboard.evict at evicts
  split at evicts
  next =>
    split at evicts
    next => cases evicts
    next old order shape =>
      rcases Option.some.inj evicts with rfl
      have nodup := listed.nodup
      rw [shape, List.nodup_cons] at nodup
      refine ⟨nodup.2, fun other => ?_⟩
      have found := listed.mem_iff other
      rw [shape, List.mem_cons] at found
      rw [AList.mem_erase, ← found]
      constructor
      · intro later
        exact ⟨fun same => nodup.1 (same ▸ later), .inr later⟩
      · rintro ⟨differs, same | later⟩
        · exact absurd same differs
        · exact later
  next => cases evicts

/-- What a round of the loop leaves as it was. -/
theorem evict_keeps (evicts : evict maxEntries inner = some next) :
    next.inflight = inner.inflight ∧ next.refreshWait = inner.refreshWait ∧
      (∀ other entry, next.entries.lookup other = some entry →
        inner.entries.lookup other = some entry) ∧
      next.order.length + 1 = inner.order.length := by
  unfold evict at evicts
  split at evicts
  next =>
    split at evicts
    next => cases evicts
    next old order shape =>
      rcases Option.some.inj evicts with rfl
      refine ⟨rfl, rfl, ?_, by rw [shape]; rfl⟩
      intro other entry found
      rw [HashMap.lookup_erase'] at found
      split at found
      next => cases found
      next => exact found
  next => cases evicts

theorem Listed.makeRoom (listed : Listed inner) : Listed (makeRoom maxEntries inner) :=
  loop_invariant Listed listed fun evicts before => before.evict evicts

theorem makeRoom_keeps : (makeRoom maxEntries inner).inflight = inner.inflight ∧
    (makeRoom maxEntries inner).refreshWait = inner.refreshWait ∧
      ∀ other entry, (makeRoom maxEntries inner).entries.lookup other = some entry →
        inner.entries.lookup other = some entry := by
  apply loop_invariant fun room : Inner Rows => room.inflight = inner.inflight ∧
    room.refreshWait = inner.refreshWait ∧ ∀ other entry,
      room.entries.lookup other = some entry → inner.entries.lookup other = some entry
  · exact ⟨rfl, rfl, fun _ _ found => found⟩
  · rintro state next evicts ⟨inflight, waiting, entries⟩
    rcases evict_keeps evicts with ⟨inflight', waiting', entries', -⟩
    exact ⟨inflight'.trans inflight, waiting'.trans waiting,
      fun other entry found => entries other entry (entries' other entry found)⟩

/-- The loop of `store` makes room when the recency list has all the keys. -/
theorem len_makeRoom_lt (listed : Listed inner) (positive : 0 < maxEntries) :
    HashMap.len (makeRoom maxEntries inner).entries < maxEntries := by
  have leaves : evict maxEntries (makeRoom maxEntries inner) = none :=
    loop_leaves (fun room => room.order.length)
      (fun evicts => by have shorter := (evict_keeps evicts).2.2.2; omega) (Nat.le_refl _)
  have room : Listed (makeRoom maxEntries inner) := listed.makeRoom
  unfold evict at leaves
  split at leaves
  next full =>
    split at leaves
    next shape =>
      -- An empty recency list means an empty map, which is not full.
      exfalso
      have nothing : (makeRoom maxEntries inner).entries = ∅ := by
        apply AList.ext
        apply List.eq_nil_iff_forall_not_mem.mpr
        intro entry entry_mem
        have listed_key := (room.mem_iff entry.1).mpr (List.mem_keys_of_mem entry_mem)
        simp [shape] at listed_key
      rw [nothing] at full
      have none_there : HashMap.len (∅ : HashMap LeaderboardKey (Entry Rows)) = 0 := rfl
      omega
    next => cases leaves
  next short => omega

theorem makeRoom_absent (absent : key ∉ inner.entries) :
    (makeRoom maxEntries inner).entries.lookup key = none := by
  cases found : (makeRoom maxEntries inner).entries.lookup key with
  | none => rfl
  | some entry =>
      have stored := makeRoom_keeps.2.2 key entry found
      exact absurd (AList.lookup_isSome.mp (by simp [stored])) absent

@[simp]
theorem store_inflight : (store inner maxEntries key entry).inflight = inner.inflight := by
  unfold store
  split
  · exact touch_inflight
  · exact makeRoom_keeps.1

@[simp]
theorem store_refreshWait : (store inner maxEntries key entry).refreshWait = inner.refreshWait := by
  unfold store
  split
  · exact touch_refreshWait
  · exact makeRoom_keeps.2.1

theorem lookup_store {found : Entry Rows}
    (stored : (store inner maxEntries key entry).entries.lookup other = some found) :
    other = key ∧ found = entry ∨ other ≠ key ∧ inner.entries.lookup other = some found := by
  unfold store at stored
  split at stored
  · rw [HashMap.lookup_insert'] at stored
    split at stored
    next same => exact .inl ⟨same, (Option.some.inj stored).symm⟩
    next differs => exact .inr ⟨differs, stored⟩
  · rw [HashMap.lookup_insert'] at stored
    split at stored
    next same => exact .inl ⟨same, (Option.some.inj stored).symm⟩
    next differs => exact .inr ⟨differs, makeRoom_keeps.2.2 other found stored⟩

theorem Listed.store (listed : Listed inner) : Listed (store inner maxEntries key entry) := by
  unfold Leaderboard.store
  split
  next held =>
    refine ⟨listed.touch.nodup, fun other => ?_⟩
    rw [AList.mem_insert, ← touch_entries inner key, listed.touch.mem_iff]
    constructor
    · exact .inr
    · rintro (rfl | there)
      · simpa using held
      · exact there
  next absent =>
    have room : Listed (Leaderboard.makeRoom maxEntries inner) := listed.makeRoom
    have unlisted : key ∉ (Leaderboard.makeRoom maxEntries inner).order := by
      rw [room.mem_iff]
      exact AList.lookup_eq_none.mp (makeRoom_absent absent)
    refine ⟨List.nodup_append.mpr ⟨room.nodup, by simp, ?_⟩, fun other => ?_⟩
    · intro listed_key listed_mem last last_mem same
      rcases List.mem_singleton.mp last_mem with rfl
      exact unlisted (same ▸ listed_mem)
    · rw [AList.mem_insert, List.mem_append, room.mem_iff, List.mem_singleton]
      exact or_comm

theorem len_store_le (listed : Listed inner) (positive : 0 < maxEntries)
    (fits : HashMap.len inner.entries ≤ maxEntries) :
    HashMap.len (Leaderboard.store inner maxEntries key entry).entries ≤ maxEntries := by
  unfold Leaderboard.store
  split
  next held =>
    rcases Option.isSome_iff_exists.mp (AList.lookup_isSome.mpr held) with ⟨old, found⟩
    have same := HashMap.total_insert_of_lookup (fun _ => 1) found entry
    simp only [HashMap.len_eq_total] at fits ⊢
    omega
  next absent =>
    have short := len_makeRoom_lt listed positive
    rw [HashMap.len_insert_of_none (makeRoom_absent absent)]
    omega

end ScuffedCrew.Leaderboard
