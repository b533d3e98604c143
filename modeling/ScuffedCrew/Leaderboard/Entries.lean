import ScuffedCrew.Leaderboard.Permits

/-!
# The entries

The boards stored are as many as the cache may hold, the recency list has their
keys, and a board is only replaced by one whose query started later.
-/

namespace ScuffedCrew.Leaderboard

open Rust StateMachine

variable {Rows Error : Type}

/-- The key a call is loading, and when its query started. -/
def Call.loading? : Call Rows Error → Option (LeaderboardKey × ℕ)
  | load key _ _ startedMs _ _ => some (key, startedMs)
  | _ => none

theorem Call.leads_of_loading {call : Call Rows Error} {key : LeaderboardKey} {startedMs : ℕ}
    (loading : call.loading? = some (key, startedMs)) :
    ∃ flight, call.leads? = some (key, flight) := by
  cases call with
  | load key' flight refresh startedMs' started freshForMs =>
      rcases Prod.mk.inj (Option.some.inj loading) with ⟨rfl, rfl⟩
      exact ⟨flight, rfl⟩
  | _ => cases loading

/-- The same boards, however the recency list and the backoffs changed. -/
structure SameBoards (shared after : Shared Rows) : Prop where
  listed : Listed shared.inner → Listed after.inner
  len : HashMap.len after.inner.entries = HashMap.len shared.inner.entries
  stored : ∀ key entry, after.inner.entries.lookup key = some entry →
    ∃ old, shared.inner.entries.lookup key = some old ∧ old.storedAtMs = entry.storedAtMs
  nowMs : after.nowMs = shared.nowMs

inductive EntryEffect (cache : LeaderboardCache Error) (shared : Shared Rows)
    (call : Call Rows Error) : Advance (Shared Rows) (Call Rows Error) → Prop
  | keeps {after : Shared Rows} {moved : Call Rows Error} {spawned : List (Call Rows Error)}
      (same : SameBoards shared after) (idle : moved.loading? = none)
      (new : ∀ call ∈ spawned, call.loading? = none) :
      EntryEffect cache shared call ⟨after, moved, spawned⟩
  | starts {after : Shared Rows} {moved : Call Rows Error} {key : LeaderboardKey}
      (same : SameBoards shared after) (loads : moved.loading? = some (key, shared.nowMs)) :
      EntryEffect cache shared call ⟨after, moved, []⟩
  | stores {after : Shared Rows} {moved : Call Rows Error} {key : LeaderboardKey} {startedMs : ℕ}
      {entry : Entry Rows} (loads : call.loading? = some (key, startedMs))
      (idle : moved.loading? = none) (stamp : entry.storedAtMs = startedMs)
      (listed : Listed shared.inner → Listed after.inner)
      (fits : Listed shared.inner → HashMap.len shared.inner.entries ≤ cache.maxEntries →
        HashMap.len after.inner.entries ≤ cache.maxEntries)
      (stored : ∀ other found, after.inner.entries.lookup other = some found →
        other = key ∧ found = entry ∨ other ≠ key ∧ shared.inner.entries.lookup other = some found)
      (nowMs : after.nowMs = shared.nowMs) : EntryEffect cache shared call ⟨after, moved, []⟩

namespace SameBoards

variable {shared middle after : Shared Rows}

theorem congr (order : after.inner.order = shared.inner.order)
    (entries : after.inner.entries = shared.inner.entries) (nowMs : after.nowMs = shared.nowMs) :
    SameBoards shared after where
  listed listed := ⟨by rw [order]; exact listed.nodup, fun key => by
    rw [order, entries]; exact listed.mem_iff key⟩
  len := by rw [entries]
  stored key entry found := ⟨entry, entries ▸ found, rfl⟩
  nowMs := nowMs

theorem trans (first : SameBoards shared middle) (second : SameBoards middle after) :
    SameBoards shared after where
  listed listed := second.listed (first.listed listed)
  len := second.len.trans first.len
  stored key entry found := by
    rcases second.stored key entry found with ⟨old, between, stamp⟩
    rcases first.stored key old between with ⟨oldest, before, stamp'⟩
    exact ⟨oldest, before, stamp'.trans stamp⟩
  nowMs := second.nowMs.trans first.nowMs

theorem touch {key : LeaderboardKey} : SameBoards shared (shared.touch key) where
  listed listed := listed.touch
  len := congrArg HashMap.len (touch_entries _ _)
  stored _ entry found := ⟨entry, touch_entries _ _ ▸ found, rfl⟩
  nowMs := rfl

theorem discardDead {key : LeaderboardKey} : SameBoards shared (shared.discardDead key) := by
  unfold Shared.discardDead
  split
  · split <;> exact congr rfl rfl rfl
  · exact congr rfl rfl rfl

theorem beginLoad {cache : LeaderboardCache Error} {key : LeaderboardKey} :
    SameBoards shared (cache.beginLoad shared key).1 := by
  have effect := begin_effect cache shared key
  generalize cache.beginLoad shared key = begun at effect
  have opened : SameBoards shared ((shared.discardDead key).openFlight key) :=
    discardDead.trans (congr rfl rfl rfl)
  cases effect with
  | hits => exact discardDead.trans touch
  | serves => exact discardDead
  | waits => exact discardDead
  | leads free touched =>
      rcases touched with rfl | rfl
      · exact opened
      · exact opened.trans touch
  | refreshes => exact opened.trans touch

/-- `enqueue_refresh` sets the backoff of a board that is there. -/
theorem enqueueRefresh {cache : LeaderboardCache Error} {now backoff storedAt : ℕ}
    {key : LeaderboardKey} (inner : after.inner =
      (cache.enqueueRefresh shared.inner now backoff storedAt key).1)
    (nowMs : after.nowMs = shared.nowMs) : SameBoards shared after := by
  have order : after.inner.order = shared.inner.order := by
    rw [inner]
    rfl
  cases found : shared.inner.entries.lookup key with
  | none =>
      refine congr order ?_ nowMs
      simp only [inner, LeaderboardCache.enqueueRefresh, found]
  | some entry =>
      have entries : after.inner.entries = shared.inner.entries.insert key
          { entry with nextRefreshMs := saturatingAdd 64 now backoff } := by
        simp only [inner, LeaderboardCache.enqueueRefresh, found]
      have held : key ∈ shared.inner.entries := AList.lookup_isSome.mp (by simp [found])
      refine ⟨fun listed => ⟨order ▸ listed.nodup, fun other => ?_⟩, ?_, fun other later stored => ?_,
        nowMs⟩
      · rw [order, entries, AList.mem_insert, listed.mem_iff]
        constructor
        · exact .inr
        · rintro (rfl | there)
          · exact held
          · exact there
      · have same := HashMap.total_insert_of_lookup (fun _ => 1) found
          { entry with nextRefreshMs := saturatingAdd 64 now backoff }
        rw [entries, HashMap.len_eq_total, HashMap.len_eq_total]
        omega
      · rw [entries, HashMap.lookup_insert'] at stored
        split at stored
        next same =>
          rcases Option.some.inj stored with rfl
          exact ⟨entry, same ▸ found, rfl⟩
        next => exact ⟨later, stored, rfl⟩

end SameBoards

variable {cache : LeaderboardCache Error} {shared : Shared Rows} {call : Call Rows Error}

theorem entryEffect_of_load {key : LeaderboardKey} {flight startedMs freshForMs millis : ℕ}
    {refresh : Bool} {started : ℤ} {result : Except Error Rows}
    {advance : Advance (Shared Rows) (Call Rows Error)}
    (taken : (Call.load key flight refresh startedMs started freshForMs).go cache shared millis
      result = some advance) :
    EntryEffect cache shared (.load key flight refresh startedMs started freshForMs) advance := by
  rcases Option.some.inj taken with rfl
  have idle : ∀ outcome : LeaderboardCache.Outcome Rows Error, (if refresh then
      Call.handoff flight outcome else .release flight outcome).loading? = none := by
    intro outcome
    cases refresh <;> rfl
  cases result with
  | ok rows =>
      have positive : 0 < cache.maxEntries := cache.one_le_maxEntries
      exact @EntryEffect.stores _ _ _ _ _ _ _ _ _ ⟨⟨rows, started⟩, startedMs, freshForMs, 0⟩ rfl
        (idle _) rfl
        (fun listed => Listed.store ⟨listed.nodup, listed.mem_iff⟩)
        (fun listed fits => len_store_le ⟨listed.nodup, listed.mem_iff⟩ positive fits)
        (fun other found stored => @lookup_store _ { shared.inner with
          inflight := shared.inner.inflight.erase key } _ _ _ _ _ stored) rfl
  | error error =>
      refine .keeps ?_ (idle _) (by simp)
      simp only [LeaderboardCache.finishLead]
      split <;> exact .congr rfl rfl rfl

theorem entryEffect_of_go {millis : ℕ} {result : Except Error Rows}
    {advance : Advance (Shared Rows) (Call Rows Error)}
    (taken : call.go cache shared millis result = some advance) :
    EntryEffect cache shared call advance := by
  have same : SameBoards shared shared := .congr rfl rfl rfl
  cases call with
  | begin key =>
      rcases Option.some.inj taken with rfl
      refine .keeps .beginLoad ?_ (by simp)
      generalize (cache.beginLoad shared key).2 = begun
      rcases begun with _ | ⟨_, _ | _⟩ | _ | _ <;> rfl
  | tryRefresh key flight board =>
      simp only [Call.go] at taken
      split at taken <;> rcases Option.some.inj taken with rfl
      · exact .keeps (.congr rfl rfl rfl) rfl (by simp)
      · exact .keeps same rfl (by simp)
  | tryTotal key flight board =>
      simp only [Call.go] at taken
      split at taken <;> rcases Option.some.inj taken with rfl
      · exact .keeps (.congr rfl rfl rfl) rfl (by simp [Call.loading?])
      · exact .keeps (.congr rfl rfl rfl) rfl (by simp)
  | storedAt key flight board =>
      rcases Option.some.inj taken with rfl
      exact .keeps same rfl (by simp)
  | enqueue key flight board storedAt =>
      simp only [Call.go] at taken
      split at taken
      next =>
        split at taken <;> rcases Option.some.inj taken with rfl
        · exact .keeps (.enqueueRefresh rfl rfl) rfl (by simp)
        · exact .keeps (.enqueueRefresh rfl rfl) rfl (by simp)
      next => cases taken
  | skip flight board =>
      rcases Option.some.inj taken with rfl
      exact .keeps (.congr rfl rfl rfl) rfl (by simp)
  | follow key flight =>
      simp only [Call.go] at taken
      split at taken
      next => cases taken
      next =>
        split at taken
        next =>
          split at taken
          next =>
            rcases Option.some.inj taken with rfl
            exact .keeps same rfl (by simp)
          next => cases taken
        all_goals
          rcases Option.some.inj taken with rfl
          exact .keeps same rfl (by simp)
  | mustBlock key dead =>
      rcases Option.some.inj taken with rfl
      refine .keeps same ?_ (by simp)
      split <;> rfl
  | stale key otherwise =>
      rcases Option.some.inj taken with rfl
      refine .keeps same ?_ (by simp)
      split <;> rfl
  | acquire key flight =>
      simp only [Call.go] at taken
      split at taken <;> rcases Option.some.inj taken with rfl
      · exact .keeps (.congr rfl rfl rfl) rfl (by simp)
      · exact .keeps (.congr rfl rfl rfl) rfl (by simp)
  | queued key flight =>
      rcases Option.map_eq_some_iff.mp taken with ⟨scans, collected, rfl⟩
      exact .keeps (.congr rfl rfl rfl) rfl (by simp)
  | start key flight refresh =>
      simp only [Call.go] at taken
      split at taken
      next =>
        rcases Option.some.inj taken with rfl
        exact .starts same rfl
      next => cases taken
  | load key flight refresh startedMs started freshForMs => exact entryEffect_of_load taken
  | release flight outcome =>
      rcases Option.some.inj taken with rfl
      exact .keeps (.congr rfl rfl rfl) rfl (by simp)
  | retryRefresh flight outcome =>
      simp only [Call.go] at taken
      split at taken <;> rcases Option.some.inj taken with rfl
      · exact .keeps (.congr rfl rfl rfl) rfl (by simp)
      · exact .keeps (.congr rfl rfl rfl) rfl (by simp)
  | retryTotal flight outcome =>
      simp only [Call.go] at taken
      split at taken <;> rcases Option.some.inj taken with rfl
      · exact .keeps (.congr rfl rfl rfl) rfl (by simp)
      · exact .keeps (.congr rfl rfl rfl) rfl (by simp)
  | handoff flight outcome =>
      have effect := handoff_effect shared (shared.inner.refreshWait.rows.map Prod.fst)
      simp only [Call.go] at taken
      generalize handoff shared (shared.inner.refreshWait.rows.map Prod.fst) = found
        at effect taken
      cases effect with
      | nothing refreshWait length fewer =>
          rcases Option.some.inj taken with rfl
          exact .keeps (.congr rfl rfl rfl) rfl (by simp)
      | launches refreshWait length fewer found free =>
          rcases Option.some.inj taken with rfl
          exact .keeps (.congr rfl rfl rfl) rfl (by simp [Call.loading?])
  | returned outcome => cases taken
  | dropped => cases taken

theorem entryEffect_of_step {choice : Choice Rows Error}
    {advance : Advance (Shared Rows) (Call Rows Error)}
    (taken : call.step cache shared choice = some advance) :
    EntryEffect cache shared call advance := by
  cases choice with
  | go millis result => exact entryEffect_of_go taken
  | drop =>
      have taken : call.drop shared = some advance := taken
      cases call with
      | follow key flight =>
          rcases Option.some.inj taken with rfl
          exact .keeps (.congr rfl rfl rfl) rfl (by simp)
      | queued key flight =>
          rcases Option.some.inj taken with rfl
          exact .keeps (.congr rfl rfl rfl) rfl (by simp)
      | load key flight refresh startedMs started freshForMs =>
          rcases Option.some.inj taken with rfl
          exact .keeps (.congr rfl rfl rfl) rfl (by simp)
      | _ => cases taken

/-! ## Every state reached -/

/-- The boards stored, and the queries that will replace them. -/
structure Boards (cache : LeaderboardCache Error) (pool : Pool (Shared Rows) (Call Rows Error)) :
    Prop where
  listed : Listed pool.shared.inner
  fits : HashMap.len pool.shared.inner.entries ≤ cache.maxEntries
  past : ∀ key entry, pool.shared.inner.entries.lookup key = some entry →
    entry.storedAtMs ≤ pool.shared.nowMs
  started : ∀ call ∈ pool.processes, ∀ key startedMs, call.loading? = some (key, startedMs) →
    startedMs ≤ pool.shared.nowMs
  newer : ∀ call ∈ pool.processes, ∀ key startedMs, call.loading? = some (key, startedMs) →
    ∀ entry, pool.shared.inner.entries.lookup key = some entry → entry.storedAtMs ≤ startedMs

variable {pool after : Pool (Shared Rows) (Call Rows Error)}
  {event : TaskEvent LeaderboardKey (Choice Rows Error) Tick}

theorem boards_fresh {nowMs : ℕ} {wall : ℤ} :
    Boards cache (cache.fresh nowMs wall : Pool (Shared Rows) (Call Rows Error)) where
  listed := listed_empty
  fits := Nat.zero_le _
  past _ _ found := by cases found
  started call call_mem := by cases call_mem
  newer call call_mem := by cases call_mem

/-- The loading calls after a step that keeps the boards were loading before it. -/
theorem loading_of_idle {index : ℕ} {moved : Call Rows Error} {spawned : List (Call Rows Error)}
    (idle : moved.loading? = none) (new : ∀ call ∈ spawned, call.loading? = none)
    {other : Call Rows Error} (other_mem : other ∈ pool.processes.set index moved ++ spawned)
    {key : LeaderboardKey} {startedMs : ℕ} (loading : other.loading? = some (key, startedMs)) :
    ∃ position, position ≠ index ∧ pool.processes[position]? = some other := by
  rcases List.getElem?_of_mem other_mem with ⟨position, found⟩
  rcases Pool.of_set_append found with ⟨-, rfl⟩ | ⟨differs, before⟩ | ⟨-, later⟩
  · cases idle.symm.trans loading
  · exact ⟨position, differs, before⟩
  · cases (new other later).symm.trans loading

theorem Boards.next (boards : Boards cache pool) (inv : InFlight pool)
    (step : (requests cache).machine.next pool event = some after) : Boards cache after := by
  have effect := Tasks.effect_of_next step
  cases effect with
  | arrives key =>
      have loaders : ∀ call ∈ pool.processes ++ [Call.begin key], ∀ {led startedMs},
          call.loading? = some (led, startedMs) → call ∈ pool.processes := by
        intro call call_mem led startedMs loading
        rcases List.mem_append.mp call_mem with before | new
        · exact before
        · rcases List.mem_singleton.mp new with rfl
          cases loading
      exact ⟨boards.listed, boards.fits, boards.past,
        fun call call_mem led startedMs loading =>
          boards.started call (loaders call call_mem loading) led startedMs loading,
        fun call call_mem led startedMs loading =>
          boards.newer call (loaders call call_mem loading) led startedMs loading⟩
  | changes tick =>
      have later : pool.shared.nowMs ≤ pool.shared.nowMs + tick.elapsedMs := Nat.le_add_right ..
      exact ⟨boards.listed, boards.fits,
        fun key entry found => Nat.le_trans (boards.past key entry found) later,
        fun call call_mem led startedMs loading =>
          Nat.le_trans (boards.started call call_mem led startedMs loading) later, boards.newer⟩
  | @moves index call choice advance found taken =>
      have moves := entryEffect_of_step taken
      cases moves with
      | @keeps shared moved spawned same idle new =>
          refine ⟨same.listed boards.listed, same.len.trans_le boards.fits, ?_, ?_, ?_⟩
          · intro key entry stored
            rcases same.stored key entry stored with ⟨old, before, stamp⟩
            rw [same.nowMs, ← stamp]
            exact boards.past key old before
          · intro other other_mem led startedMs loading
            rcases loading_of_idle idle new other_mem loading with ⟨position, -, before⟩
            rw [same.nowMs]
            exact boards.started other (List.mem_of_getElem? before) led startedMs loading
          · intro other other_mem led startedMs loading entry stored
            rcases loading_of_idle idle new other_mem loading with ⟨position, -, before⟩
            rcases same.stored led entry stored with ⟨old, earlier, stamp⟩
            rw [← stamp]
            exact boards.newer other (List.mem_of_getElem? before) led startedMs loading old earlier
      | @starts shared moved key same loads =>
          have loaders : ∀ other ∈ pool.processes.set index moved ++ [], ∀ led startedMs,
              other.loading? = some (led, startedMs) →
                startedMs = pool.shared.nowMs ∨ other ∈ pool.processes := by
            intro other other_mem led startedMs loading
            rw [List.append_nil] at other_mem
            rcases List.mem_or_eq_of_mem_set other_mem with before | rfl
            · exact .inr before
            · exact .inl (Prod.mk.inj (Option.some.inj (loading.symm.trans loads))).2
          refine ⟨same.listed boards.listed, same.len.trans_le boards.fits, ?_, ?_, ?_⟩
          · intro key entry stored
            rcases same.stored key entry stored with ⟨old, before, stamp⟩
            rw [same.nowMs, ← stamp]
            exact boards.past key old before
          · intro other other_mem led startedMs loading
            rw [same.nowMs]
            rcases loaders other other_mem led startedMs loading with rfl | before
            · exact Nat.le_refl _
            · exact boards.started other before led startedMs loading
          · intro other other_mem led startedMs loading entry stored
            rcases same.stored led entry stored with ⟨old, earlier, stamp⟩
            rw [← stamp]
            rcases loaders other other_mem led startedMs loading with rfl | before
            · exact boards.past led old earlier
            · exact boards.newer other before led startedMs loading old earlier
      | @stores shared moved key startedMs entry loads idle stamp listed fits stored nowMs =>
          have here := List.mem_of_getElem? found
          refine ⟨listed boards.listed, fits boards.listed boards.fits, ?_, ?_, ?_⟩
          · intro other later found'
            rw [nowMs]
            rcases stored other later found' with ⟨rfl, rfl⟩ | ⟨-, before⟩
            · rw [stamp]
              exact boards.started call here other startedMs loads
            · exact boards.past other later before
          · intro other other_mem led startedMs' loading
            rcases loading_of_idle idle (by simp) other_mem loading with ⟨position, -, before⟩
            rw [nowMs]
            exact boards.started other (List.mem_of_getElem? before) led startedMs' loading
          · intro other other_mem led startedMs' loading later found'
            rcases loading_of_idle idle (by simp) other_mem loading with ⟨position, differs, before⟩
            rcases stored led later found' with ⟨rfl, rfl⟩ | ⟨-, earlier⟩
            · -- No other call is loading the key of this one.
              rcases Call.leads_of_loading loads with ⟨flight, leads⟩
              rcases Call.leads_of_loading loading with ⟨flight', leads'⟩
              exact absurd (leader_unique inv.balanced found before leads leads') differs
            · exact boards.newer other (List.mem_of_getElem? before) led startedMs' loading later
                earlier

/-- From here on the key's boards are at least this new. -/
structure Floor (key : LeaderboardKey) (floor : ℕ) (pool : Pool (Shared Rows) (Call Rows Error)) :
    Prop where
  past : floor ≤ pool.shared.nowMs
  stored : ∀ entry, pool.shared.inner.entries.lookup key = some entry → floor ≤ entry.storedAtMs
  started : ∀ call ∈ pool.processes, ∀ startedMs, call.loading? = some (key, startedMs) →
    floor ≤ startedMs

theorem Boards.floor (boards : Boards cache pool) {key : LeaderboardKey} {entry : Entry Rows}
    (found : pool.shared.inner.entries.lookup key = some entry) :
    Floor key entry.storedAtMs pool where
  past := boards.past key entry found
  stored later found' := by
    rcases Option.some.inj (found.symm.trans found') with rfl
    exact Nat.le_refl _
  started call call_mem startedMs loading := boards.newer call call_mem key startedMs loading entry found

theorem Floor.next {key : LeaderboardKey} {floor : ℕ} (above : Floor key floor pool)
    (step : (requests cache).machine.next pool event = some after) : Floor key floor after := by
  have effect := Tasks.effect_of_next step
  cases effect with
  | arrives arrival =>
      refine ⟨above.past, above.stored, fun call call_mem startedMs loading => ?_⟩
      rcases List.mem_append.mp call_mem with before | new
      · exact above.started call before startedMs loading
      · rcases List.mem_singleton.mp new with rfl
        cases loading
  | changes tick => exact ⟨Nat.le_trans above.past (Nat.le_add_right ..), above.stored, above.started⟩
  | @moves index call choice advance found taken =>
      have moves := entryEffect_of_step taken
      cases moves with
      | @keeps shared moved spawned same idle new =>
          refine ⟨same.nowMs ▸ above.past, fun entry stored => ?_,
            fun other other_mem startedMs loading => ?_⟩
          · rcases same.stored key entry stored with ⟨old, before, stamp⟩
            rw [← stamp]
            exact above.stored old before
          · rcases loading_of_idle idle new other_mem loading with ⟨position, -, before⟩
            exact above.started other (List.mem_of_getElem? before) startedMs loading
      | @starts shared moved led same loads =>
          refine ⟨same.nowMs ▸ above.past, fun entry stored => ?_,
            fun other other_mem startedMs loading => ?_⟩
          · rcases same.stored key entry stored with ⟨old, before, stamp⟩
            rw [← stamp]
            exact above.stored old before
          · rw [List.append_nil] at other_mem
            rcases List.mem_or_eq_of_mem_set other_mem with before | rfl
            · exact above.started other before startedMs loading
            · have now := (Prod.mk.inj (Option.some.inj (loading.symm.trans loads))).2
              rw [now]
              exact above.past
      | @stores shared moved led startedMs entry loads idle stamp listed fits stored nowMs =>
          refine ⟨nowMs ▸ above.past, fun later found' => ?_,
            fun other other_mem startedMs' loading => ?_⟩
          · rcases stored key later found' with ⟨rfl, rfl⟩ | ⟨-, before⟩
            · rw [stamp]
              exact above.started call (List.mem_of_getElem? found) startedMs loads
            · exact above.stored later before
          · rcases loading_of_idle idle (by simp) other_mem loading with ⟨position, -, before⟩
            exact above.started other (List.mem_of_getElem? before) startedMs' loading

end ScuffedCrew.Leaderboard
