import ScuffedCrew.Leaderboard.Board
import ScuffedCrew.Rust.Semaphore
import ScuffedCrew.StateMachine.Tasks

/-!
# The calls on the leaderboard cache

A request runs `get_or_load`, and a refresh it starts runs on its own after the
request has its board.  Every locked section, every try at a semaphore and every
message on a channel is one step; a call may be dropped where it awaits.
-/

namespace ScuffedCrew.Leaderboard

open Rust StateMachine

/-- What a failed load should do with a previous board for the same key. -/
inductive OnError
  | serveStale
  | surface
  deriving DecidableEq

inductive FailKind
  | unavailable
  | rejected
  deriving DecidableEq

inductive CacheError (Error : Type)
  | load (error : Error)
  | leader (kind : FailKind)

inductive FlightState (Rows : Type)
  | pending
  | ready (board : CachedBoard Rows)
  | failed (kind : FailKind)
  | skipped

/-- The channel of a flight; it is closed when its sender is gone. -/
structure Channel (Rows : Type) where
  state : FlightState Rows
  closed : Bool

/-- The settings of the cache, and `LoadError` for the errors its loaders give. -/
structure LeaderboardCache (Error : Type) where
  ttlMs : ℕ
  maxEntries : ℕ
  scans : ℕ
  onError : Error → OnError
  one_le_maxEntries : 1 ≤ maxEntries
  one_le_scans : 1 ≤ scans

variable {Rows Error : Type}

/-- `LeaderboardCache::build`. -/
def LeaderboardCache.build (ttlMs maxEntries scans : ℕ) (onError : Error → OnError) :
    LeaderboardCache Error where
  ttlMs
  maxEntries := max maxEntries 1
  scans := min (max scans minMaxScans) maxMaxScans
  onError
  one_le_maxEntries := Nat.le_max_right ..
  one_le_scans := Nat.le_min.mpr ⟨Nat.le_max_right .., by decide⟩

/-- What the calls share.  A flight is named by the place of its channel. -/
structure Shared (Rows : Type) where
  inner : Inner Rows
  scans : Semaphore ℕ
  refreshScans : ℕ
  channels : List (Channel Rows)
  nowMs : ℕ
  wall : ℤ

namespace Shared

/-- The sender of the flight is there still. -/
def isOpen (shared : Shared Rows) (flight : ℕ) : Bool :=
  match shared.channels[flight]? with
  | some channel => !channel.closed
  | none => false

def send (shared : Shared Rows) (flight : ℕ) (state : FlightState Rows) : Shared Rows :=
  { shared with channels := shared.channels.modify flight fun channel => { channel with state } }

/-- The sender of the flight is dropped. -/
def hangUp (shared : Shared Rows) (flight : ℕ) : Shared Rows :=
  { shared with
    channels := shared.channels.modify flight fun channel => { channel with closed := true } }

/-- A new channel, registered under the key. -/
def openFlight (shared : Shared Rows) (key : LeaderboardKey) : Shared Rows :=
  { shared with
    inner := { shared.inner with
      inflight := shared.inner.inflight.insert key shared.channels.length }
    channels := shared.channels ++ [⟨.pending, false⟩] }

/-- `begin` discards a flight whose sender is gone. -/
def discardDead (shared : Shared Rows) (key : LeaderboardKey) : Shared Rows :=
  match shared.inner.inflight.lookup key with
  | some flight =>
      if shared.isOpen flight then shared
      else { shared with
        inner := { shared.inner with inflight := shared.inner.inflight.erase key } }
  | none => shared

def touch (shared : Shared Rows) (key : LeaderboardKey) : Shared Rows :=
  { shared with inner := Leaderboard.touch shared.inner key }

/-- A scan's permits go back. -/
def dropPermit (shared : Shared Rows) (refresh : Bool) : Shared Rows :=
  { shared with
    scans := shared.scans.release
    refreshScans := if refresh then shared.refreshScans + 1 else shared.refreshScans }

end Shared

inductive Begin (Rows : Type)
  | hit (board : CachedBoard Rows)
  | serveStale (board : CachedBoard Rows) (lead : Option ℕ)
  | wait (flight : ℕ)
  | lead (flight : ℕ)

namespace LeaderboardCache

variable (cache : LeaderboardCache Error)

def maxStale : ℕ := saturatingMul 64 cache.ttlMs maxStaleFactor

/-- `begin`. -/
def beginLoad (shared : Shared Rows) (key : LeaderboardKey) : Shared Rows × Begin Rows :=
  let shared := shared.discardDead key
  match shared.inner.entries.lookup key with
  | some entry =>
      let age := shared.nowMs - entry.storedAtMs
      if age < entry.freshForMs then (shared.touch key, .hit entry.board)
      else
        let tooStale := cache.maxStale ≤ age
        match shared.inner.inflight.lookup key with
        | some flight =>
            (shared, if tooStale then .wait flight else .serveStale entry.board none)
        | none =>
            if ¬tooStale ∧ shared.nowMs < entry.nextRefreshMs then
              (shared, .serveStale entry.board none)
            else
              ((shared.openFlight key).touch key,
                if tooStale then .lead shared.channels.length
                else .serveStale entry.board (some shared.channels.length))
  | none =>
      match shared.inner.inflight.lookup key with
      | some flight => (shared, .wait flight)
      | none => (shared.openFlight key, .lead shared.channels.length)

def mustBlock (shared : Shared Rows) (key : LeaderboardKey) : Bool :=
  match shared.inner.entries.lookup key with
  | none => true
  | some entry => cache.maxStale ≤ shared.nowMs - entry.storedAtMs

/-- The loop of `enqueue_refresh` that makes room for a key; it gives up when the key is no older
than those that wait. -/
def makeWaitRoom (waitKey : WaitKey) : ℕ → RefreshWait → RefreshWait × Bool
  | 0, waiting => (waiting, true)
  | fuel + 1, waiting =>
      if cache.maxEntries ≤ waiting.rows.length then
        match waiting.rows.getLast? with
        | none => (waiting, true)
        | some freshest =>
            if freshest.1 ≤ waitKey then (waiting, false)
            else makeWaitRoom waitKey fuel (waiting.erase freshest.1)
      else (waiting, true)

/-- The locked section of `enqueue_refresh`, and whether the key is queued. -/
def enqueueRefresh (inner : Inner Rows) (now backoff storedAt : ℕ) (key : LeaderboardKey) :
    Inner Rows × Bool :=
  let entries := match inner.entries.lookup key with
    | some entry =>
        inner.entries.insert key { entry with nextRefreshMs := saturatingAdd 64 now backoff }
    | none => inner.entries
  let waiting := inner.refreshWait.deleteWhere fun waitKey _ => (ofLex waitKey).2 = key
  let waitKey : WaitKey := toLex (storedAt, key)
  let room := cache.makeWaitRoom waitKey waiting.rows.length waiting
  ({ inner with
      entries
      inflight := inner.inflight.erase key
      refreshWait := if room.2 then room.1.upsert waitKey ⟨key⟩ else room.1 }, room.2)

/-- `refresh_backoff_ms`, for the factor drawn. -/
def refreshBackoffMs (factor : ℕ) : ℕ := max (saturatingMul 64 (max cache.ttlMs 1) factor / 1000) 1

/-- The outcome of a call. -/
abbrev Outcome (Rows Error : Type) := Except (CacheError Error) (CachedBoard Rows)

/-- The locked section of `lead`, after the load. -/
def finishLead (shared : Shared Rows) (key : LeaderboardKey) (flight startedMs : ℕ) (started : ℤ)
    (freshForMs : ℕ) (result : Except Error Rows) : Shared Rows × Outcome Rows Error :=
  let inner := { shared.inner with inflight := shared.inner.inflight.erase key }
  match result with
  | .ok rows =>
      let board : CachedBoard Rows := ⟨rows, started⟩
      (({ shared with
          inner := store inner cache.maxEntries key ⟨board, startedMs, freshForMs, 0⟩ }).send
            flight (.ready board), .ok board)
  | .error error =>
      match cache.onError error with
      | .serveStale =>
          (({ shared with inner }).send flight (.failed .unavailable),
            match inner.entries.lookup key with
            | some stale => .ok stale.board
            | none => .error (.load error))
      | .surface =>
          (({ shared with inner }).send flight (.failed .rejected), .error (.load error))

end LeaderboardCache

/-- `handoff` over the candidates: the refresh it starts, and the flight it opens for it. -/
def handoff (shared : Shared Rows) : List WaitKey → Shared Rows × Option (QueuedRefresh × ℕ)
  | [] => (shared, none)
  | candidate :: candidates =>
      match shared.inner.refreshWait.get? candidate with
      | none => handoff shared candidates
      | some queued =>
          let shared := { shared with
            inner := { shared.inner with refreshWait := shared.inner.refreshWait.erase candidate } }
          let key := (ofLex candidate).2
          if key ∈ shared.inner.inflight then handoff shared candidates
          else
            let stillDue := match shared.inner.entries.lookup key with
              | none => true
              | some entry => decide (entry.freshForMs ≤ shared.nowMs - entry.storedAtMs)
            if stillDue then (shared.openFlight key, some (queued, shared.channels.length))
            else handoff shared candidates

open LeaderboardCache (Outcome)

/-- Where a call is. -/
inductive Call (Rows Error : Type)
  | begin (key : LeaderboardKey)
  | tryRefresh (key : LeaderboardKey) (flight : ℕ) (board : CachedBoard Rows)
  | tryTotal (key : LeaderboardKey) (flight : ℕ) (board : CachedBoard Rows)
  | storedAt (key : LeaderboardKey) (flight : ℕ) (board : CachedBoard Rows)
  | enqueue (key : LeaderboardKey) (flight : ℕ) (board : CachedBoard Rows) (storedAt : ℕ)
  | skip (flight : ℕ) (board : CachedBoard Rows)
  | follow (key : LeaderboardKey) (flight : ℕ)
  | mustBlock (key : LeaderboardKey) (dead : Bool)
  | stale (key : LeaderboardKey) (otherwise : Option FailKind)
  | acquire (key : LeaderboardKey) (flight : ℕ)
  | queued (key : LeaderboardKey) (flight : ℕ)
  | start (key : LeaderboardKey) (flight : ℕ) (refresh : Bool)
  | load (key : LeaderboardKey) (flight : ℕ) (refresh : Bool) (startedMs : ℕ) (started : ℤ)
      (freshForMs : ℕ)
  | release (flight : ℕ) (outcome : Outcome Rows Error)
  | retryRefresh (flight : ℕ) (outcome : Outcome Rows Error)
  | retryTotal (flight : ℕ) (outcome : Outcome Rows Error)
  | handoff (flight : ℕ) (outcome : Outcome Rows Error)
  | returned (outcome : Outcome Rows Error)
  | dropped

/-- A call goes on, with the number it draws and the result of its loader where it needs them, or
it is dropped: its request is gone, or its loader panics. -/
inductive Choice (Rows Error : Type)
  | go (millis : ℕ) (result : Except Error Rows)
  | drop

abbrev CallStep (Rows Error : Type) := Option (Advance (Shared Rows) (Call Rows Error))

namespace Call

/-- One step of a call that goes on. -/
def go (cache : LeaderboardCache Error) (shared : Shared Rows) (call : Call Rows Error)
    (millis : ℕ) (result : Except Error Rows) : CallStep Rows Error :=
  match call with
  | begin key =>
      let begun := cache.beginLoad shared key
      some ⟨begun.1, match begun.2 with
        | .hit board => returned (.ok board)
        | .serveStale board none => returned (.ok board)
        | .serveStale board (some flight) => tryRefresh key flight board
        | .wait flight => follow key flight
        | .lead flight => acquire key flight, []⟩
  | tryRefresh key flight board =>
      if 0 < shared.refreshScans then
        some ⟨{ shared with refreshScans := shared.refreshScans - 1 }, tryTotal key flight board, []⟩
      else some ⟨shared, storedAt key flight board, []⟩
  | tryTotal key flight board =>
      match shared.scans.tryAcquire with
      | some scans => some ⟨{ shared with scans }, returned (.ok board), [start key flight true]⟩
      | none =>
          some ⟨{ shared with refreshScans := shared.refreshScans + 1 },
            storedAt key flight board, []⟩
  | storedAt key flight board =>
      some ⟨shared, enqueue key flight board (match shared.inner.entries.lookup key with
        | some entry => entry.storedAtMs
        | none => 0), []⟩
  | enqueue key flight board storedAtMs =>
      if backoffMin ≤ millis ∧ millis ≤ backoffMax then
        let queued := cache.enqueueRefresh shared.inner shared.nowMs
          (cache.refreshBackoffMs millis) storedAtMs key
        let shared := { shared with inner := queued.1 }
        if queued.2 then some ⟨shared, skip flight board, []⟩
        else some ⟨(shared.send flight .skipped).hangUp flight, returned (.ok board), []⟩
      else none
  | skip flight board =>
      some ⟨(shared.send flight .skipped).hangUp flight, returned (.ok board), []⟩
  | follow key flight =>
      match shared.channels[flight]? with
      | none => none
      | some channel =>
          match channel.state with
          | .pending => if channel.closed then some ⟨shared, mustBlock key true, []⟩ else none
          | .ready board => some ⟨shared, returned (.ok board), []⟩
          | .failed .rejected => some ⟨shared, returned (.error (.leader .rejected)), []⟩
          | .failed .unavailable => some ⟨shared, stale key (some .unavailable), []⟩
          | .skipped => some ⟨shared, mustBlock key false, []⟩
  | mustBlock key dead =>
      some ⟨shared, if cache.mustBlock shared key then begin key
        else stale key (if dead then some .unavailable else none), []⟩
  | stale key otherwise =>
      some ⟨shared, match shared.inner.entries.lookup key, otherwise with
        | some entry, _ => returned (.ok entry.board)
        | none, some kind => returned (.error (.leader kind))
        | none, none => begin key, []⟩
  | acquire key flight =>
      match shared.scans.tryAcquire with
      | some scans => some ⟨{ shared with scans }, start key flight false, []⟩
      | none => some ⟨{ shared with scans := shared.scans.enqueue flight }, queued key flight, []⟩
  | queued key flight =>
      (shared.scans.collect flight).map fun scans =>
        ⟨{ shared with scans }, start key flight false, []⟩
  | start key flight refresh =>
      if jitterMin ≤ millis ∧ millis ≤ jitterMax then
        some ⟨shared, load key flight refresh shared.nowMs shared.wall
          (freshForMs cache.ttlMs millis), []⟩
      else none
  | load key flight refresh startedMs started freshForMs =>
      let finished := cache.finishLead shared key flight startedMs started freshForMs result
      some ⟨finished.1, if refresh then handoff flight finished.2 else release flight finished.2, []⟩
  | release flight outcome => some ⟨shared.dropPermit false, retryRefresh flight outcome, []⟩
  | retryRefresh flight outcome =>
      if 0 < shared.refreshScans then
        some ⟨{ shared with refreshScans := shared.refreshScans - 1 },
          retryTotal flight outcome, []⟩
      else some ⟨shared.hangUp flight, returned outcome, []⟩
  | retryTotal flight outcome =>
      match shared.scans.tryAcquire with
      | some scans => some ⟨{ shared with scans }, handoff flight outcome, []⟩
      | none =>
          some ⟨({ shared with refreshScans := shared.refreshScans + 1 }).hangUp flight,
            returned outcome, []⟩
  | handoff flight outcome =>
      let candidates := shared.inner.refreshWait.rows.map Prod.fst
      match Leaderboard.handoff shared candidates with
      | (shared, some (launched, next)) =>
          some ⟨shared.hangUp flight, returned outcome, [start launched.key next true]⟩
      | (shared, none) => some ⟨(shared.dropPermit true).hangUp flight, returned outcome, []⟩
  | returned _ => none
  | dropped => none

/-- A call is dropped where it awaits a flight, a scan slot or its loader. -/
def drop (shared : Shared Rows) : Call Rows Error → CallStep Rows Error
  | follow _ _ => some ⟨shared, dropped, []⟩
  | queued _ flight =>
      some ⟨({ shared with scans := shared.scans.leave flight }).hangUp flight, dropped, []⟩
  | load _ flight refresh _ _ _ => some ⟨(shared.dropPermit refresh).hangUp flight, dropped, []⟩
  | _ => none

def step (cache : LeaderboardCache Error) (shared : Shared Rows) (call : Call Rows Error) :
    Choice Rows Error → CallStep Rows Error
  | .go millis result => call.go cache shared millis result
  | .drop => call.drop shared

end Call

/-- The monotonic clock advances, and the wall clock is set. -/
structure Tick where
  elapsedMs : ℕ
  wall : ℤ

/-- `get_or_load` under load: requests arrive, calls take turns, and time passes. -/
def requests (cache : LeaderboardCache Error) :
    Tasks (Shared Rows) (Call Rows Error) LeaderboardKey (Choice Rows Error) Tick where
  arrival := .begin
  step shared call choice := call.step cache shared choice
  change shared tick := { shared with nowMs := shared.nowMs + tick.elapsedMs, wall := tick.wall }

/-- A cache that has just been built. -/
def LeaderboardCache.fresh (cache : LeaderboardCache Error) (nowMs : ℕ) (wall : ℤ) :
    Pool (Shared Rows) (Call Rows Error) :=
  ⟨⟨.empty, .ofPermits cache.scans, refreshSlots cache.scans, [], nowMs, wall⟩, []⟩

end ScuffedCrew.Leaderboard
