import ScuffedCrew.Collab.Room
import ScuffedCrew.StateMachine.Pool

/-!
# The room manager

`join_room`, `leave_room`, `broadcast` and the persist tasks, with every access
to the maps, to the connection count and to a mutex a step of its own.  A guard
of the room map keeps its shard until it is dropped.
-/

namespace ScuffedCrew.Collab

open Rust StateMachine

inductive JoinError
  | globalLimit
  | roomLimit
  deriving DecidableEq

structure RoomManager where
  rooms : HashMap Text Room
  /-- The shards of `rooms` that a guard holds. -/
  guards : List ℕ
  globalConnections : ℕ
  maxGlobal : ℕ
  /-- The permits that are left. -/
  persistSem : ℕ
  /-- The mutex of each strategy that has an entry. -/
  strategyLocks : HashMap Text ℕ
  /-- The number of the next mutex that is made. -/
  nextLock : ℕ
  /-- The mutexes that are held. -/
  locked : List ℕ

def maxConcurrentPersists : ℕ := 64

def RoomManager.withGlobalLimit (maxGlobal : ℕ) : RoomManager where
  rooms := ∅
  guards := []
  globalConnections := 0
  maxGlobal := max maxGlobal 1
  persistSem := maxConcurrentPersists
  strategyLocks := ∅
  nextLock := 0
  locked := []

/-- What follows a delivery, under the same guard. -/
inductive After
  | addConnection (connectionId : Text) (user : CollabUserInfo)
  | isEmpty
  | nothing
  deriving DecidableEq

abbrev Queue := List (Option Text × ServerMessage)

/-- A call, by the step it makes next. -/
inductive Call
  | join (strategyId connectionId : Text) (user : CollabUserInfo)
  | joinEntry (strategyId connectionId : Text) (user : CollabUserInfo)
  | joinAdd (strategyId connectionId : Text) (user : CollabUserInfo)
  | rollBack (error : JoinError)
  | joined (strategyId connectionId : Text)
  | rejected (error : JoinError)
  | leave (strategyId connectionId : Text)
  | leaveCount (strategyId : Text) (shouldRemove : Bool)
  | removeRoom (strategyId : Text)
  | removeLock (strategyId : Text)
  | left
  | broadcast (strategyId senderConnectionId : Text) (message : ServerMessage)
  | sent
  | deliver (strategyId : Text) (queue : Queue) (after : After)
  | settle (strategyId : Text) (pruned : List Pruned) (queue : Queue) (after : After)
  | persist (strategyId : Text)
  | strategyLock (strategyId : Text)
  | lock (strategyId : Text) (mutex : ℕ)
  | work (strategyId : Text) (mutex : ℕ)
  | persisted
  | busy
  deriving DecidableEq

namespace RoomManager

variable (manager : RoomManager)

/-- `entry(…).or_default()`. -/
def entryOrDefault (strategyId : Text) : HashMap Text Room × Room :=
  match manager.rooms.lookup strategyId with
  | some room => (manager.rooms, room)
  | none => (manager.rooms.insert strategyId ∅, ∅)

def putRoom (strategyId : Text) (room : Room) : RoomManager :=
  { manager with rooms := manager.rooms.insert strategyId room }

def guard (shard : ℕ) : RoomManager := { manager with guards := shard :: manager.guards }

def dropGuard (shard : ℕ) : RoomManager := { manager with guards := manager.guards.erase shard }

def fetchSub (count : ℕ) : RoomManager :=
  { manager with globalConnections := manager.globalConnections - count }

end RoomManager

namespace Call

variable (shard : Text → ℕ)

def step (manager : RoomManager) : Call → List Text → Option (RoomManager × Call)
  | join strategyId connectionId user, _ =>
      let reserved := { manager with globalConnections := manager.globalConnections + 1 }
      if manager.maxGlobal ≤ manager.globalConnections then some (reserved, rollBack .globalLimit)
      else some (reserved, joinEntry strategyId connectionId user)
  | joinEntry strategyId connectionId user, _ =>
      if shard strategyId ∈ manager.guards then none
      else
        let (rooms, room) := manager.entryOrDefault strategyId
        let entered := { manager with rooms }
        if maxRoomConnections ≤ HashMap.len room then some (entered, rollBack .roomLimit)
        else if room.hasUser user.id then
          some (entered.guard (shard strategyId), joinAdd strategyId connectionId user)
        else
          some (entered.guard (shard strategyId),
            deliver strategyId [(none, .userJoined user)] (.addConnection connectionId user))
  | joinAdd strategyId connectionId user, _ =>
      (manager.rooms.lookup strategyId).map fun room =>
        ((manager.putRoom strategyId (room.addConnection connectionId user)).dropGuard
          (shard strategyId), joined strategyId connectionId)
  | rollBack error, _ => some (manager.fetchSub 1, rejected error)
  | leave strategyId connectionId, _ =>
      if shard strategyId ∈ manager.guards then none
      else
        match manager.rooms.lookup strategyId with
        | none => some (manager, left)
        | some room =>
            match room.removeConnection connectionId with
            | none =>
                some (manager, if HashMap.len room = 0 then removeRoom strategyId else left)
            | some (room, user, stillPresent) =>
                if stillPresent then
                  some (manager.putRoom strategyId room,
                    leaveCount strategyId (HashMap.len room = 0))
                else
                  some ((manager.putRoom strategyId room).guard (shard strategyId),
                    deliver strategyId [(none, .userLeft user.id)] .isEmpty)
  | leaveCount strategyId shouldRemove, _ =>
      some (manager.fetchSub 1, if shouldRemove then removeRoom strategyId else left)
  | removeRoom strategyId, _ =>
      if shard strategyId ∈ manager.guards then none
      else some ({ manager with rooms := manager.rooms.erase strategyId }, removeLock strategyId)
  | removeLock strategyId, _ =>
      some ({ manager with strategyLocks := manager.strategyLocks.erase strategyId }, left)
  | broadcast strategyId senderConnectionId message, _ =>
      if shard strategyId ∈ manager.guards then none
      else
        match manager.rooms.lookup strategyId with
        | none => some (manager, sent)
        | some _ =>
            some (manager.guard (shard strategyId),
              deliver strategyId [(some senderConnectionId, message)] .nothing)
  | deliver strategyId ((skip, _) :: queue) after, failing =>
      (manager.rooms.lookup strategyId).map fun room =>
        let (room, pruned) := room.broadcast skip failing
        (manager.putRoom strategyId room,
          if pruned.isEmpty then deliver strategyId queue after
          else settle strategyId pruned queue after)
  | deliver strategyId [] (.addConnection connectionId user), _ =>
      some (manager, joinAdd strategyId connectionId user)
  | deliver strategyId [] .isEmpty, _ =>
      (manager.rooms.lookup strategyId).map fun room =>
        (manager.dropGuard (shard strategyId), leaveCount strategyId (HashMap.len room = 0))
  | deliver strategyId [] .nothing, _ => some (manager.dropGuard (shard strategyId), sent)
  | settle strategyId pruned queue after, _ =>
      let gone := pruned.filter Pruned.userGone
      some (manager.fetchSub pruned.length,
        deliver strategyId (queue ++ gone.map fun user => (none, .userLeft user.userId)) after)
  | persist strategyId, _ =>
      if manager.persistSem = 0 then some (manager, busy)
      else some ({ manager with persistSem := manager.persistSem - 1 }, strategyLock strategyId)
  | strategyLock strategyId, _ =>
      match manager.strategyLocks.lookup strategyId with
      | some mutex => some (manager, lock strategyId mutex)
      | none =>
          some ({ manager with
                  strategyLocks := manager.strategyLocks.insert strategyId manager.nextLock
                  nextLock := manager.nextLock + 1 }, lock strategyId manager.nextLock)
  | lock strategyId mutex, _ =>
      if mutex ∈ manager.locked then none
      else some ({ manager with locked := mutex :: manager.locked }, work strategyId mutex)
  | work _ mutex, _ =>
      some ({ manager with
              locked := manager.locked.erase mutex
              persistSem := manager.persistSem + 1 }, persisted)
  | _, _ => none

/-- The calls a client or a handler makes. -/
def starts : Call → Bool
  | join _ _ _ | leave _ _ | broadcast _ _ _ | persist _ => true
  | _ => false

def ended : Call → Bool
  | joined _ _ | rejected _ | left | sent | persisted | busy => true
  | _ => false

end Call

/-- Any calls at the same time; the choice of a step is which channels are full or closed. -/
def collab (shard : Text → ℕ) : Machine (Pool RoomManager Call) (Turn (List Text)) :=
  interleaving (Call.step shard)

abbrev CollabStep := Step (Pool RoomManager Call) (Turn (List Text))

def CollabStep.call? (step : CollabStep) : Option Call := step.before.processes[step.event.process]?

end ScuffedCrew.Collab
