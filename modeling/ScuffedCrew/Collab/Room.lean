import ScuffedCrew.Rust.HashMap
import ScuffedCrew.Rust.Text

/-!
# Rooms

A room holds the connections that are looking at a strategy.  Whether a message
can be put into the channel of a connection is up to the connection, so the
connections whose channel is full or closed are an argument of a broadcast.
-/

namespace ScuffedCrew.Collab

open Rust

structure CollabUserInfo where
  id : Text
  username : Text
  avatarUrl : Option Text
  deriving DecidableEq

inductive ServerMessage
  | userJoined (user : CollabUserInfo)
  | userLeft (userId : Text)
  /-- The messages of the edit handlers, which the room passes on as they are. -/
  | edit (body : Text)
  deriving DecidableEq

structure Pruned where
  userId : Text
  userGone : Bool
  deriving DecidableEq

abbrev Room := HashMap Text CollabUserInfo

def maxRoomConnections : ℕ := 32

namespace Room

def addConnection (room : Room) (connectionId : Text) (user : CollabUserInfo) : Room :=
  room.insert connectionId user

def hasUser (room : Room) (userId : Text) : Bool := room.values.any fun user => user.id = userId

/-- The room without the connection, its user, and whether the user has another connection. -/
def removeConnection (room : Room) (connectionId : Text) : Option (Room × CollabUserInfo × Bool) :=
  (room.lookup connectionId).map fun user =>
    (room.erase connectionId, user, hasUser (room.erase connectionId) user.id)

/-- The connections that a message cannot be put into the channel of. -/
def dead (room : Room) (skip : Option Text) (failing : List Text) : List Text :=
  room.keys.filter fun connectionId => some connectionId ≠ skip ∧ connectionId ∈ failing

def prune (room : Room) : List Text → Room × List Text
  | [] => (room, [])
  | connectionId :: rest =>
      match room.lookup connectionId with
      | none => prune room rest
      | some user =>
          let (pruned, removed) := prune (room.erase connectionId) rest
          (pruned, user.id :: removed)

def broadcast (room : Room) (skip : Option Text) (failing : List Text) : Room × List Pruned :=
  let (pruned, removed) := prune room (room.dead skip failing)
  (pruned, removed.map fun userId => { userId, userGone := !hasUser pruned userId })

variable {room : Room} {connectionId : Text}

theorem len_prune (room : Room) (dead : List Text) :
    HashMap.len (prune room dead).1 + (prune room dead).2.length = HashMap.len room := by
  induction dead generalizing room with
  | nil => rfl
  | cons connectionId rest ih =>
      simp only [prune]
      split
      next => exact ih room
      next user found =>
        have fewer := HashMap.len_erase_of_lookup found
        have others := ih (room.erase connectionId)
        simp only [List.length_cons]
        omega

theorem len_broadcast (room : Room) (skip : Option Text) (failing : List Text) :
    HashMap.len (broadcast room skip failing).1 + (broadcast room skip failing).2.length =
      HashMap.len room := by
  simp only [broadcast, List.length_map]
  exact len_prune room _

theorem lookup_prune (room : Room) {dead : List Text} (alive : connectionId ∉ dead) :
    (prune room dead).1.lookup connectionId = room.lookup connectionId := by
  induction dead generalizing room with
  | nil => rfl
  | cons first rest ih =>
      rw [List.mem_cons, not_or] at alive
      simp only [prune]
      split
      next => exact ih room alive.2
      next user found =>
        rw [ih (room.erase first) alive.2, AList.lookup_erase_ne alive.1]

theorem lookup_broadcast {skip : Option Text} {failing : List Text}
    (delivered : some connectionId = skip ∨ connectionId ∉ failing) :
    (broadcast room skip failing).1.lookup connectionId = room.lookup connectionId := by
  refine lookup_prune room ?_
  intro dead
  have failed := (List.mem_filter.mp dead).2
  simp only [decide_eq_true_eq] at failed
  rcases delivered with skipped | delivered
  · exact failed.1 skipped
  · exact delivered failed.2

end Room

end ScuffedCrew.Collab
