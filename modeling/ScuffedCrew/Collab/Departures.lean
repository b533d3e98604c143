import ScuffedCrew.Collab.Bookkeeping
import ScuffedCrew.StateMachine.Loop

/-!
# Departures

A broadcast takes out the connections it cannot reach and reports for each one
whether its user is gone.  The deliver loop sends `UserLeft` for each report, so
a user with two connections taken out in one pass is announced twice.
-/

namespace ScuffedCrew.Collab

open Rust StateMachine

namespace Room

def userOf (room : Room) (connectionId : Text) : Option Text :=
  (room.lookup connectionId).map CollabUserInfo.id

/-- The users that a broadcast reports as gone, one entry for each connection taken out. -/
def gone (room : Room) (skip : Option Text) (failing : List Text) : List Text :=
  ((room.broadcast skip failing).2.filter Pruned.userGone).map Pruned.userId

/-- Of a user with no connection left at most one connection is taken out. -/
def PartsOneByOne (room : Room) (skip : Option Text) (failing : List Text) : Prop :=
  ∀ first ∈ room.dead skip failing, ∀ second ∈ room.dead skip failing,
    room.userOf first = room.userOf second → first ≠ second →
      ∃ other ∈ room.keys, other ∉ room.dead skip failing ∧ room.userOf other = room.userOf first

instance (room : Room) (skip : Option Text) (failing : List Text) :
    Decidable (room.PartsOneByOne skip failing) :=
  inferInstanceAs (Decidable (∀ first ∈ room.dead skip failing, ∀ second ∈ room.dead skip failing,
    room.userOf first = room.userOf second → first ≠ second → ∃ other ∈ room.keys, _))

variable {room : Room} {connectionId userId : Text} {skip : Option Text} {failing : List Text}

theorem hasUser_iff : room.hasUser userId = true ↔
    ∃ connectionId, room.userOf connectionId = some userId := by
  simp only [hasUser, HashMap.values, List.any_map, List.any_eq_true, Function.comp_apply,
    decide_eq_true_eq, userOf, Option.map_eq_some_iff]
  constructor
  · rintro ⟨⟨connectionId, user⟩, entry_mem, same⟩
    exact ⟨connectionId, user, AList.mem_lookup_iff.mpr entry_mem, same⟩
  · rintro ⟨connectionId, user, found, same⟩
    exact ⟨⟨connectionId, user⟩, AList.mem_lookup_iff.mp found, same⟩

theorem nodup_dead : (room.dead skip failing).Nodup := room.keys_nodup.filter _

theorem lookup_prune_of_mem {dead : List Text} (taken : connectionId ∈ dead) :
    (prune room dead).1.lookup connectionId = none := by
  induction dead generalizing room with
  | nil => cases taken
  | cons first rest ih =>
      by_cases later : connectionId ∈ rest
      · simp only [prune]
        split
        next => exact ih later
        next => exact ih later
      · have first_one : connectionId = first := by simpa [later] using taken
        simp only [prune]
        split
        next absent =>
          rw [lookup_prune room later, first_one]
          exact absent
        next =>
          rw [lookup_prune _ later, first_one]
          exact AList.lookup_erase first room

/-- What is taken out are the users of the dead connections. -/
theorem removed_prune {dead : List Text} (nodup : dead.Nodup) :
    (prune room dead).2 = dead.filterMap room.userOf := by
  induction dead generalizing room with
  | nil => rfl
  | cons first rest ih =>
      rcases List.nodup_cons.mp nodup with ⟨fresh, rest_nodup⟩
      simp only [prune]
      split
      next absent =>
        have no_user : room.userOf first = none := by simp [userOf, absent]
        rw [ih rest_nodup, List.filterMap_cons_none no_user]
      next user found =>
        have its_user : room.userOf first = some user.id := by simp [userOf, found]
        rw [List.filterMap_cons_some its_user]
        refine congrArg (user.id :: ·) ((ih rest_nodup).trans (List.filterMap_congr ?_))
        intro other other_mem
        have differs : other ≠ first := fun same => fresh (same ▸ other_mem)
        rw [userOf, AList.lookup_erase_ne differs, userOf]

theorem userOf_broadcast : (room.broadcast skip failing).1.userOf connectionId =
    if connectionId ∈ room.dead skip failing then none else room.userOf connectionId := by
  split
  next dead => simp [broadcast, userOf, lookup_prune_of_mem dead]
  next alive => simp [broadcast, userOf, lookup_prune room alive]

theorem hasUser_of_broadcast (left : (room.broadcast skip failing).1.hasUser userId = true) :
    room.hasUser userId = true := by
  rw [hasUser_iff] at left ⊢
  rcases left with ⟨connectionId, found⟩
  rw [userOf_broadcast] at found
  split at found
  next => cases found
  next => exact ⟨connectionId, found⟩

theorem not_hasUser_of_mem_gone (left : userId ∈ room.gone skip failing) :
    (room.broadcast skip failing).1.hasUser userId = false := by
  simp only [gone, broadcast, List.mem_map, List.mem_filter] at left
  rcases left with ⟨pruned, ⟨⟨other, -, rfl⟩, is_gone⟩, rfl⟩
  simpa [broadcast] using is_gone

theorem count_gone : (room.gone skip failing).count userId =
    if (room.broadcast skip failing).1.hasUser userId then 0
    else (room.dead skip failing).countP fun connectionId =>
      room.userOf connectionId == some userId := by
  have reported : room.gone skip failing =
      ((room.dead skip failing).filterMap room.userOf).filter fun userId =>
        !(room.broadcast skip failing).1.hasUser userId := by
    simp only [gone, broadcast, removed_prune nodup_dead, List.filter_map, List.map_map]
    exact List.map_id _
  split
  next stays => simp [reported, stays, List.count_eq_zero]
  next leaves =>
    rw [reported, List.count_filter (by simpa using leaves), List.count_filterMap]

theorem length_le_one {items : List Text} (nodup : items.Nodup)
    (alike : ∀ first ∈ items, ∀ second ∈ items, first = second) : items.length ≤ 1 := by
  rcases items with _ | ⟨first, _ | ⟨second, rest⟩⟩
  · simp
  · simp
  · have same := alike first (by simp) second (by simp)
    simp [same] at nodup

/-- A user who had a connection and has none left is reported once. -/
theorem count_gone_of_partsOneByOne (one_by_one : room.PartsOneByOne skip failing) :
    (room.gone skip failing).count userId =
      if room.hasUser userId && !(room.broadcast skip failing).1.hasUser userId then 1 else 0 := by
  rw [count_gone]
  cases left : (room.broadcast skip failing).1.hasUser userId with
  | true => simp
  | false =>
      have every_dead : ∀ connectionId, room.userOf connectionId = some userId →
          connectionId ∈ room.dead skip failing := by
        intro connectionId its_user
        by_contra alive
        have stays : (room.broadcast skip failing).1.hasUser userId = true :=
          hasUser_iff.mpr ⟨connectionId, by rw [userOf_broadcast, if_neg alive, its_user]⟩
        rw [left] at stays
        cases stays
      have at_most_one : (room.dead skip failing).countP
          (fun connectionId => room.userOf connectionId == some userId) ≤ 1 := by
        rw [List.countP_eq_length_filter]
        refine length_le_one (nodup_dead.filter _) ?_
        intro first first_mem second second_mem
        rcases List.mem_filter.mp first_mem with ⟨first_dead, first_user⟩
        rcases List.mem_filter.mp second_mem with ⟨second_dead, second_user⟩
        rw [beq_iff_eq] at first_user second_user
        by_contra differ
        rcases one_by_one first first_dead second second_dead
          (first_user.trans second_user.symm) differ with ⟨other, -, alive, its_user⟩
        exact alive (every_dead other (its_user.trans first_user))
      cases present : room.hasUser userId with
      | true =>
          rcases hasUser_iff.mp present with ⟨connectionId, its_user⟩
          have at_least_one : 0 < (room.dead skip failing).countP
              fun connectionId => room.userOf connectionId == some userId :=
            List.countP_pos_iff.mpr ⟨connectionId, every_dead _ its_user, by simp [its_user]⟩
          simp only [Bool.false_eq_true, if_false, Bool.not_false, Bool.and_true, if_true]
          omega
      | false =>
          have none_dead : (room.dead skip failing).countP
              (fun connectionId => room.userOf connectionId == some userId) = 0 := by
            rw [List.countP_eq_zero]
            intro connectionId _ its_user
            have there := hasUser_iff.mpr ⟨connectionId, by simpa using its_user⟩
            rw [present] at there
            cases there
          simp [none_dead]

end Room

/-! ## What a step does to the users -/

/-- Whether the user has a connection in the room of the strategy. -/
def RoomManager.present (manager : RoomManager) (strategyId userId : Text) : Bool :=
  ((manager.rooms.lookup strategyId).map fun room => room.hasUser userId).getD false

namespace Call

variable (shard : Text → ℕ) (strategyId userId : Text)

/-- The `UserLeft` messages of the user that the call has still to send. -/
def queued : Call → ℕ
  | deliver at_strategy queue _ =>
      if at_strategy = strategyId then (queue.map Prod.snd).count (.userLeft userId) else 0
  | settle at_strategy pruned queue _ =>
      if at_strategy = strategyId then
        (queue.map Prod.snd).count (.userLeft userId) +
          ((pruned.filter Pruned.userGone).map Pruned.userId).count userId
      else 0
  | _ => 0

/-- The next step sends `UserLeft` for the user. -/
def announces : Call → Bool
  | deliver at_strategy ((_, message) :: _) _ =>
      at_strategy = strategyId && message == .userLeft userId
  | _ => false

/-- The call has a guard on the shard. -/
def holds (guarded : ℕ) : Call → ℕ
  | deliver at_strategy _ _ | settle at_strategy _ _ _ | joinAdd at_strategy _ _ =>
      if shard at_strategy = guarded then 1 else 0
  | _ => 0

/-- A handler broadcasts no `UserLeft` of its own. -/
def Plain : Call → Prop
  | broadcast _ _ message => ∀ userId, message ≠ .userLeft userId
  | _ => True

/-- The call has no guard. -/
def loose : Call → Bool
  | deliver _ _ _ | settle _ _ _ _ | joinAdd _ _ _ => false
  | _ => true

variable {shard strategyId userId} {call : Call} {guarded : ℕ}

theorem holds_of_loose (loose : call.loose = true) : call.holds shard guarded = 0 := by
  cases call <;> first | rfl | cases loose

theorem queued_of_loose (loose : call.loose = true) : call.queued strategyId userId = 0 := by
  cases call <;> first | rfl | cases loose

theorem announces_of_loose (loose : call.loose = true) :
    call.announces strategyId userId = false := by
  cases call <;> first | rfl | cases loose

end Call

section Present

variable {manager after : RoomManager} {strategyId other userId : Text} {room new : Room}

theorem present_of_lookup (found : manager.rooms.lookup strategyId = some room) :
    manager.present strategyId userId = room.hasUser userId := by
  simp [RoomManager.present, found]

theorem present_iff : manager.present strategyId userId = true ↔
    ∃ connectionId user, manager.stored strategyId connectionId = some user ∧ user.id = userId := by
  cases found : manager.rooms.lookup strategyId with
  | none => simp [RoomManager.present, RoomManager.stored, found]
  | some room =>
      rw [present_of_lookup found, Room.hasUser_iff]
      simp [RoomManager.stored, found, Room.userOf]

theorem present_of_stored (same : after.stored = manager.stored) :
    after.present strategyId userId = manager.present strategyId userId := by
  rw [Bool.eq_iff_iff, present_iff, present_iff, same]

theorem present_insert (rooms : after.rooms = manager.rooms.insert strategyId new) :
    after.present other userId =
      if other = strategyId then new.hasUser userId else manager.present other userId := by
  unfold RoomManager.present
  rw [rooms, HashMap.lookup_insert']
  split <;> rfl

theorem present_erase (rooms : after.rooms = manager.rooms.erase strategyId) :
    after.present other userId =
      if other = strategyId then false else manager.present other userId := by
  unfold RoomManager.present
  rw [rooms, HashMap.lookup_erase']
  split <;> rfl

end Present

/-- What a step does to the rooms, to the guards and to the messages a call has still to send. -/
inductive Move (shard : Text → ℕ) (manager : RoomManager) (failing : List Text) :
    Call → RoomManager → Call → Prop
  | passes {call moved : Call} {after : RoomManager} (loose : call.loose = true)
      (still : moved.loose = true) (stored : after.stored = manager.stored)
      (guards : after.guards = manager.guards) (plain : moved.Plain) :
      Move shard manager failing call after moved
  | enters {call : Call} {after : RoomManager} {strategyId connectionId : Text}
      {user : CollabUserInfo} (loose : call.loose = true) (free : shard strategyId ∉ manager.guards)
      (stored : after.stored = manager.stored)
      (guards : after.guards = shard strategyId :: manager.guards) :
      Move shard manager failing call after (.joinAdd strategyId connectionId user)
  | sends {call : Call} {after : RoomManager} {strategyId : Text} {skip : Option Text}
      {message : ServerMessage} {follows : After} (loose : call.loose = true)
      (free : shard strategyId ∉ manager.guards) (stored : after.stored = manager.stored)
      (guards : after.guards = shard strategyId :: manager.guards)
      (other : call.Plain → ∀ userId, message ≠ .userLeft userId) :
      Move shard manager failing call after (.deliver strategyId [(skip, message)] follows)
  | adds {strategyId connectionId : Text} {user : CollabUserInfo} {after : RoomManager} {room : Room}
      (found : manager.rooms.lookup strategyId = some room)
      (rooms : after.rooms = manager.rooms.insert strategyId (room.addConnection connectionId user))
      (guards : after.guards = manager.guards.erase (shard strategyId)) :
      Move shard manager failing (.joinAdd strategyId connectionId user) after
        (.joined strategyId connectionId)
  | takes {strategyId connectionId : Text} {user : CollabUserInfo} {after : RoomManager}
      {room : Room} {moved : Call} (found : manager.rooms.lookup strategyId = some room)
      (inside : room.lookup connectionId = some user)
      (stays : Room.hasUser (room.erase connectionId) user.id = true)
      (rooms : after.rooms = manager.rooms.insert strategyId (room.erase connectionId))
      (guards : after.guards = manager.guards) (still : moved.loose = true) (plain : moved.Plain) :
      Move shard manager failing (.leave strategyId connectionId) after moved
  | parts {strategyId connectionId : Text} {user : CollabUserInfo} {after : RoomManager}
      {room : Room} (found : manager.rooms.lookup strategyId = some room)
      (inside : room.lookup connectionId = some user)
      (last : Room.hasUser (room.erase connectionId) user.id = false)
      (free : shard strategyId ∉ manager.guards)
      (rooms : after.rooms = manager.rooms.insert strategyId (room.erase connectionId))
      (guards : after.guards = shard strategyId :: manager.guards) :
      Move shard manager failing (.leave strategyId connectionId) after
        (.deliver strategyId [(none, .userLeft user.id)] .isEmpty)
  | prunes {strategyId : Text} {skip : Option Text} {message : ServerMessage} {queue : Queue}
      {follows : After} {after : RoomManager} {room : Room}
      (found : manager.rooms.lookup strategyId = some room)
      (rooms : after.rooms = manager.rooms.insert strategyId (room.broadcast skip failing).1)
      (guards : after.guards = manager.guards) :
      Move shard manager failing (.deliver strategyId ((skip, message) :: queue) follows) after
        (if (room.broadcast skip failing).2.isEmpty then .deliver strategyId queue follows
          else .settle strategyId (room.broadcast skip failing).2 queue follows)
  | settles {strategyId : Text} {pruned : List Pruned} {queue : Queue} {follows : After}
      {after : RoomManager} (rooms : after.rooms = manager.rooms)
      (guards : after.guards = manager.guards) :
      Move shard manager failing (.settle strategyId pruned queue follows) after
        (.deliver strategyId (queue ++ (pruned.filter Pruned.userGone).map
          fun user => (none, .userLeft user.userId)) follows)
  | turns {strategyId connectionId : Text} {user : CollabUserInfo} :
      Move shard manager failing (.deliver strategyId [] (.addConnection connectionId user)) manager
        (.joinAdd strategyId connectionId user)
  | returns {strategyId : Text} {follows : After} {after : RoomManager} {moved : Call}
      (rooms : after.rooms = manager.rooms)
      (guards : after.guards = manager.guards.erase (shard strategyId))
      (still : moved.loose = true) (plain : moved.Plain) :
      Move shard manager failing (.deliver strategyId [] follows) after moved
  | removes {strategyId : Text} {after : RoomManager}
      (rooms : after.rooms = manager.rooms.erase strategyId)
      (guards : after.guards = manager.guards) :
      Move shard manager failing (.removeRoom strategyId) after (.removeLock strategyId)

section Moves

variable {shard : Text → ℕ} {manager after : RoomManager} {call moved : Call} {failing : List Text}
  {strategyId connectionId : Text} {user : CollabUserInfo}

theorem move_joinEntry (taken : (Call.joinEntry strategyId connectionId user).step shard manager
    failing = some (after, moved)) :
    Move shard manager failing (.joinEntry strategyId connectionId user) after moved := by
  have stored := stored_entryOrDefault manager strategyId
  simp only [Call.step] at taken
  split at taken
  next => cases taken
  next free =>
    split at taken
    next =>
      rcases Prod.mk.inj (Option.some.inj taken) with ⟨rfl, rfl⟩
      exact .passes rfl rfl stored rfl trivial
    next =>
      split at taken <;> rcases Prod.mk.inj (Option.some.inj taken) with ⟨rfl, rfl⟩
      · exact .enters rfl free stored rfl
      · exact .sends rfl free stored rfl
          fun _ _ => by simp

theorem move_leave (taken : (Call.leave strategyId connectionId).step shard manager failing =
    some (after, moved)) :
    Move shard manager failing (.leave strategyId connectionId) after moved := by
  simp only [Call.step] at taken
  split at taken
  next => cases taken
  next free =>
    split at taken
    next =>
      rcases Prod.mk.inj (Option.some.inj taken) with ⟨rfl, rfl⟩
      exact .passes rfl rfl rfl rfl trivial
    next room found =>
      split at taken
      next =>
        rcases Prod.mk.inj (Option.some.inj taken) with ⟨rfl, rfl⟩
        refine .passes rfl ?_ rfl rfl ?_
        · split <;> exact rfl
        · split <;> trivial
      next rest leaving stillPresent removed =>
        rcases Option.map_eq_some_iff.mp removed with ⟨_, inside, same⟩
        rcases Prod.mk.inj same with ⟨rfl, others⟩
        rcases Prod.mk.inj others with ⟨rfl, present⟩
        split at taken <;> rcases Prod.mk.inj (Option.some.inj taken) with ⟨rfl, rfl⟩
        next stays =>
          exact .takes found inside (present.trans stays) rfl rfl
            rfl trivial
        next leaves =>
          exact .parts found inside (present.trans (Bool.eq_false_iff.mpr leaves)) free rfl rfl

theorem move_deliver {queue : Queue} {follows : After}
    (taken : (Call.deliver strategyId queue follows).step shard manager failing =
      some (after, moved)) :
    Move shard manager failing (.deliver strategyId queue follows) after moved := by
  cases queue with
  | cons head queue =>
      rcases Option.map_eq_some_iff.mp taken with ⟨room, found, result⟩
      rcases Prod.mk.inj result with ⟨rfl, rfl⟩
      exact .prunes found rfl rfl
  | nil =>
      cases follows with
      | addConnection connectionId user =>
          rcases Prod.mk.inj (Option.some.inj taken) with ⟨rfl, rfl⟩
          exact .turns
      | isEmpty =>
          rcases Option.map_eq_some_iff.mp taken with ⟨room, found, result⟩
          rcases Prod.mk.inj result with ⟨rfl, rfl⟩
          exact .returns rfl rfl rfl trivial
      | nothing =>
          rcases Prod.mk.inj (Option.some.inj taken) with ⟨rfl, rfl⟩
          exact .returns rfl rfl rfl trivial

theorem move_broadcast {message : ServerMessage}
    (taken : (Call.broadcast strategyId connectionId message).step shard manager failing =
      some (after, moved)) :
    Move shard manager failing (.broadcast strategyId connectionId message) after moved := by
  simp only [Call.step] at taken
  split at taken
  next => cases taken
  next free =>
    split at taken <;> rcases Prod.mk.inj (Option.some.inj taken) with ⟨rfl, rfl⟩
    · exact .passes rfl rfl rfl rfl trivial
    · exact .sends rfl free rfl rfl fun plain => plain

theorem move_of_step (taken : call.step shard manager failing = some (after, moved)) :
    Move shard manager failing call after moved := by
  cases call with
  | join strategyId connectionId user =>
      simp only [Call.step] at taken
      split at taken <;> rcases Prod.mk.inj (Option.some.inj taken) with ⟨rfl, rfl⟩
      · exact .passes rfl rfl rfl rfl trivial
      · exact .passes rfl rfl rfl rfl trivial
  | joinEntry strategyId connectionId user => exact move_joinEntry taken
  | joinAdd strategyId connectionId user =>
      rcases Option.map_eq_some_iff.mp taken with ⟨room, found, result⟩
      rcases Prod.mk.inj result with ⟨rfl, rfl⟩
      exact .adds found rfl rfl
  | rollBack error =>
      rcases Prod.mk.inj (Option.some.inj taken) with ⟨rfl, rfl⟩
      exact .passes rfl rfl rfl rfl trivial
  | leave strategyId connectionId => exact move_leave taken
  | leaveCount strategyId shouldRemove =>
      rcases Prod.mk.inj (Option.some.inj taken) with ⟨rfl, rfl⟩
      refine .passes rfl ?_ rfl rfl ?_
      · cases shouldRemove <;> exact rfl
      · cases shouldRemove <;> trivial
  | removeRoom strategyId =>
      simp only [Call.step] at taken
      split at taken
      next => cases taken
      next =>
        rcases Prod.mk.inj (Option.some.inj taken) with ⟨rfl, rfl⟩
        exact .removes rfl rfl
  | removeLock strategyId =>
      rcases Prod.mk.inj (Option.some.inj taken) with ⟨rfl, rfl⟩
      exact .passes rfl rfl rfl rfl trivial
  | broadcast strategyId senderConnectionId message => exact move_broadcast taken
  | deliver strategyId queue follows => exact move_deliver taken
  | settle strategyId pruned queue follows =>
      rcases Prod.mk.inj (Option.some.inj taken) with ⟨rfl, rfl⟩
      exact .settles rfl rfl
  | persist strategyId =>
      simp only [Call.step] at taken
      split at taken <;> rcases Prod.mk.inj (Option.some.inj taken) with ⟨rfl, rfl⟩
      · exact .passes rfl rfl rfl rfl trivial
      · exact .passes rfl rfl rfl rfl trivial
  | strategyLock strategyId =>
      simp only [Call.step] at taken
      split at taken <;> rcases Prod.mk.inj (Option.some.inj taken) with ⟨rfl, rfl⟩
      · exact .passes rfl rfl rfl rfl trivial
      · exact .passes rfl rfl rfl rfl trivial
  | lock strategyId mutex =>
      simp only [Call.step] at taken
      split at taken
      next => cases taken
      next =>
        rcases Prod.mk.inj (Option.some.inj taken) with ⟨rfl, rfl⟩
        exact .passes rfl rfl rfl rfl trivial
  | work strategyId mutex =>
      rcases Prod.mk.inj (Option.some.inj taken) with ⟨rfl, rfl⟩
      exact .passes rfl rfl rfl rfl trivial
  | joined strategyId connectionId => cases taken
  | rejected error => cases taken
  | left => cases taken
  | sent => cases taken
  | persisted => cases taken
  | busy => cases taken

end Moves

/-! ## Guards -/

section Guards

variable {shard : Text → ℕ} {manager after : RoomManager} {call moved : Call} {failing : List Text}
  {guarded : ℕ}

/-- The guards on a shard move with the call that has them. -/
theorem count_guards (move : Move shard manager failing call after moved)
    (held : call.holds shard guarded ≤ manager.guards.count guarded) :
    after.guards.count guarded + call.holds shard guarded =
        manager.guards.count guarded + moved.holds shard guarded ∧
      (manager.guards.count guarded ≤ 1 → after.guards.count guarded ≤ 1) := by
  cases move with
  | passes loose still stored guards plain => simp [guards, Call.holds_of_loose loose, Call.holds_of_loose still]
  | @enters _ _ strategyId connectionId user loose free stored guards =>
      rw [guards, List.count_cons, Call.holds_of_loose loose]
      by_cases same : shard strategyId = guarded
      · have absent : manager.guards.count guarded = 0 := List.count_eq_zero.mpr (same ▸ free)
        simp [Call.holds, same, absent]
      · simp [Call.holds, same]
  | @sends _ _ strategyId skip message follows loose free stored guards other =>
      rw [guards, List.count_cons, Call.holds_of_loose loose]
      by_cases same : shard strategyId = guarded
      · have absent : manager.guards.count guarded = 0 := List.count_eq_zero.mpr (same ▸ free)
        simp [Call.holds, same, absent]
      · simp [Call.holds, same]
  | @adds strategyId connectionId user _ room found rooms guards =>
      simp only [Call.holds] at held
      rw [guards, List.count_erase]
      by_cases same : shard strategyId = guarded
      · simp only [same, if_true, beq_self_eq_true, Call.holds] at held ⊢
        omega
      · simp [Call.holds, same]
  | takes found inside stays rooms guards still plain =>
      rw [guards, Call.holds_of_loose still]
      simp [Call.holds]
  | @parts strategyId connectionId user _ room found inside last free rooms guards =>
      rw [guards, List.count_cons]
      by_cases same : shard strategyId = guarded
      · have absent : manager.guards.count guarded = 0 := List.count_eq_zero.mpr (same ▸ free)
        simp [Call.holds, same, absent]
      · simp [Call.holds, same]
  | prunes found rooms guards =>
      rw [guards]
      split <;> simp [Call.holds]
  | settles rooms guards => simp [guards, Call.holds]
  | turns => simp [Call.holds]
  | @returns strategyId follows _ _ rooms guards still plain =>
      simp only [Call.holds] at held
      rw [guards, List.count_erase, Call.holds_of_loose still]
      by_cases same : shard strategyId = guarded
      · simp only [same, if_true, beq_self_eq_true, Call.holds] at held ⊢
        omega
      · simp [Call.holds, same]
  | removes rooms guards => simp [guards, Call.holds]

end Guards

/-! ## Announcements -/

/-- The pass that a call makes next takes out at most one connection of a user it leaves none. -/
def Call.PartsOneByOne (manager : RoomManager) (failing : List Text) : Call → Prop
  | .deliver strategyId ((skip, _) :: _) _ =>
      ∀ room ∈ manager.rooms.lookup strategyId, room.PartsOneByOne skip failing
  | _ => True

instance (manager : RoomManager) (failing : List Text) :
    DecidablePred (Call.PartsOneByOne manager failing)
  | .deliver strategyId ((skip, _) :: _) _ =>
      inferInstanceAs (Decidable (∀ room ∈ manager.rooms.lookup strategyId,
        room.PartsOneByOne skip failing))
  | .deliver _ [] _ | .settle _ _ _ _ | .join _ _ _ | .joinEntry _ _ _ | .joinAdd _ _ _
  | .rollBack _ | .joined _ _ | .rejected _ | .leave _ _ | .leaveCount _ _ | .removeRoom _
  | .removeLock _ | .left | .broadcast _ _ _ | .sent | .persist _ | .strategyLock _ | .lock _ _
  | .work _ _ | .persisted | .busy =>
      inferInstanceAs (Decidable True)

section Erase

variable {room : Room} {connectionId userId : Text} {user : CollabUserInfo}

theorem userOf_erase {other : Text} : Room.userOf (room.erase connectionId) other =
    if other = connectionId then none else room.userOf other := by
  unfold Room.userOf
  rw [HashMap.lookup_erase']
  split <;> rfl

theorem hasUser_of_erase (present : Room.hasUser (room.erase connectionId) userId = true) :
    room.hasUser userId = true := by
  rw [Room.hasUser_iff] at present ⊢
  rcases present with ⟨other, found⟩
  rw [userOf_erase] at found
  split at found
  next => cases found
  next => exact ⟨other, found⟩

/-- Only the user of a connection can be gone with it. -/
theorem hasUser_erase_of_ne (inside : room.lookup connectionId = some user)
    (other : userId ≠ user.id) (present : room.hasUser userId = true) :
    Room.hasUser (room.erase connectionId) userId = true := by
  rw [Room.hasUser_iff] at present ⊢
  rcases present with ⟨theirs, found⟩
  refine ⟨theirs, ?_⟩
  have differs : theirs ≠ connectionId := by
    rintro rfl
    simp only [Room.userOf, inside, Option.map_some, Option.some.injEq] at found
    exact other found.symm
  rw [userOf_erase, if_neg differs, found]

theorem hasUser_of_lookup (inside : room.lookup connectionId = some user) :
    room.hasUser user.id = true :=
  Room.hasUser_iff.mpr ⟨connectionId, by simp [Room.userOf, inside]⟩

theorem hasUser_addConnection_of_none (absent : room.lookup connectionId = none)
    (present : room.hasUser userId = true) :
    (room.addConnection connectionId user).hasUser userId = true := by
  rw [Room.hasUser_iff] at present ⊢
  rcases present with ⟨other, found⟩
  refine ⟨other, ?_⟩
  have differs : other ≠ connectionId := by
    rintro rfl
    simp [Room.userOf, absent] at found
  simpa [Room.userOf, Room.addConnection, HashMap.lookup_insert', differs] using found

end Erase

section Ledger

variable {shard : Text → ℕ} {manager after : RoomManager} {call moved : Call} {failing : List Text}
  {strategyId userId : Text}

theorem count_userLeft (users : List Pruned) :
    (List.map Prod.snd (users.map fun user =>
      ((none : Option Text), ServerMessage.userLeft user.userId))).count (.userLeft userId) =
      (users.map Pruned.userId).count userId := by
  induction users with
  | nil => rfl
  | cons first rest ih =>
      simp only [List.map_cons, List.count_cons, ih, beq_iff_eq, ServerMessage.userLeft.injEq]

/-- **One step of the ledger: what is queued or sent after a step was queued before it or is owed
to a user who has left with it.** -/
theorem ledger (move : Move shard manager failing call after moved) (tidy : call.Tidy manager)
    (plain : call.Plain) (one_by_one : call.PartsOneByOne manager failing) :
    moved.queued strategyId userId + (if call.announces strategyId userId then 1 else 0) =
      call.queued strategyId userId +
        (if manager.present strategyId userId && !after.present strategyId userId then 1 else 0) := by
  cases move with
  | passes loose still stored guards still_plain =>
      simp [Call.queued_of_loose loose, Call.queued_of_loose still, Call.announces_of_loose loose,
        present_of_stored stored]
  | enters loose free stored guards =>
      rw [Call.queued_of_loose loose, Call.announces_of_loose loose, present_of_stored stored]
      simp [Call.queued]
  | @sends _ _ at_strategy skip message follows loose free stored guards other =>
      have not_left : (message == ServerMessage.userLeft userId) = false := by
        simpa using other plain userId
      rw [Call.queued_of_loose loose, Call.announces_of_loose loose, present_of_stored stored]
      simp [Call.queued, List.count_cons, not_left]
  | @adds at_strategy connectionId user _ room found rooms guards =>
      have absent : room.lookup connectionId = none := by
        simpa [Call.Tidy, RoomManager.stored, found] using tidy
      rw [present_insert rooms]
      by_cases same : strategyId = at_strategy
      · subst same
        rw [present_of_lookup found]
        cases present : room.hasUser userId with
        | false => simp [Call.queued, Call.announces]
        | true =>
            simp [Call.queued, Call.announces, hasUser_addConnection_of_none absent present]
      · simp [Call.queued, Call.announces, same]
  | @takes at_strategy connectionId user _ room _ found inside stays rooms guards still still_plain =>
      rw [present_insert rooms, Call.queued_of_loose still]
      by_cases same : strategyId = at_strategy
      · subst same
        rw [present_of_lookup found]
        cases present : room.hasUser userId with
        | false => simp [Call.queued, Call.announces]
        | true =>
            have still_there : Room.hasUser (room.erase connectionId) userId = true := by
              by_cases its_user : userId = user.id
              · rw [its_user]
                exact stays
              · exact hasUser_erase_of_ne inside its_user present
            simp [Call.queued, Call.announces, still_there]
      · simp [Call.queued, Call.announces, same]
  | @parts at_strategy connectionId user _ room found inside last free rooms guards =>
      rw [present_insert rooms]
      by_cases same : strategyId = at_strategy
      · subst same
        rw [present_of_lookup found]
        by_cases its_user : userId = user.id
        · subst its_user
          simp [Call.queued, Call.announces, last, hasUser_of_lookup inside]
        · have not_left : (ServerMessage.userLeft user.id == .userLeft userId) = false := by
            simpa using Ne.symm its_user
          cases present : room.hasUser userId with
          | false => simp [Call.queued, Call.announces, List.count_cons, not_left]
          | true =>
              simp [Call.queued, Call.announces, List.count_cons, not_left,
                hasUser_erase_of_ne inside its_user present]
      · simp [Call.queued, Call.announces, same, Ne.symm same]
  | @prunes at_strategy skip message queue follows _ room found rooms guards =>
      rw [present_insert rooms]
      by_cases same : strategyId = at_strategy
      · subst same
        have reported := @Room.count_gone_of_partsOneByOne room userId skip failing
          (one_by_one room found)
        rw [present_of_lookup found, if_pos rfl, ← reported]
        have settled : (if (room.broadcast skip failing).2.isEmpty then
            Call.deliver strategyId queue follows
            else .settle strategyId (room.broadcast skip failing).2 queue follows).queued
              strategyId userId = (queue.map Prod.snd).count (.userLeft userId) +
                (room.gone skip failing).count userId := by
          split
          next none_pruned =>
            have nobody : (room.broadcast skip failing).2 = [] := List.isEmpty_iff.mp none_pruned
            simp [Call.queued, Room.gone, nobody]
          next => simp [Call.queued, Room.gone]
        rw [settled]
        simp only [Call.queued, Call.announces, if_true, List.map_cons, List.count_cons, decide_true,
          Bool.true_and]
        omega
      · have elsewhere : (if (room.broadcast skip failing).2.isEmpty then
            Call.deliver at_strategy queue follows
            else .settle at_strategy (room.broadcast skip failing).2 queue follows).queued
              strategyId userId = 0 := by
          split <;> simp [Call.queued, Ne.symm same]
        rw [elsewhere]
        simp [Call.queued, Call.announces, same, Ne.symm same]
  | @settles at_strategy pruned queue follows _ rooms guards =>
      have present : after.present strategyId userId = manager.present strategyId userId := by
        simp [RoomManager.present, rooms]
      rw [present]
      by_cases same : at_strategy = strategyId
      · simp [Call.queued, Call.announces, same, List.map_append, List.count_append,
          ← count_userLeft]
      · simp [Call.queued, Call.announces, same]
  | turns => simp [Call.queued, Call.announces]
  | returns rooms guards still still_plain =>
      have present : after.present strategyId userId = manager.present strategyId userId := by
        simp [RoomManager.present, rooms]
      rw [Call.queued_of_loose still, present]
      simp [Call.queued, Call.announces]
  | @removes at_strategy _ rooms guards =>
      have nobody : manager.present at_strategy userId = false := by
        cases found : manager.rooms.lookup at_strategy with
        | none => simp [RoomManager.present, found]
        | some room =>
            have empty : room = ∅ := AList.ext (List.eq_nil_of_length_eq_zero (tidy room found))
            rw [present_of_lookup found, empty]
            rfl
      rw [present_erase rooms]
      by_cases same : strategyId = at_strategy
      · simp [Call.queued, Call.announces, same, nobody]
      · simp [Call.queued, Call.announces, same]

end Ledger

/-! ## Nobody is announced who is still there -/

section Safety

variable {shard : Text → ℕ} {manager after : RoomManager} {call moved : Call} {failing : List Text}
  {strategyId userId : Text}

/-- A user is announced as soon as nobody of that name is left in the room. -/
theorem absent_of_queued (move : Move shard manager failing call after moved) (plain : call.Plain)
    (absent : 0 < call.queued strategyId userId → manager.present strategyId userId = false)
    (queued : 0 < moved.queued strategyId userId) : after.present strategyId userId = false := by
  cases move with
  | passes loose still stored guards still_plain =>
      rw [Call.queued_of_loose still] at queued
      cases queued
  | enters loose free stored guards => cases queued
  | @sends _ _ at_strategy skip message follows loose free stored guards other =>
      have not_left : (message == ServerMessage.userLeft userId) = false := by
        simpa using other plain userId
      simp [Call.queued, List.count_cons, not_left] at queued
  | adds found rooms guards => cases queued
  | takes found inside stays rooms guards still still_plain =>
      rw [Call.queued_of_loose still] at queued
      cases queued
  | @parts at_strategy connectionId user _ room found inside last free rooms guards =>
      simp only [Call.queued] at queued
      split at queued
      next same =>
        subst same
        have its_user : user.id = userId := by
          by_contra other
          simp [other] at queued
        rw [present_insert rooms, if_pos rfl, ← its_user]
        exact last
      next => cases queued
  | @prunes at_strategy skip message queue follows _ room found rooms guards =>
      rw [present_insert rooms]
      split
      next same =>
        subst same
        by_cases reported : userId ∈ room.gone skip failing
        · exact Room.not_hasUser_of_mem_gone reported
        · have before : 0 < (Call.deliver strategyId ((skip, message) :: queue) follows).queued
              strategyId userId := by
            have none_reported := List.count_eq_zero.mpr reported
            split at queued
            next =>
              simp only [Call.queued, if_true, List.map_cons, List.count_cons] at queued ⊢
              omega
            next =>
              simp only [Call.queued, if_true, List.map_cons, List.count_cons] at queued ⊢
              simp only [Room.gone] at none_reported
              omega
          have gone := absent before
          rw [present_of_lookup found] at gone
          by_contra left
          rw [Bool.not_eq_false] at left
          rw [Room.hasUser_of_broadcast left] at gone
          cases gone
      next other =>
        split at queued <;> simp [Call.queued, Ne.symm other] at queued
  | @settles at_strategy pruned queue follows _ rooms guards =>
      have present : after.present strategyId userId = manager.present strategyId userId := by
        simp [RoomManager.present, rooms]
      rw [present]
      refine absent ?_
      simp only [Call.queued] at queued ⊢
      split at queued
      next same =>
        rw [List.map_append, List.count_append, count_userLeft] at queued
        rwa [if_pos same]
      next => cases queued
  | turns => cases queued
  | returns rooms guards still still_plain =>
      rw [Call.queued_of_loose still] at queued
      cases queued
  | removes rooms guards => cases queued

/-- Only a call with a guard on the room puts a user into it. -/
theorem joinAdd_of_appears (move : Move shard manager failing call after moved)
    (absent : manager.present strategyId userId = false)
    (present : after.present strategyId userId = true) :
    ∃ connectionId user, call = .joinAdd strategyId connectionId user := by
  cases move with
  | passes loose still stored guards still_plain =>
      rw [present_of_stored stored, absent] at present
      cases present
  | enters loose free stored guards =>
      rw [present_of_stored stored, absent] at present
      cases present
  | sends loose free stored guards other =>
      rw [present_of_stored stored, absent] at present
      cases present
  | @adds at_strategy connectionId user _ room found rooms guards =>
      rw [present_insert rooms] at present
      split at present
      next same =>
        subst same
        exact ⟨connectionId, user, rfl⟩
      next =>
        rw [absent] at present
        cases present
  | @takes at_strategy connectionId user _ room _ found inside stays rooms guards still still_plain =>
      rw [present_insert rooms] at present
      split at present
      next same =>
        subst same
        rw [present_of_lookup found, hasUser_of_erase present] at absent
        cases absent
      next =>
        rw [absent] at present
        cases present
  | @parts at_strategy connectionId user _ room found inside last free rooms guards =>
      rw [present_insert rooms] at present
      split at present
      next same =>
        subst same
        rw [present_of_lookup found, hasUser_of_erase present] at absent
        cases absent
      next =>
        rw [absent] at present
        cases present
  | @prunes at_strategy skip message queue follows _ room found rooms guards =>
      rw [present_insert rooms] at present
      split at present
      next same =>
        subst same
        rw [present_of_lookup found, Room.hasUser_of_broadcast present] at absent
        cases absent
      next =>
        rw [absent] at present
        cases present
  | settles rooms guards =>
      simp only [RoomManager.present, rooms] at present absent
      rw [absent] at present
      cases present
  | turns =>
      rw [absent] at present
      cases present
  | returns rooms guards still still_plain =>
      simp only [RoomManager.present, rooms] at present absent
      rw [absent] at present
      cases present
  | removes rooms guards =>
      rw [present_erase rooms] at present
      split at present
      next => cases present
      next =>
        rw [absent] at present
        cases present

theorem plain_of_move (move : Move shard manager failing call after moved) : moved.Plain := by
  cases move with
  | passes loose still stored guards still_plain => exact still_plain
  | takes found inside stays rooms guards still still_plain => exact still_plain
  | returns rooms guards still still_plain => exact still_plain
  | prunes found rooms guards => split <;> trivial
  | enters | sends | adds | parts | settles | turns | removes => trivial

theorem holds_of_queued (queued : 0 < call.queued strategyId userId) :
    call.holds shard (shard strategyId) = 1 := by
  cases call with
  | deliver at_strategy queue follows =>
      simp only [Call.queued] at queued
      split at queued
      next same => simp [Call.holds, same]
      next => cases queued
  | settle at_strategy pruned queue follows =>
      simp only [Call.queued] at queued
      split at queued
      next same => simp [Call.holds, same]
      next => cases queued
  | _ => cases queued

end Safety

/-- The guards are those of the calls, one for a shard at most, and a user whose leave has still to
be announced is not in the room. -/
structure Orderly (shard : Text → ℕ) (pool : Pool RoomManager Call) : Prop where
  guards : ∀ guarded, (pool.processes.map (Call.holds shard guarded)).sum =
    pool.shared.guards.count guarded
  single : ∀ guarded, pool.shared.guards.count guarded ≤ 1
  plain : ∀ call ∈ pool.processes, call.Plain
  absent : ∀ call ∈ pool.processes, ∀ strategyId userId,
    0 < call.queued strategyId userId → pool.shared.present strategyId userId = false

theorem orderly_next {shard : Text → ℕ} {pool after : Pool RoomManager Call}
    {turn : Turn (List Text)} (taken : (collab shard).next pool turn = some after)
    (orderly : Orderly shard pool) : Orderly shard after := by
  rcases interleaving_next_eq_some.mp taken with ⟨call, shared, moved, found, stepped, rfl⟩
  have move := move_of_step stepped
  have call_mem := List.mem_of_getElem? found
  have counted : ∀ guarded, call.holds shard guarded ≤ pool.shared.guards.count guarded := by
    intro guarded
    rw [← orderly.guards]
    exact Pool.le_sum _ found
  refine ⟨?_, ?_, ?_, ?_⟩
  · intro guarded
    have held := (count_guards move (counted guarded)).1
    have moves : ((pool.processes.set turn.process moved).map (Call.holds shard guarded)).sum +
        call.holds shard guarded =
          (pool.processes.map (Call.holds shard guarded)).sum + moved.holds shard guarded :=
      Pool.sum_set _ found
    have before := orderly.guards guarded
    simp only at held moves before ⊢
    omega
  · intro guarded
    exact (count_guards move (counted guarded)).2 (orderly.single guarded)
  · intro other other_mem
    rcases List.mem_or_eq_of_mem_set other_mem with before | rfl
    · exact orderly.plain other before
    · exact plain_of_move move
  · intro other other_mem strategyId userId queued
    rcases List.getElem?_of_mem other_mem with ⟨position, at_position⟩
    rcases Pool.of_set at_position with ⟨-, rfl⟩ | ⟨differs, there⟩
    · exact absent_of_queued move (orderly.plain call call_mem)
        (orderly.absent call call_mem strategyId userId) queued
    · have gone := orderly.absent other (List.mem_of_getElem? there) strategyId userId queued
      by_contra appears
      rw [Bool.not_eq_false] at appears
      rcases joinAdd_of_appears move gone appears with ⟨connectionId, user, rfl⟩
      -- Both calls would have the guard on the room.
      have mine : (Call.joinAdd strategyId connectionId user).holds shard (shard strategyId) = 1 :=
        if_pos rfl
      have theirs : other.holds shard (shard strategyId) = 1 := holds_of_queued queued
      have without : ((pool.processes.set turn.process .left).map
          (Call.holds shard (shard strategyId))).sum +
            (Call.joinAdd strategyId connectionId user).holds shard (shard strategyId) =
          (pool.processes.map (Call.holds shard (shard strategyId))).sum +
            Call.left.holds shard (shard strategyId) := Pool.sum_set _ found
      have still_theirs := Pool.le_sum (Call.holds shard (shard strategyId))
        ((Pool.others_stay differs).trans there : (pool.processes.set turn.process .left)[position]? = _)
      have all := orderly.guards (shard strategyId)
      have one := orderly.single (shard strategyId)
      have nothing : Call.left.holds shard (shard strategyId) = 0 := rfl
      omega

/-! ## The deliver loop -/

/-- A delivery between two passes. -/
structure Delivery where
  room : Room
  queue : Queue
  passes : ℕ

/-- One pass of the loop: the first message of the queue, and `UserLeft` for each report. -/
def deliverPass (failing : ℕ → List Text) (delivery : Delivery) : Option Delivery :=
  match delivery.queue with
  | [] => none
  | (skip, _) :: queue =>
      some {
        room := (delivery.room.broadcast skip (failing delivery.passes)).1
        queue := queue ++ (delivery.room.gone skip (failing delivery.passes)).map
          fun userId => (none, .userLeft userId)
        passes := delivery.passes + 1 }

/-- Each pass sends one message, and queues at most one for each connection it takes out. -/
theorem deliverPass_lowers {failing : ℕ → List Text} {delivery next : Delivery}
    (pass : deliverPass failing delivery = some next) :
    HashMap.len next.room + next.queue.length <
      HashMap.len delivery.room + delivery.queue.length := by
  unfold deliverPass at pass
  split at pass
  next => cases pass
  next skip message queue queued =>
    rcases Option.some.inj pass with rfl
    have pruned := Room.len_broadcast delivery.room skip (failing delivery.passes)
    have reported : (delivery.room.gone skip (failing delivery.passes)).length ≤
        (delivery.room.broadcast skip (failing delivery.passes)).2.length := by
      simpa [Room.gone] using List.length_filter_le _ _
    simp only [queued, List.length_append, List.length_map, List.length_cons]
    omega

/-- A pass is what the machine does in one step, or in two when it takes somebody out. -/
theorem steps_of_pass {shard : Text → ℕ} {manager : RoomManager} {strategyId : Text} {room : Room}
    {skip : Option Text} {message : ServerMessage} {queue : Queue} {follows : After}
    (failing : List Text) (found : manager.rooms.lookup strategyId = some room) :
    ∃ after, after.rooms = manager.rooms.insert strategyId (room.broadcast skip failing).1 ∧
      ((Call.deliver strategyId ((skip, message) :: queue) follows).step shard manager failing =
          some (after, .deliver strategyId (queue ++ (room.gone skip failing).map
            fun userId => (none, .userLeft userId)) follows) ∨
        ∃ between pruned,
          (Call.deliver strategyId ((skip, message) :: queue) follows).step shard manager failing =
            some (between, .settle strategyId pruned queue follows) ∧
          ∀ choice, (Call.settle strategyId pruned queue follows).step shard between choice =
            some (after, .deliver strategyId (queue ++ (room.gone skip failing).map
              fun userId => (none, .userLeft userId)) follows)) := by
  cases pruned : (room.broadcast skip failing).2 with
  | nil =>
      refine ⟨manager.putRoom strategyId (room.broadcast skip failing).1, rfl, .inl ?_⟩
      simp [Call.step, found, pruned, Room.gone]
  | cons first rest =>
      refine ⟨(manager.putRoom strategyId (room.broadcast skip failing).1).fetchSub
        (first :: rest).length, rfl,
        .inr ⟨manager.putRoom strategyId (room.broadcast skip failing).1, first :: rest, ?_, ?_⟩⟩
      · simp [Call.step, found, pruned]
      · intro choice
        simp [Call.step, Room.gone, pruned, Function.comp_def]

/-! ## Runs -/

namespace CollabStep

def Departs (step : CollabStep) (strategyId userId : Text) : Bool :=
  step.before.shared.present strategyId userId && !step.after.shared.present strategyId userId

def Announces (step : CollabStep) (strategyId userId : Text) : Bool :=
  (step.call?.map (Call.announces strategyId userId)).getD false

/-- The pass of the step takes out at most one connection of a user it leaves none. -/
def PartsOneByOne (step : CollabStep) : Prop :=
  ∀ call ∈ step.call?, call.PartsOneByOne step.before.shared step.event.choice

instance (step : CollabStep) : Decidable step.PartsOneByOne :=
  inferInstanceAs (Decidable (∀ call ∈ step.call?,
    call.PartsOneByOne step.before.shared step.event.choice))

end CollabStep

def departures (steps : List CollabStep) (strategyId userId : Text) : ℕ :=
  steps.countP fun step => CollabStep.Departs step strategyId userId

def announcements (steps : List CollabStep) (strategyId userId : Text) : ℕ :=
  steps.countP fun step => CollabStep.Announces step strategyId userId

/-- The announcements that the calls have still to make. -/
def queuedAnnouncements (pool : Pool RoomManager Call) (strategyId userId : Text) : ℕ :=
  (pool.processes.map (Call.queued strategyId userId)).sum

theorem queuedAnnouncements_of_quiescent {pool : Pool RoomManager Call} {strategyId userId : Text}
    (quiescent : Quiescent pool) : queuedAnnouncements pool strategyId userId = 0 := by
  refine List.sum_eq_zero ?_
  intro count count_mem
  rcases List.mem_map.mp count_mem with ⟨call, call_mem, rfl⟩
  have between := quiescent call call_mem
  cases call <;> first | rfl | cases between

section Runs

variable {shard : Text → ℕ} {start final : Pool RoomManager Call} {steps : List CollabStep}

theorem orderly_start (maxGlobal : ℕ) (new : start.shared = RoomManager.withGlobalLimit maxGlobal)
    (starting : ∀ call ∈ start.processes, call.starts = true ∧ call.Plain) :
    Orderly shard start := by
  refine ⟨?_, ?_, fun call call_mem => (starting call call_mem).2, ?_⟩
  · intro guarded
    rw [new]
    refine List.sum_eq_zero ?_
    intro count count_mem
    rcases List.mem_map.mp count_mem with ⟨call, call_mem, rfl⟩
    have starts := (starting call call_mem).1
    cases call <;> first | rfl | cases starts
  · intro guarded
    rw [new]
    exact Nat.zero_le 1
  · intro call call_mem strategyId userId queued
    have starts := (starting call call_mem).1
    cases call <;> first | cases queued | cases starts

theorem ledger_next {pool after : Pool RoomManager Call} {turn : Turn (List Text)}
    {strategyId userId : Text} (taken : (collab shard).next pool turn = some after)
    (orderly : Orderly shard pool) (tidy : CollabStep.Tidy ⟨pool, turn, after⟩)
    (one_by_one : CollabStep.PartsOneByOne ⟨pool, turn, after⟩) :
    queuedAnnouncements after strategyId userId +
        (if CollabStep.Announces ⟨pool, turn, after⟩ strategyId userId then 1 else 0) =
      queuedAnnouncements pool strategyId userId +
        (if CollabStep.Departs ⟨pool, turn, after⟩ strategyId userId then 1 else 0) := by
  rcases interleaving_next_eq_some.mp taken with ⟨call, shared, moved, found, stepped, rfl⟩
  have balance := @ledger shard pool.shared shared call moved turn.choice strategyId userId
    (move_of_step stepped) (tidy call found)
    (orderly.plain call (List.mem_of_getElem? found)) (one_by_one call found)
  have moves : ((pool.processes.set turn.process moved).map (Call.queued strategyId userId)).sum +
      call.queued strategyId userId =
        (pool.processes.map (Call.queued strategyId userId)).sum +
          moved.queued strategyId userId := Pool.sum_set _ found
  have called : CollabStep.Announces ⟨pool, turn,
      ⟨shared, pool.processes.set turn.process moved⟩⟩ strategyId userId =
        call.announces strategyId userId := by
    simp [CollabStep.Announces, CollabStep.call?, found]
  have left : CollabStep.Departs ⟨pool, turn, ⟨shared, pool.processes.set turn.process moved⟩⟩
      strategyId userId =
        (pool.shared.present strategyId userId && !shared.present strategyId userId) := rfl
  rw [called, left]
  simp only [queuedAnnouncements]
  omega

/-- **The deliver loop ends, nobody is announced as gone who has a connection, and when no pass
takes out two connections of a user it leaves none, every departure is announced once.** -/
theorem departures_announced_once (maxGlobal : ℕ)
    (new : start.shared = RoomManager.withGlobalLimit maxGlobal)
    (starting : ∀ call ∈ start.processes, call.starts = true ∧ call.Plain)
    (run : (collab shard).Run start steps final) :
    (∀ failing delivery, deliverPass failing (loop (deliverPass failing)
        (HashMap.len delivery.room + delivery.queue.length) delivery) = none) ∧
      (∀ step ∈ steps, ∀ strategyId userId, CollabStep.Announces step strategyId userId = true →
        step.before.shared.present strategyId userId = false) ∧
      ((∀ step ∈ steps, CollabStep.Tidy step ∧ CollabStep.PartsOneByOne step) →
        ∀ strategyId userId,
          departures steps strategyId userId =
            announcements steps strategyId userId + queuedAnnouncements final strategyId userId ∧
          (Quiescent final → departures steps strategyId userId =
            announcements steps strategyId userId)) := by
  have orderly := @orderly_start shard start maxGlobal new starting
  refine ⟨?_, ?_, ?_⟩
  · intro failing delivery
    exact loop_leaves (fun delivery => HashMap.len delivery.room + delivery.queue.length)
      deliverPass_lowers le_rfl
  · intro step step_mem strategyId userId announced
    rcases List.append_of_mem step_mem with ⟨before, later, rfl⟩
    have there := run.reaches_before.1.invariant (Orderly shard) orderly orderly_next
    simp only [CollabStep.Announces, CollabStep.call?] at announced
    cases found : step.before.processes[step.event.process]? with
    | none => simp [found] at announced
    | some call =>
        have queued : 0 < call.queued strategyId userId := by
          simp only [found, Option.map_some, Option.getD_some] at announced
          cases call with
          | deliver at_strategy queue follows =>
              rcases queue with _ | ⟨⟨skip, message⟩, queue⟩
              · cases announced
              · simp only [Call.announces, Bool.and_eq_true, decide_eq_true_eq,
                  beq_iff_eq] at announced
                simp [Call.queued, announced.1, announced.2]
          | _ => cases announced
        exact there.absent call (List.mem_of_getElem? found) strategyId userId queued
  · intro meets strategyId userId
    have balance : Orderly shard final ∧ departures steps strategyId userId =
        announcements steps strategyId userId + queuedAnnouncements final strategyId userId := by
      refine run.history (fun steps pool =>
        (∀ step ∈ steps, CollabStep.Tidy step ∧ CollabStep.PartsOneByOne step) →
          Orderly shard pool ∧ departures steps strategyId userId =
            announcements steps strategyId userId + queuedAnnouncements pool strategyId userId)
        ?_ ?_ meets
      · intro _
        refine ⟨orderly, ?_⟩
        have nothing : queuedAnnouncements start strategyId userId = 0 :=
          queuedAnnouncements_of_quiescent fun call call_mem => by
            simp [(starting call call_mem).1]
        rw [nothing]
        rfl
      · intro earlier pool turn after taken ih meets
        rcases ih fun step step_mem => meets step (List.mem_append_left _ step_mem) with
          ⟨orderly, balanced⟩
        rcases meets _ (List.mem_append_right _ (List.mem_singleton_self _)) with
          ⟨tidy, one_by_one⟩
        refine ⟨orderly_next taken orderly, ?_⟩
        have one := @ledger_next shard pool after turn strategyId userId taken orderly tidy one_by_one
        simp only [departures, announcements, List.countP_append, List.countP_singleton]
          at balanced ⊢
        omega
    refine ⟨balance.2, ?_⟩
    intro quiescent
    rw [balance.2, queuedAnnouncements_of_quiescent quiescent]
    rfl

end Runs

/-! ## Two tabs of one user -/

def twoTabs : Pool RoomManager Call where
  shared := .withGlobalLimit 512
  processes :=
    [.join "push".toList "tab1".toList firstUser, .join "push".toList "tab2".toList firstUser,
      .join "push".toList "tab3".toList secondUser,
      .broadcast "push".toList "tab3".toList (.edit [])]

/-- Both tabs are closed when the message of the third connection comes. -/
def bothClosed : List (Turn (List Text)) :=
  collabTurns 0 5 ++ collabTurns 1 3 ++ collabTurns 2 5 ++ collabTurns 3 1 ++
    [⟨3, ["tab1".toList, "tab2".toList]⟩] ++ collabTurns 3 4

theorem bothClosed_announced_twice :
    ∃ final, (collab fun _ => 0).exec twoTabs bothClosed = some final ∧ Quiescent final ∧
      departures ((collab fun _ => 0).stepsOf twoTabs bothClosed) "push".toList "ana".toList = 1 ∧
      announcements ((collab fun _ => 0).stepsOf twoTabs bothClosed)
        "push".toList "ana".toList = 2 := by
  have quiescent : ∀ call ∈ [Call.joined "push".toList "tab1".toList,
      .joined "push".toList "tab2".toList, .joined "push".toList "tab3".toList, .sent],
      call.starts || call.ended := by
    decide
  exact ⟨_, rfl, quiescent, by decide, by decide⟩

/-- The first connection leaves, and its user is announced once. -/
theorem inOrder_announced : ∃ final, (collab fun _ => 0).exec relay inOrder = some final ∧
    departures ((collab fun _ => 0).stepsOf relay inOrder) "push".toList "ana".toList = 1 ∧
    announcements ((collab fun _ => 0).stepsOf relay inOrder) "push".toList "ana".toList = 1 := by
  have run : (collab fun _ => 0).Run relay ((collab fun _ => 0).stepsOf relay inOrder) _ :=
    .of_exec rfl
  have starting : ∀ call ∈ relay.processes, call.starts = true ∧ call.Plain := by
    intro call call_mem
    simp only [relay, List.mem_cons, List.not_mem_nil, or_false] at call_mem
    rcases call_mem with rfl | rfl | rfl <;> exact ⟨rfl, trivial⟩
  have meets : ∀ step ∈ (collab fun _ => 0).stepsOf relay inOrder,
      CollabStep.Tidy step ∧ CollabStep.PartsOneByOne step := by
    decide
  have quiescent : ∀ call ∈ [Call.joined "push".toList "tab1".toList, .left,
      .joined "push".toList "tab2".toList], call.starts || call.ended := by
    decide
  have balanced := (departures_announced_once 512 rfl starting run).2.2 meets "push".toList
    "ana".toList
  have one : departures ((collab fun _ => 0).stepsOf relay inOrder) "push".toList "ana".toList =
      1 := by
    decide
  exact ⟨_, rfl, one, (balanced.2 quiescent).symm.trans one⟩

end ScuffedCrew.Collab
