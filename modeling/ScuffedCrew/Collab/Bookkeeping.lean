import ScuffedCrew.Collab.Manager

/-!
# Room bookkeeping

The connection count is raised before a connection is stored and lowered after
one is taken out, so between steps it is the number of the stored connections
and of those the calls are about to settle.  A leave decides that a room is
empty under one guard and removes it under another; when somebody has joined
in between, the connection vanishes and its place is never given back.
-/

namespace ScuffedCrew.Collab

open Rust StateMachine

def RoomManager.storedConnections (manager : RoomManager) : ℕ :=
  HashMap.total HashMap.len manager.rooms

def RoomManager.stored (manager : RoomManager) (strategyId connectionId : Text) :
    Option CollabUserInfo :=
  (manager.rooms.lookup strategyId).bind fun room => room.lookup connectionId

def After.pending : After → ℕ
  | .addConnection _ _ => 1
  | .isEmpty => 1
  | .nothing => 0

/-- The connections a call has counted and not stored, or taken out and still counts. -/
def Call.pending : Call → ℕ
  | .joinEntry _ _ _ | .joinAdd _ _ _ | .rollBack _ | .leaveCount _ _ => 1
  | .deliver _ _ after => after.pending
  | .settle _ pruned _ after => pruned.length + after.pending
  | _ => 0

/-- A removed room is empty by then, and a connection is stored once. -/
def Call.Tidy (manager : RoomManager) : Call → Prop
  | .removeRoom strategyId =>
      ∀ room ∈ manager.rooms.lookup strategyId, HashMap.len room = 0
  | .joinAdd strategyId connectionId _ => manager.stored strategyId connectionId = none
  | _ => True

instance (manager : RoomManager) : DecidablePred (Call.Tidy manager)
  | .removeRoom strategyId =>
      inferInstanceAs (Decidable (∀ room ∈ manager.rooms.lookup strategyId, _))
  | .joinAdd strategyId connectionId _ =>
      inferInstanceAs (Decidable (manager.stored strategyId connectionId = none))
  | .join _ _ _ | .joinEntry _ _ _ | .rollBack _ | .joined _ _ | .rejected _ | .leave _ _
  | .leaveCount _ _ | .removeLock _ | .left | .broadcast _ _ _ | .sent | .deliver _ _ _
  | .settle _ _ _ _ | .persist _ | .strategyLock _ | .lock _ _ | .work _ _ | .persisted | .busy =>
      inferInstanceAs (Decidable True)

/-! ## What a step does to the rooms -/

theorem total_entryOrDefault (manager : RoomManager) (strategyId : Text) :
    HashMap.total HashMap.len (manager.entryOrDefault strategyId).1 =
      manager.storedConnections := by
  unfold RoomManager.entryOrDefault
  split
  next => rfl
  next absent => exact HashMap.total_insert_of_none _ absent

theorem stored_entryOrDefault (manager : RoomManager) (strategyId : Text) :
    RoomManager.stored { manager with rooms := (manager.entryOrDefault strategyId).1 } =
      manager.stored := by
  funext other connectionId
  unfold RoomManager.entryOrDefault
  split
  next => rfl
  next absent =>
    simp only [RoomManager.stored, HashMap.lookup_insert']
    split
    next same =>
      rcases same with rfl
      simp [absent]
    next => rfl

inductive Effect (manager : RoomManager) (failing : List Text) (call : Call) (after : RoomManager)
    (moved : Call) : Prop
  | keeps (stored : after.stored = manager.stored)
      (total : after.storedConnections = manager.storedConnections)
      (counts : call.pending ≤ manager.globalConnections →
        after.globalConnections + call.pending = manager.globalConnections + moved.pending)
  | adds {strategyId connectionId : Text} {user : CollabUserInfo} {room : Room}
      (joins : call = .joinAdd strategyId connectionId user)
      (found : manager.rooms.lookup strategyId = some room)
      (rooms : after.rooms = manager.rooms.insert strategyId (room.addConnection connectionId user))
      (counts : after.globalConnections = manager.globalConnections) (returns : moved.pending = 0)
  | takes {strategyId connectionId : Text} {user : CollabUserInfo} {room : Room}
      (leaves : call = .leave strategyId connectionId)
      (found : manager.rooms.lookup strategyId = some room)
      (inside : room.lookup connectionId = some user)
      (rooms : after.rooms = manager.rooms.insert strategyId (room.erase connectionId))
      (counts : after.globalConnections = manager.globalConnections) (owes : moved.pending = 1)
  | prunes {strategyId : Text} {skip : Option Text} {message : ServerMessage} {queue : Queue}
      {follows : After} {room : Room}
      (delivers : call = .deliver strategyId ((skip, message) :: queue) follows)
      (found : manager.rooms.lookup strategyId = some room)
      (rooms : after.rooms = manager.rooms.insert strategyId (room.broadcast skip failing).1)
      (counts : after.globalConnections = manager.globalConnections)
      (owes : moved.pending = (room.broadcast skip failing).2.length + call.pending)
  | removes {strategyId : Text} (leaves : call = .removeRoom strategyId)
      (rooms : after.rooms = manager.rooms.erase strategyId)
      (counts : after.globalConnections = manager.globalConnections) (returns : moved.pending = 0)

section Effects

variable {shard : Text → ℕ} {manager after : RoomManager} {moved : Call} {failing : List Text}
  {strategyId connectionId : Text} {user : CollabUserInfo}

theorem effect_joinEntry (taken : (Call.joinEntry strategyId connectionId user).step shard manager
    failing = some (after, moved)) :
    Effect manager failing (.joinEntry strategyId connectionId user) after moved := by
  have total := total_entryOrDefault manager strategyId
  have stored := stored_entryOrDefault manager strategyId
  simp only [Call.step] at taken
  split at taken
  next => cases taken
  next =>
    split at taken
    next =>
      rcases Prod.mk.inj (Option.some.inj taken) with ⟨rfl, rfl⟩
      exact .keeps stored total fun _ => rfl
    next =>
      split at taken <;> rcases Prod.mk.inj (Option.some.inj taken) with ⟨rfl, rfl⟩
      · exact .keeps stored total fun _ => rfl
      · exact .keeps stored total fun _ => rfl

theorem effect_leave (taken : (Call.leave strategyId connectionId).step shard manager failing =
    some (after, moved)) : Effect manager failing (.leave strategyId connectionId) after moved := by
  simp only [Call.step] at taken
  split at taken
  next => cases taken
  next =>
    split at taken
    next =>
      rcases Prod.mk.inj (Option.some.inj taken) with ⟨rfl, rfl⟩
      exact .keeps rfl rfl fun _ => rfl
    next room found =>
      split at taken
      next =>
        rcases Prod.mk.inj (Option.some.inj taken) with ⟨rfl, rfl⟩
        refine .keeps rfl rfl fun _ => ?_
        split <;> rfl
      next rest leaving stillPresent removed =>
        rcases Option.map_eq_some_iff.mp removed with ⟨_, inside, same⟩
        rcases Prod.mk.inj same with ⟨rfl, others⟩
        rcases Prod.mk.inj others with ⟨rfl, -⟩
        split at taken <;> rcases Prod.mk.inj (Option.some.inj taken) with ⟨rfl, rfl⟩
        · exact .takes rfl found inside rfl rfl rfl
        · exact .takes rfl found inside rfl rfl rfl

theorem effect_broadcast {message : ServerMessage}
    (taken : (Call.broadcast strategyId connectionId message).step shard manager failing =
      some (after, moved)) :
    Effect manager failing (.broadcast strategyId connectionId message) after moved := by
  simp only [Call.step] at taken
  split at taken
  next => cases taken
  next =>
    split at taken <;> rcases Prod.mk.inj (Option.some.inj taken) with ⟨rfl, rfl⟩
    · exact .keeps rfl rfl fun _ => rfl
    · exact .keeps rfl rfl fun _ => rfl

theorem effect_deliver {queue : Queue} {follows : After}
    (taken : (Call.deliver strategyId queue follows).step shard manager failing =
      some (after, moved)) :
    Effect manager failing (.deliver strategyId queue follows) after moved := by
  cases queue with
  | cons head queue =>
      rcases Option.map_eq_some_iff.mp taken with ⟨room, found, result⟩
      rcases Prod.mk.inj result with ⟨rfl, rfl⟩
      refine .prunes rfl found rfl rfl ?_
      split
      next none_pruned =>
        have emptied : (room.broadcast head.1 failing).2 = [] := List.isEmpty_iff.mp none_pruned
        rw [emptied, List.length_nil, Nat.zero_add]
        rfl
      next => rfl
  | nil =>
      cases follows with
      | addConnection connectionId user =>
          rcases Prod.mk.inj (Option.some.inj taken) with ⟨rfl, rfl⟩
          exact .keeps rfl rfl fun _ => rfl
      | isEmpty =>
          rcases Option.map_eq_some_iff.mp taken with ⟨room, found, result⟩
          rcases Prod.mk.inj result with ⟨rfl, rfl⟩
          exact .keeps rfl rfl fun _ => rfl
      | nothing =>
          rcases Prod.mk.inj (Option.some.inj taken) with ⟨rfl, rfl⟩
          exact .keeps rfl rfl fun _ => rfl

end Effects

theorem effect_of_step {shard : Text → ℕ} {manager after : RoomManager} {call moved : Call}
    {failing : List Text} (taken : call.step shard manager failing = some (after, moved)) :
    Effect manager failing call after moved := by
  cases call with
  | join strategyId connectionId user =>
      simp only [Call.step] at taken
      split at taken <;> rcases Prod.mk.inj (Option.some.inj taken) with ⟨rfl, rfl⟩
      · exact .keeps rfl rfl fun _ => rfl
      · exact .keeps rfl rfl fun _ => rfl
  | joinEntry strategyId connectionId user => exact effect_joinEntry taken
  | joinAdd strategyId connectionId user =>
      rcases Option.map_eq_some_iff.mp taken with ⟨room, found, result⟩
      rcases Prod.mk.inj result with ⟨rfl, rfl⟩
      exact .adds rfl found rfl rfl rfl
  | rollBack error =>
      rcases Prod.mk.inj (Option.some.inj taken) with ⟨rfl, rfl⟩
      exact .keeps rfl rfl fun counted => Nat.sub_add_cancel counted
  | leave strategyId connectionId => exact effect_leave taken
  | leaveCount strategyId shouldRemove =>
      rcases Prod.mk.inj (Option.some.inj taken) with ⟨rfl, rfl⟩
      refine .keeps rfl rfl fun counted => ?_
      cases shouldRemove <;> exact Nat.sub_add_cancel counted
  | removeRoom strategyId =>
      simp only [Call.step] at taken
      split at taken
      next => cases taken
      next =>
        rcases Prod.mk.inj (Option.some.inj taken) with ⟨rfl, rfl⟩
        exact .removes rfl rfl rfl rfl
  | removeLock strategyId =>
      rcases Prod.mk.inj (Option.some.inj taken) with ⟨rfl, rfl⟩
      exact .keeps rfl rfl fun _ => rfl
  | broadcast strategyId senderConnectionId message => exact effect_broadcast taken
  | deliver strategyId queue follows => exact effect_deliver taken
  | settle strategyId pruned queue follows =>
      rcases Prod.mk.inj (Option.some.inj taken) with ⟨rfl, rfl⟩
      refine .keeps rfl rfl fun counted => ?_
      simp only [Call.pending, RoomManager.fetchSub] at counted ⊢
      omega
  | persist strategyId =>
      simp only [Call.step] at taken
      split at taken <;> rcases Prod.mk.inj (Option.some.inj taken) with ⟨rfl, rfl⟩
      · exact .keeps rfl rfl fun _ => rfl
      · exact .keeps rfl rfl fun _ => rfl
  | strategyLock strategyId =>
      simp only [Call.step] at taken
      split at taken <;> rcases Prod.mk.inj (Option.some.inj taken) with ⟨rfl, rfl⟩
      · exact .keeps rfl rfl fun _ => rfl
      · exact .keeps rfl rfl fun _ => rfl
  | lock strategyId mutex =>
      simp only [Call.step] at taken
      split at taken
      next => cases taken
      next =>
        rcases Prod.mk.inj (Option.some.inj taken) with ⟨rfl, rfl⟩
        exact .keeps rfl rfl fun _ => rfl
  | work strategyId mutex =>
      rcases Prod.mk.inj (Option.some.inj taken) with ⟨rfl, rfl⟩
      exact .keeps rfl rfl fun _ => rfl
  | joined strategyId connectionId => cases taken
  | rejected error => cases taken
  | left => cases taken
  | sent => cases taken
  | persisted => cases taken
  | busy => cases taken

/-! ## The count -/

/-- The count moves as the stored and the pending connections do. -/
theorem step_accounts {manager after : RoomManager} {call moved : Call} {failing : List Text}
    (effect : Effect manager failing call after moved) (tidy : call.Tidy manager)
    (counted : call.pending ≤ manager.globalConnections) :
    after.globalConnections + (manager.storedConnections + call.pending) =
      manager.globalConnections + (after.storedConnections + moved.pending) := by
  cases effect with
  | keeps stored total counts =>
      have moved_as := counts counted
      omega
  | @adds strategyId connectionId user room joins found rooms counts returns =>
      rcases joins with rfl
      have absent : room.lookup connectionId = none := by
        simpa [Call.Tidy, RoomManager.stored, found] using tidy
      have added : HashMap.len (room.addConnection connectionId user) = HashMap.len room + 1 :=
        HashMap.len_insert_of_none absent
      have total := HashMap.total_insert_of_lookup HashMap.len found
        (room.addConnection connectionId user)
      rw [← rooms] at total
      have pending : (Call.joinAdd strategyId connectionId user).pending = 1 := rfl
      simp only [RoomManager.storedConnections]
      omega
  | @takes strategyId connectionId user room leaves found inside rooms counts owes =>
      rcases leaves with rfl
      have taken := HashMap.len_erase_of_lookup inside
      have total := HashMap.total_insert_of_lookup HashMap.len found (room.erase connectionId)
      rw [← rooms] at total
      have pending : (Call.leave strategyId connectionId).pending = 0 := rfl
      simp only [RoomManager.storedConnections]
      omega
  | @prunes strategyId skip message queue follows room delivers found rooms counts owes =>
      have pruned := Room.len_broadcast room skip failing
      have total := HashMap.total_insert_of_lookup HashMap.len found
        ((room.broadcast skip failing).1)
      rw [← rooms] at total
      simp only [RoomManager.storedConnections]
      omega
  | @removes strategyId leaves rooms counts returns =>
      rcases leaves with rfl
      have pending : (Call.removeRoom strategyId).pending = 0 := rfl
      have total : HashMap.total HashMap.len after.rooms =
          HashMap.total HashMap.len manager.rooms := by
        rw [rooms]
        cases found : manager.rooms.lookup strategyId with
        | none => exact HashMap.total_erase_of_none _ found
        | some room =>
            have empty : HashMap.len room = 0 := tidy room found
            have split := HashMap.total_of_lookup HashMap.len found
            omega
      simp only [RoomManager.storedConnections]
      omega

/-! ## The stored connections -/

theorem stored_kept {manager after : RoomManager} {call moved : Call} {failing : List Text}
    {strategyId connectionId : Text} (effect : Effect manager failing call after moved)
    (tidy : call.Tidy manager) (present : manager.stored strategyId connectionId ≠ none)
    (stays : call ≠ .leave strategyId connectionId)
    (delivered : ∀ skip message queue follows,
      call = .deliver strategyId ((skip, message) :: queue) follows →
        some connectionId = skip ∨ connectionId ∉ failing) :
    after.stored strategyId connectionId ≠ none := by
  cases effect with
  | keeps stored total counts =>
      rw [stored]
      exact present
  | @adds joinedId addedId user room joins found rooms counts returns =>
      simp only [RoomManager.stored, rooms, HashMap.lookup_insert'] at present ⊢
      split
      next same =>
        rcases same with rfl
        simp only [found, Option.bind_some, Room.addConnection, HashMap.lookup_insert'] at present ⊢
        split
        · simp
        · exact present
      next => exact present
  | @takes leftId takenId user room leaves found inside rooms counts owes =>
      simp only [RoomManager.stored, rooms, HashMap.lookup_insert'] at present ⊢
      split
      next same =>
        rcases same with rfl
        have other : connectionId ≠ takenId := by
          rintro rfl
          exact stays leaves
        simpa only [found, Option.bind_some, AList.lookup_erase_ne other] using present
      next => exact present
  | @prunes sentId skip message queue follows room delivers found rooms counts owes =>
      simp only [RoomManager.stored, rooms, HashMap.lookup_insert'] at present ⊢
      split
      next same =>
        rcases same with rfl
        simp only [found, Option.bind_some] at present ⊢
        rw [Room.lookup_broadcast (delivered _ _ _ _ delivers)]
        exact present
      next => exact present
  | @removes removedId leaves rooms counts returns =>
      rcases leaves with rfl
      simp only [RoomManager.stored, rooms, HashMap.lookup_erase'] at present ⊢
      split
      next same =>
        rcases same with rfl
        exfalso
        cases found : manager.rooms.lookup strategyId with
        | none => simp [found] at present
        | some room =>
            have empty : room = ∅ := AList.ext (List.eq_nil_of_length_eq_zero (tidy room found))
            simp [found, empty] at present
      next => exact present

/-! ## Runs -/

namespace CollabStep

/-- A step that finds what it removes empty and what it adds new. -/
def Tidy (step : CollabStep) : Prop := ∀ call ∈ step.call?, call.Tidy step.before.shared

instance (step : CollabStep) : Decidable step.Tidy :=
  inferInstanceAs (Decidable (∀ call ∈ step.call?, call.Tidy step.before.shared))

def Joins (step : CollabStep) (strategyId connectionId : Text) : Prop :=
  ∃ user, step.call? = some (.joinAdd strategyId connectionId user)

def Leaves (step : CollabStep) (strategyId connectionId : Text) : Prop :=
  step.call? = some (.leave strategyId connectionId)

def Evicts (step : CollabStep) (strategyId connectionId : Text) : Prop :=
  ∃ skip message queue follows,
    step.call? = some (.deliver strategyId ((skip, message) :: queue) follows) ∧
      some connectionId ≠ skip ∧ connectionId ∈ step.event.choice

end CollabStep

/-- A connection that has joined and has neither left nor been evicted. -/
def StillJoined (strategyId connectionId : Text) (steps : List CollabStep) : Prop :=
  Since (fun step => CollabStep.Joins step strategyId connectionId)
    (fun step => ¬CollabStep.Leaves step strategyId connectionId ∧
      ¬CollabStep.Evicts step strategyId connectionId) steps

/-- No call is between two of its steps. -/
def Quiescent (pool : Pool RoomManager Call) : Prop :=
  ∀ call ∈ pool.processes, call.starts || call.ended

def pendingConnections (pool : Pool RoomManager Call) : ℕ := (pool.processes.map Call.pending).sum

theorem pending_of_quiescent {pool : Pool RoomManager Call} (quiescent : Quiescent pool) :
    pendingConnections pool = 0 := by
  refine List.sum_eq_zero ?_
  intro count count_mem
  rcases List.mem_map.mp count_mem with ⟨call, call_mem, rfl⟩
  have between := quiescent call call_mem
  cases call <;> first | rfl | cases between

section Runs

variable {shard : Text → ℕ} {start final : Pool RoomManager Call} {steps : List CollabStep}

/-- When no leave removes a room somebody has joined meanwhile, the count is right between the
calls and nobody who has joined is forgotten. -/
theorem bookkeeping_of_tidy (maxGlobal : ℕ)
    (new : start.shared = RoomManager.withGlobalLimit maxGlobal)
    (starting : ∀ call ∈ start.processes, call.starts = true) (run : (collab shard).Run start steps final)
    (tidy : ∀ step ∈ steps, CollabStep.Tidy step) :
    (Quiescent final → final.shared.globalConnections = final.shared.storedConnections) ∧
      ∀ strategyId connectionId, StillJoined strategyId connectionId steps →
        final.shared.stored strategyId connectionId ≠ none := by
  have kept : final.shared.globalConnections =
      final.shared.storedConnections + pendingConnections final ∧
        ∀ strategyId connectionId, StillJoined strategyId connectionId steps →
          final.shared.stored strategyId connectionId ≠ none := by
    refine run.history (fun steps state => (∀ step ∈ steps, CollabStep.Tidy step) →
      state.shared.globalConnections = state.shared.storedConnections + pendingConnections state ∧
        ∀ strategyId connectionId, StillJoined strategyId connectionId steps →
          state.shared.stored strategyId connectionId ≠ none) ?_ ?_ tidy
    · intro _
      have nothing : pendingConnections start = 0 :=
        pending_of_quiescent fun call call_mem => by simp [starting call call_mem]
      refine ⟨?_, fun strategyId connectionId joined => absurd joined Since.not_nil⟩
      rw [nothing, new]
      rfl
    · intro earlier state turn after taken ih tidy
      rcases ih fun step step_mem => tidy step (List.mem_append_left _ step_mem) with
        ⟨counted, stored⟩
      rcases interleaving_next_eq_some.mp taken with ⟨call, shared, moved, found, stepped, rfl⟩
      have effect := effect_of_step stepped
      have tidy_call := tidy _ (List.mem_append_right _ (List.mem_singleton_self _)) call found
      refine ⟨?_, ?_⟩
      · have own := Pool.le_sum Call.pending found
        have accounts := step_accounts effect tidy_call (by
          simp only [pendingConnections] at counted
          omega)
        have moves : ((state.processes.set turn.process moved).map Call.pending).sum + call.pending =
            (state.processes.map Call.pending).sum + moved.pending := Pool.sum_set _ found
        simp only [pendingConnections] at counted ⊢
        omega
      · intro strategyId connectionId joined
        rcases Since.snoc_iff.mp joined with ⟨user, joins⟩ | ⟨⟨stays, delivered⟩, joined⟩
        · obtain rfl := Option.some.inj (found.symm.trans joins)
          rcases Option.map_eq_some_iff.mp stepped with ⟨room, at_room, result⟩
          rcases Prod.mk.inj result with ⟨rfl, -⟩
          simp [RoomManager.stored, RoomManager.dropGuard, RoomManager.putRoom, Room.addConnection]
        · refine stored_kept effect tidy_call (stored _ _ joined) ?_ ?_
          · rintro rfl
            exact stays found
          · rintro skip message queue follows rfl
            by_contra failed
            rw [not_or, not_not] at failed
            exact delivered ⟨skip, message, queue, follows, found, failed⟩
  refine ⟨?_, kept.2⟩
  intro quiescent
  have counted := kept.1
  rw [pending_of_quiescent quiescent] at counted
  exact counted

end Runs

/-! ## A connection that vanishes -/

def collabTurns (process count : ℕ) : List (Turn (List Text)) := List.replicate count ⟨process, []⟩

def firstUser : CollabUserInfo := ⟨"ana".toList, "Ana".toList, none⟩

def secondUser : CollabUserInfo := ⟨"bap".toList, "Bap".toList, none⟩

/-- One connection leaves and another one joins the same room. -/
def relay : Pool RoomManager Call where
  shared := .withGlobalLimit 512
  processes :=
    [.join "push".toList "tab1".toList firstUser, .leave "push".toList "tab1".toList,
      .join "push".toList "tab2".toList secondUser]

/-- The second connection joins after the leave has found the room empty. -/
def lateRemove : List (Turn (List Text)) :=
  collabTurns 0 5 ++ collabTurns 1 4 ++ collabTurns 2 5 ++ collabTurns 1 2

theorem lateRemove_forgets : ∃ final, (collab fun _ => 0).exec relay lateRemove = some final ∧
    Quiescent final ∧ final.shared.globalConnections ≠ final.shared.storedConnections ∧
    StillJoined "push".toList "tab2".toList ((collab fun _ => 0).stepsOf relay lateRemove) ∧
    final.shared.stored "push".toList "tab2".toList = none := by
  have quiescent : ∀ call ∈ [Call.joined "push".toList "tab1".toList, .left,
      .joined "push".toList "tab2".toList], call.starts || call.ended := by
    decide
  have later : ∀ step ∈ ((collab fun _ => 0).stepsOf relay lateRemove).drop 14,
      CollabStep.call? step = some (.removeRoom "push".toList) ∨
        CollabStep.call? step = some (.removeLock "push".toList) := by
    decide
  refine ⟨_, rfl, quiescent, by decide, ?_, rfl⟩
  refine ⟨((collab fun _ => 0).stepsOf relay lateRemove).take 13, _,
    ((collab fun _ => 0).stepsOf relay lateRemove).drop 14, rfl, ⟨secondUser, rfl⟩, ?_⟩
  intro step step_mem
  rcases later step step_mem with removes | removes
  · simp [CollabStep.Leaves, CollabStep.Evicts, removes]
  · simp [CollabStep.Leaves, CollabStep.Evicts, removes]

/-- The first connection leaves before the second one joins. -/
def inOrder : List (Turn (List Text)) :=
  collabTurns 0 5 ++ collabTurns 1 6 ++ collabTurns 2 5

theorem inOrder_kept : ∃ final, (collab fun _ => 0).exec relay inOrder = some final ∧
    final.shared.globalConnections = final.shared.storedConnections ∧
    (StillJoined "push".toList "tab2".toList ((collab fun _ => 0).stepsOf relay inOrder) →
      final.shared.stored "push".toList "tab2".toList ≠ none) := by
  have run : (collab fun _ => 0).Run relay ((collab fun _ => 0).stepsOf relay inOrder) _ :=
    .of_exec rfl
  have starting : ∀ call ∈ relay.processes, call.starts = true := by decide
  have tidy : ∀ step ∈ (collab fun _ => 0).stepsOf relay inOrder, CollabStep.Tidy step := by
    decide
  have kept := bookkeeping_of_tidy 512 rfl starting run tidy
  have quiescent : ∀ call ∈ [Call.joined "push".toList "tab1".toList, .left,
      .joined "push".toList "tab2".toList], call.starts || call.ended := by
    decide
  exact ⟨_, rfl, kept.1 quiescent, kept.2 _ _⟩

end ScuffedCrew.Collab
